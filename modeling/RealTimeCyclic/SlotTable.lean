import RealTimeCyclic.Library.ProbeTable
import RealTimeCyclic.Library.Transition
import RealTimeCyclic.Shm
import Mathlib.Data.Fintype.Basic

namespace RealTimeCyclic.SlotTable

open Shm Probing ProbeTable Function Transition

abbrev Shm := Idx → Shmseg

def noIdx : Int := -1

/-- `slave_shmseg[shmsegIdx].pid`. An index outside the table is an error. -/
def readPid (shm : Shm) (shmsegIdx : Int) : Option Pid :=
  if h : 0 ≤ shmsegIdx ∧ shmsegIdx < maxSlaves then some (shm ⟨shmsegIdx.toNat, by omega⟩).pid
  else none

/-- The loop of the lookup functions with `i` turns left. -/
def searchFrom (shm : Shm) (wanted : Pid) : ℕ → Int → Option Int
  | 0, _ => some noIdx
  | i + 1, shmsegIdx =>
    (readPid shm shmsegIdx).bind fun pid ↦
      if pid = wanted then some shmsegIdx
      else searchFrom shm wanted i ((shmsegIdx + 1).tmod maxSlaves)

def assignShmsegIdx (shm : Shm) (pid : Pid) : Option Int :=
  searchFrom shm noPid maxSlaves (pid.tmod maxSlaves)

def masterGetAssignedShmsegIdx (shm : Shm) (pid : Pid) : Option Int :=
  searchFrom shm pid maxSlaves (pid.tmod maxSlaves)

def configuratorGetAssignedShmsegIdx (shm : Shm) (pid : Pid) : Option Int :=
  searchFrom shm pid maxSlaves (pid.tmod maxSlaves)

def writePid (shm : Shm) (shmsegIdx : Int) (pid : Pid) : Option Shm :=
  if h : 0 ≤ shmsegIdx ∧ shmsegIdx < maxSlaves then
    let i : Idx := ⟨shmsegIdx.toNat, by omega⟩
    some (update shm i { shm i with pid := pid })
  else none

/-- What becomes of a CONNECT: nothing, or a slot for the slave. -/
inductive Connected
  | refused
  | assigned (shm : Shm) (shmsegIdx : Int)

def connect (pid : Pid) (shm : Shm) : Option Connected :=
  (masterGetAssignedShmsegIdx shm pid).bind fun shmsegIdx ↦
    if shmsegIdx = noIdx then
      (assignShmsegIdx shm pid).bind fun shmsegIdx ↦
        if shmsegIdx = noIdx then some .refused
        else (writePid shm shmsegIdx pid).map fun shm ↦ .assigned shm shmsegIdx
    else some .refused

/-- `reset_slave_shmseg`. After the `memset` there is no permit to drain. -/
def resetSlaveShmseg (_ : Shmseg) : Shmseg :=
  let seg := initSlaveShmsegSharedMemory .zero
  { seg with
    semMToSRequest := seg.semMToSRequest - seg.semMToSRequest + 1
    semSToMRequest := seg.semSToMRequest - seg.semSToMRequest + 1 }

inductive Operation
  | connect (pid : Pid)
  | reset (i : Idx)

/-- The memory, and the index under which the master has assigned each slave. -/
structure State where
  shm : Shm
  assigned : Pid → Int

def initial : State where
  shm _ := .initial
  assigned _ := noIdx

/-- Undefined when an index leaves the table. -/
def step (s : State) : Operation → Option State
  | .connect pid =>
    (connect pid s.shm).map fun
      | .refused => s
      | .assigned shm shmsegIdx => ⟨shm, update s.assigned pid shmsegIdx⟩
  | .reset i =>
    some ⟨update s.shm i (resetSlaveShmseg (s.shm i)), update s.assigned (s.shm i).pid noIdx⟩

def Operation.ofProcess : Operation → Prop
  | .connect pid => 0 < pid
  | .reset _ => True

def index : Option Idx → Int
  | some i => i.val
  | none => noIdx

theorem index_eq_noIdx {i : Option Idx} : index i = noIdx ↔ i = none := by
  cases i with
  | none => simp [index]
  | some i =>
    have hne : ((i : ℕ) : Int) ≠ noIdx := by
      unfold noIdx
      omega
    simp [index, hne]

theorem readPid_val (shm : Shm) (i : Idx) : readPid shm (i.val : Int) = some (shm i).pid := by
  have hi := i.isLt
  unfold readPid
  rw [dif_pos ⟨by omega, by omega⟩]
  rfl

theorem writePid_val (shm : Shm) (i : Idx) (pid : Pid) :
    writePid shm (i.val : Int) pid = some (update shm i { shm i with pid := pid }) := by
  have hi := i.isLt
  unfold writePid
  rw [dif_pos ⟨by omega, by omega⟩]
  rfl

theorem succ_tmod (i : Idx) : ((i.val : Int) + 1).tmod maxSlaves = ((i + 1 : Idx).val : Int) := by
  rw [Int.tmod_eq_emod_of_nonneg (by omega), Fin.val_add]
  push_cast
  rfl

theorem searchFrom_eq_probeFrom (shm : Shm) (wanted : Pid) (k : ℕ) (i : Idx) :
    searchFrom shm wanted k i.val =
      some (index (probeFrom (fun j ↦ decide ((shm j).pid = wanted)) k i)) := by
  induction k generalizing i with
  | zero => rfl
  | succ k ih =>
    rw [searchFrom, readPid_val, Option.bind_some, probeFrom]
    by_cases hpid : (shm i).pid = wanted
    · simp [hpid, index]
    · simp only [hpid, if_false, decide_false, Bool.false_eq_true]
      rw [succ_tmod, ih]

theorem search_eq_probe (shm : Shm) (wanted : Pid) {pid : Pid} (hpid : 0 < pid) :
    searchFrom shm wanted maxSlaves (pid.tmod maxSlaves) =
      some (index (probe (fun j ↦ decide ((shm j).pid = wanted)) (homeIdx pid))) := by
  have hhome : pid.tmod maxSlaves = ((homeIdx pid).val : Int) := by
    rw [Int.tmod_eq_emod_of_nonneg (le_of_lt hpid)]
    exact (Int.toNat_of_nonneg (Int.emod_nonneg pid (by decide))).symm
  rw [hhome, searchFrom_eq_probeFrom]
  rfl

/-- The memory as a table of the slaves that own a slot. -/
structure Represents (s : State) (T : Table maxSlaves Pid) : Prop where
  free : ∀ i, T.entry i = none ↔ (s.shm i).pid = noPid
  owned : ∀ i pid, 0 < pid → (T.entry i = some pid ↔ (s.shm i).pid = pid)
  positive : ∀ i pid, T.entry i = some pid → 0 < pid
  assigned : ∀ pid, 0 < pid → s.assigned pid = index (T.find homeIdx pid)

section Lookup

variable {s : State} {T : Table maxSlaves Pid} {pid : Pid}

theorem Represents.search (h : Represents s T) (hpid : 0 < pid) :
    searchFrom s.shm pid maxSlaves (pid.tmod maxSlaves) = some (index (T.find homeIdx pid)) := by
  rw [search_eq_probe s.shm pid hpid, Table.find]
  simp only [h.owned _ pid hpid]

theorem Represents.assign (h : Represents s T) (hpid : 0 < pid) :
    assignShmsegIdx s.shm pid = some (index (T.free homeIdx pid)) := by
  have hfree (i : Idx) : decide ((s.shm i).pid = noPid) = (T.entry i).isNone := by
    rw [Bool.eq_iff_iff, decide_eq_true_iff, Option.isNone_iff_eq_none, h.free]
  rw [assignShmsegIdx, search_eq_probe s.shm noPid hpid, Table.free]
  simp only [hfree]

theorem Represents.connect (h : Represents s T) (hpid : 0 < pid) :
    connect pid s.shm = some (match T.place homeIdx pid with
      | none => .refused
      | some i => .assigned (update s.shm i { s.shm i with pid := pid }) i.val) := by
  rw [SlotTable.connect, masterGetAssignedShmsegIdx, h.search hpid, Option.bind_some, Table.place]
  cases hfind : T.find homeIdx pid with
  | some i => simp [index_eq_noIdx]
  | none =>
    simp only [index_eq_noIdx, if_true, h.assign hpid, Option.bind_some, Option.isSome_none,
      Bool.false_eq_true, if_false]
    cases hfree : T.free homeIdx pid with
    | none => simp
    | some i => simp [index, writePid_val]

end Lookup

theorem initial_represents : Represents initial Table.empty := by
  refine ⟨fun i ↦ ?_, fun i pid hpid ↦ ?_, fun i pid h ↦ ?_, fun pid _ ↦ ?_⟩
  · simp [Table.empty, initial, Shmseg.initial, initSlaveShmsegSharedMemory]
  · have hne : noPid ≠ pid := (ne_noPid_of_pos hpid).symm
    simpa [Table.empty, initial, Shmseg.initial, initSlaveShmsegSharedMemory] using hne
  · cases h
  · have hnone : Table.empty.find homeIdx pid = none := by
      simp [Table.find_eq_none, Table.empty]
    rw [hnone]
    rfl

theorem Represents.write {s : State} {T : Table maxSlaves Pid} {pid : Pid} {i : Idx}
    (h : Represents s T) (hpid : 0 < pid) (habsent : ∀ j, T.entry j ≠ some pid)
    (hfree : T.entry i = none) :
    Represents ⟨update s.shm i { s.shm i with pid := pid }, update s.assigned pid i.val⟩
      (T.write i pid habsent) := by
  have hne : pid ≠ noPid := ne_noPid_of_pos hpid
  refine ⟨fun j ↦ ?_, fun j q hq ↦ ?_, fun j q hj ↦ ?_, fun q hq ↦ ?_⟩
  · rcases eq_or_ne j i with rfl | hj
    · simp [Table.write, hne]
    · simpa [Table.write, hj] using h.free j
  · rcases eq_or_ne j i with rfl | hj
    · simp [Table.write]
    · simpa [Table.write, hj] using h.owned j q hq
  · rcases eq_or_ne j i with rfl | hne'
    · simp only [Table.write, update_self, Option.some.injEq] at hj
      exact hj ▸ hpid
    · simp only [Table.write, update_of_ne hne'] at hj
      exact h.positive j q hj
  · rw [Table.find_write habsent hfree]
    rcases eq_or_ne q pid with rfl | hne'
    · simp [index]
    · simpa [hne'] using h.assigned q hq

theorem Represents.erase {s : State} {T : Table maxSlaves Pid} (h : Represents s T) (i : Idx) :
    Represents ⟨update s.shm i (resetSlaveShmseg (s.shm i)), update s.assigned (s.shm i).pid noIdx⟩
      (T.erase i) := by
  refine ⟨fun j ↦ ?_, fun j q hq ↦ ?_, fun j q hj ↦ ?_, fun q hq ↦ ?_⟩
  · rcases eq_or_ne j i with rfl | hj
    · simp [Table.erase, resetSlaveShmseg, initSlaveShmsegSharedMemory]
    · simpa [Table.erase, hj] using h.free j
  · have hne : noPid ≠ q := (ne_noPid_of_pos hq).symm
    rcases eq_or_ne j i with rfl | hj
    · simp [Table.erase, resetSlaveShmseg, initSlaveShmsegSharedMemory, hne]
    · simpa [Table.erase, hj] using h.owned j q hq
  · rcases eq_or_ne j i with rfl | hne
    · simp [Table.erase] at hj
    · simp only [Table.erase, update_of_ne hne] at hj
      exact h.positive j q hj
  · rw [Table.find_erase]
    simp only [h.owned i q hq]
    rcases eq_or_ne q (s.shm i).pid with heq | hne
    · simp [heq, index]
    · simpa [hne, hne.symm] using h.assigned q hq

theorem Represents.connected {s : State} {T : Table maxSlaves Pid} {pid : Pid}
    (h : Represents s T) (hpid : 0 < pid) :
    SlotTable.step s (.connect pid) = some s ∨
      ∃ i, (∀ j, T.entry j ≠ some pid) ∧ T.free homeIdx pid = some i ∧
        SlotTable.step s (.connect pid) =
          some ⟨update s.shm i { s.shm i with pid := pid }, update s.assigned pid i.val⟩ := by
  cases hplace : T.place homeIdx pid with
  | none => exact .inl (by simp [SlotTable.step, h.connect hpid, hplace])
  | some i =>
    refine .inr ⟨i, (Table.place_eq_some hplace).1, ?_, ?_⟩
    · rw [Table.place] at hplace
      exact (Option.ite_none_left_eq_some.mp hplace).2
    · simp [SlotTable.step, h.connect hpid, hplace]

/-- Every operation stays inside the table and leaves one that is a partial map again. -/
theorem Represents.step {s : State} {T : Table maxSlaves Pid} {op : Operation}
    (h : Represents s T) (hop : op.ofProcess) :
    ∃ t T', SlotTable.step s op = some t ∧ Represents t T' := by
  cases op with
  | connect pid =>
    rcases h.connected hop with hsame | ⟨i, habsent, hfree, hs⟩
    · exact ⟨s, T, hsame, h⟩
    · exact ⟨_, _, hs, h.write hop habsent (Table.free_eq_some hfree)⟩
  | reset i => exact ⟨_, _, rfl, h.erase i⟩

end RealTimeCyclic.SlotTable
