import RealTimeCyclic.Library.Overlay
import RealTimeCyclic.ConfiguratorSafety
import RealTimeCyclic.SlotTable

namespace RealTimeCyclic.SlaveListing

open Shm CString Probing ProbeTable Overlay Function Transition Configurator ConfiguratorSafety
  SlotTable

inductive Parameter
  | string
  | int
  | bool
  deriving DecidableEq

/-- A requested parameter with its last known value. -/
inductive Value
  | string (value : List UInt8)
  | int (value : Int)
  | bool (value : UInt8)
  deriving DecidableEq

/-- What `print_slave_data_by_pid` prints of a segment. The requested parameters are
printed for a slave that has started its cycle. -/
structure SlaveData where
  name : List UInt8
  connected : Bool
  availableParameters : List Parameter
  cycleStarted : Bool
  requestedParameters : Option (List Value)
  deriving DecidableEq

/-- A line of the listing. -/
inductive Line
  | slaveData (pid : Pid) (data : SlaveData)
  | justCreated (pid : Pid)
  deriving DecidableEq

def Line.pid : Line → Pid
  | .slaveData pid _ | .justCreated pid => pid

def slaveData (seg : Shmseg) : SlaveData where
  name := str seg.name
  connected := seg.isConnected
  availableParameters :=
    (if seg.availableParameters &&& stringParameterBit ≠ 0 then [.string] else []) ++
      (if seg.availableParameters &&& intParameterBit ≠ 0 then [.int] else []) ++
      if seg.availableParameters &&& boolParameterBit ≠ 0 then [.bool] else []
  cycleStarted := seg.cycleStarted
  requestedParameters :=
    if seg.cycleStarted then
      some ((if seg.requestedParameters &&& stringParameterBit ≠ 0 then
          [.string (str seg.lastKnownStringValue)] else []) ++
        (if seg.requestedParameters &&& intParameterBit ≠ 0 then
          [.int seg.lastKnownIntValue] else []) ++
        if seg.requestedParameters &&& boolParameterBit ≠ 0 then
          [.bool seg.lastKnownBoolValue] else [])
    else none

def readSeg (shm : SlotTable.Shm) (shmsegIdx : Int) : Option Shmseg :=
  if h : 0 ≤ shmsegIdx ∧ shmsegIdx.toNat < maxSlaves then some (shm ⟨shmsegIdx.toNat, h.2⟩)
  else none

def printSlaveDataByPid (shm : SlotTable.Shm) (pid : Pid) : Option (List Line) :=
  (configuratorGetAssignedShmsegIdx shm pid).bind fun shmsegIdx ↦
    if shmsegIdx = noIdx then some []
    else (readSeg shm shmsegIdx).map fun seg ↦ [.slaveData pid (slaveData seg)]

/-- The loop of PRINT_SLAVE_DATA. -/
def printSlaves (createdSlave : Idx → Created) (shm : SlotTable.Shm) :
    List Idx → Option (List Line)
  | [] => some []
  | i :: is =>
    if (shm i).pid = noPid then
      if (createdSlave i).pid = noPid then printSlaves createdSlave shm is
      else (printSlaves createdSlave shm is).map (.justCreated (createdSlave i).pid :: ·)
    else
      (printSlaveDataByPid shm (shm i).pid).bind fun lines ↦
        (printSlaves createdSlave shm is).map (lines ++ ·)

/-- The configurator, and the slots in which the master enters the slaves it connects. -/
structure State where
  configurator : Configurator.State
  slots : SlotTable.State

def initial : State where
  configurator := Configurator.initial
  slots := SlotTable.initial

def printSlaveData (s : State) : Option (List Line) :=
  if s.configurator.shmp then
    printSlaves s.configurator.createdSlave s.slots.shm (List.finRange maxSlaves)
  else some []

/-- `n` is the pid of a new process, less one. The two requests are taken with what
the master makes of them and the answer that the configurator gets. -/
inductive Operation
  | startMaster (n : ℕ)
  -- by CREATE_SLAVE, or one of the slaves of AUTOMATIC_TEST
  | createSlave (n : ℕ)
  | connectSlave (pid : Pid) (answer : Option Response)
  | disconnectSlave (i : Idx) (answer : Option Response)
  -- whatever else is stored in a segment
  | store (i : Idx) (seg : Shmseg)

/-- Undefined for a pid that was given to a slave before, and for a slave that is not
registered. -/
def step (s : State) : Operation → Option State
  | .startMaster n =>
    some { s with configurator := startMaster (.child n) true true s.configurator }
  | .createSlave n =>
    if (Fork.child n).pid ∈ s.configurator.slaves then none
    else some { s with configurator := forkSlave (.child n) s.configurator }
  | .connectSlave pid answer =>
    if Registered s.configurator pid then
      (SlotTable.step s.slots (.connect pid)).map fun slots ↦
        { slots
          configurator := waitConnectSlaveResponse pid answer
            (sendConnectSlaveRequest pid s.configurator) }
    else none
  | .disconnectSlave i answer =>
    (SlotTable.step s.slots (.reset i)).map fun slots ↦
      { slots
        configurator := waitDisconnectSlaveResponse (s.slots.shm i).pid answer
          (sendDisconnectSlaveRequest (s.slots.shm i).pid s.configurator) }
  | .store i seg =>
    some { s with slots.shm := update s.slots.shm i { seg with pid := (s.slots.shm i).pid } }

/-- There is one line about the slave: its data if it has a slot, else that it was just
created. -/
def Listed (s : State) (lines : List Line) (pid : Pid) : Prop :=
  (∀ j, (s.slots.shm j).pid = pid →
    lines.filter (fun l ↦ l.pid = pid) = [.slaveData pid (slaveData (s.slots.shm j))]) ∧
  ((∀ j, (s.slots.shm j).pid ≠ pid) →
    lines.filter (fun l ↦ l.pid = pid) = [.justCreated pid])

def ListsEach (s : State) : Prop :=
  ∃ lines, printSlaveData s = some lines ∧
    ∀ pid, Registered s.configurator pid → Listed s lines pid

/-- Wherever a slave is registered, the slot of the same index is taken if and only if the
slave has a slot, and the memory is attached. -/
def Aligned (s : State) : Prop :=
  ∀ i, (s.configurator.createdSlave i).pid ≠ noPid → s.configurator.shmp = true ∧
    ((∃ j, (s.slots.shm j).pid = (s.configurator.createdSlave i).pid) ↔
      (s.slots.shm i).pid ≠ noPid)

instance (s : State) : Decidable (Aligned s) := inferInstanceAs (Decidable (∀ _, _))

/-- `created_slave` as a table of the registered slaves. -/
structure Registers (s : Configurator.State) (L : Table maxSlaves Pid) : Prop where
  pid : ∀ i, (s.createdSlave i).pid = (L.entry i).getD noPid
  positive : ∀ i pid, L.entry i = some pid → 0 < pid
  forked : ∀ i pid, L.entry i = some pid → pid ∈ s.slaves

section Registers

variable {s t : Configurator.State} {L : Table maxSlaves Pid} {pid : Pid} {i : Idx}

theorem Registers.free (h : Registers s L) (i : Idx) :
    (s.createdSlave i).pid = noPid ↔ L.entry i = none := by
  rw [h.pid]
  cases hi : L.entry i with
  | none => simp
  | some pid =>
    have hne : pid ≠ noPid := ne_noPid_of_pos (h.positive i pid hi)
    simpa using hne

theorem Registers.owned (h : Registers s L) (hpid : pid ≠ noPid) (i : Idx) :
    (s.createdSlave i).pid = pid ↔ L.entry i = some pid := by
  rw [h.pid]
  cases hi : L.entry i with
  | none => simpa using hpid.symm
  | some pid' => simp

theorem Registers.registered (h : Registers s L) :
    Registered s pid ↔ ∃ i, L.entry i = some pid := by
  constructor
  · intro hregistered
    obtain ⟨hne, i, hi⟩ := hregistered
    exact ⟨i, (h.owned hne i).mp hi⟩
  · intro hentry
    obtain ⟨i, hi⟩ := hentry
    have hne : pid ≠ noPid := ne_noPid_of_pos (h.positive i pid hi)
    exact ⟨hne, i, (h.owned hne i).mpr hi⟩

theorem Registers.congr (h : Registers s L)
    (hpid : ∀ i, (t.createdSlave i).pid = (s.createdSlave i).pid) (hslaves : s.slaves ⊆ t.slaves) :
    Registers t L where
  pid i := (hpid i).trans (h.pid i)
  positive := h.positive
  forked i pid hi := hslaves (h.forked i pid hi)

theorem startMaster_registers (h : Registers s L) (fork : Fork) (signalled found : Bool) :
    Registers (startMaster fork signalled found s) L := by
  unfold startMaster
  split_ifs
  · exact h
  · exact h.congr (fun _ ↦ rfl) (List.Subset.refl _)
  · exact h.congr (fun _ ↦ rfl) (List.Subset.refl _)

theorem sendSlaveRequest_registers (h : Registers s L) (pid : Pid) :
    Registers (sendSlaveRequest pid s) L :=
  h.congr (fun _ ↦ rfl) (List.Subset.refl _)

theorem waitSlaveResponse_registers (h : Registers s L) (connected : Bool) (pid : Pid)
    (answer : Option Response) : Registers (waitSlaveResponse connected pid answer s) L := by
  unfold waitSlaveResponse State.setCreated
  split_ifs
  · split
    · rename_i i hi
      refine h.congr (fun k ↦ ?_) (List.Subset.refl _)
      dsimp only
      rcases eq_or_ne k i with rfl | hne
      · rw [update_self]
      · rw [update_of_ne hne]
    · exact h.congr (fun _ ↦ rfl) (List.Subset.refl _)
    · exact h.congr (fun _ ↦ rfl) (List.Subset.refl _)
  · exact h

theorem Registers.assign (h : Registers s L) (hpid : 0 < pid) :
    assignLocalIdx s.createdSlave pid = (L.free homeIdx pid).elim .noIdx .found := by
  have hfree (i : Idx) : decide ((s.createdSlave i).pid = noPid) = (L.entry i).isNone := by
    rw [Bool.eq_iff_iff, decide_eq_true_iff, Option.isNone_iff_eq_none, h.free]
  rw [assignLocalIdx, lookup, if_neg (not_lt.mpr (Int.tmod_nonneg _ hpid.le)), Table.free]
  simp only [hfree]
  cases probe (fun i ↦ (L.entry i).isNone) (homeIdx pid) with
  | none => rfl
  | some i => rfl

theorem Registers.write (h : Registers s L) (hpos : 0 < pid) (habsent : ∀ j, L.entry j ≠ some pid)
    (hcreated : t.createdSlave = update s.createdSlave i ⟨pid, false⟩)
    (hslaves : t.slaves = pid :: s.slaves) : Registers t (L.write i pid habsent) := by
  refine ⟨fun k ↦ ?_, fun k pid' hk ↦ ?_, fun k pid' hk ↦ ?_⟩
  · rw [hcreated]
    rcases eq_or_ne k i with rfl | hne
    · simp [Table.write]
    · simpa [Table.write, hne] using h.pid k
  all_goals
    rcases eq_or_ne k i with rfl | hne
  · simp only [Table.write, update_self, Option.some.injEq] at hk
    exact hk ▸ hpos
  · simp only [Table.write, update_of_ne hne] at hk
    exact h.positive k pid' hk
  · simp only [Table.write, update_self, Option.some.injEq] at hk
    rw [hslaves, hk]
    exact List.mem_cons_self
  · simp only [Table.write, update_of_ne hne] at hk
    rw [hslaves]
    exact List.mem_cons_of_mem _ (h.forked k pid' hk)

theorem Registers.fork (h : Registers s L) {n : ℕ} (hfresh : (Fork.child n).pid ∉ s.slaves) :
    Registers (forkSlave (.child n) s) L ∨
      ∃ i habsent, L.free homeIdx (Fork.child n).pid = some i ∧
        Registers (forkSlave (.child n) s) (L.write i (Fork.child n).pid habsent) := by
  have hpos : 0 < (Fork.child n).pid := by
    change (0 : Int) < (n : Int) + 1
    omega
  have hassign := h.assign hpos
  unfold forkSlave registerSlaveLocally State.setCreated
  cases hfree : L.free homeIdx (Fork.child n).pid with
  | none =>
    left
    rw [hfree, Option.elim_none] at hassign
    simp only [hassign]
    exact h.congr (fun _ ↦ rfl) (List.subset_cons_self _ _)
  | some i =>
    rw [hfree, Option.elim_some] at hassign
    simp only [hassign]
    exact .inr ⟨i, fun j hj ↦ hfresh (h.forked j _ hj), rfl, h.write hpos _ rfl rfl⟩

end Registers

section Represents

variable {s t : SlotTable.State} {T : Table maxSlaves Pid} {pid : Pid}

theorem connect_represents (h : Represents s T) (hpid : 0 < pid)
    (hs : SlotTable.step s (.connect pid) = some t) :
    Represents t T ∨ ∃ i habsent, T.free homeIdx pid = some i ∧
      Represents t (T.write i pid habsent) := by
  rcases h.connected hpid with hsame | ⟨i, habsent, hfree, hwritten⟩
  · rw [Option.some.inj (hs.symm.trans hsame)]
    exact .inl h
  · rw [Option.some.inj (hs.symm.trans hwritten)]
    exact .inr ⟨i, habsent, hfree, h.write hpid habsent (Table.free_eq_some hfree)⟩

theorem store_represents (h : Represents s T) (i : Idx) (seg : Shmseg) :
    Represents { s with shm := update s.shm i { seg with pid := (s.shm i).pid } } T := by
  have hpid (j : Idx) : (update s.shm i { seg with pid := (s.shm i).pid } j).pid = (s.shm j).pid := by
    rcases eq_or_ne j i with rfl | hne
    · rw [update_self]
    · rw [update_of_ne hne]
  refine ⟨fun j ↦ ?_, fun j pid hpos ↦ ?_, h.positive, h.assigned⟩
  · rw [hpid]
    exact h.free j
  · rw [hpid]
    exact h.owned j pid hpos

end Represents

/-- Both tables of a state. -/
structure Tabled (s : State) (L T : Table maxSlaves Pid) : Prop where
  registers : Registers s.configurator L
  represents : Represents s.slots T

/-- What a step does to the tables. -/
inductive TableStep (op : Operation) (L T : Table maxSlaves Pid) :
    Table maxSlaves Pid → Table maxSlaves Pid → Prop
  | same : TableStep op L T L T
  | create (n : ℕ) (i : Idx) (habsent : ∀ j, L.entry j ≠ some (Fork.child n).pid) :
      op = .createSlave n → L.free homeIdx (Fork.child n).pid = some i →
      TableStep op L T (L.write i (Fork.child n).pid habsent) T
  | connect (pid : Pid) (i : Idx) (habsent : ∀ j, T.entry j ≠ some pid) :
      (∃ j, L.entry j = some pid) → T.free homeIdx pid = some i →
      TableStep op L T L (T.write i pid habsent)
  | disconnect (i : Idx) : TableStep op L T L (T.erase i)

theorem step_tabled {s t : State} {L T : Table maxSlaves Pid} {op : Operation}
    (h : Tabled s L T) (hs : step s op = some t) :
    ∃ L' T', TableStep op L T L' T' ∧ Tabled t L' T' := by
  cases op with
  | startMaster n =>
    obtain rfl := Option.some.inj hs
    exact ⟨L, T, .same, startMaster_registers h.registers _ _ _, h.represents⟩
  | createSlave n =>
    obtain ⟨hfresh, hs⟩ := Option.ite_none_left_eq_some.mp hs
    obtain rfl := Option.some.inj hs
    rcases h.registers.fork hfresh with hsame | ⟨i, habsent, hfree, hwritten⟩
    · exact ⟨L, T, .same, hsame, h.represents⟩
    · exact ⟨_, T, .create n i habsent rfl hfree, hwritten, h.represents⟩
  | connectSlave pid answer =>
    obtain ⟨hregistered, hs⟩ := Option.ite_none_right_eq_some.mp hs
    obtain ⟨slots, hslots, rfl⟩ := Option.map_eq_some_iff.mp hs
    have hanswered := waitSlaveResponse_registers (sendSlaveRequest_registers h.registers pid) true
      pid answer
    obtain ⟨j, hj⟩ := h.registers.registered.mp hregistered
    rcases connect_represents h.represents (h.registers.positive j pid hj) hslots with
      hsame | ⟨i, habsent, hfree, hwritten⟩
    · exact ⟨L, T, .same, hanswered, hsame⟩
    · exact ⟨L, _, .connect pid i habsent ⟨j, hj⟩ hfree, hanswered, hwritten⟩
  | disconnectSlave i answer =>
    obtain rfl := Option.some.inj hs
    have hanswered := waitSlaveResponse_registers
      (sendSlaveRequest_registers h.registers (s.slots.shm i).pid) false (s.slots.shm i).pid answer
    exact ⟨L, _, .disconnect i, hanswered, h.represents.erase i⟩
  | store i seg =>
    obtain rfl := Option.some.inj hs
    exact ⟨L, T, .same, h.registers, store_represents h.represents i seg⟩

theorem initial_tabled : Tabled initial Table.empty Table.empty where
  registers := ⟨fun _ ↦ rfl, fun _ _ h ↦ (nomatch h), fun _ _ h ↦ (nomatch h)⟩
  represents := initial_represents

theorem reaches_tabled {s : State} {ok : State → Operation → Prop}
    (h : Reaches step ok initial s) : ∃ L T, Tabled s L T := by
  induction h with
  | start => exact ⟨_, _, initial_tabled⟩
  | next _ _ hs ih =>
    obtain ⟨L, T, hst⟩ := ih
    obtain ⟨L', T', -, ht⟩ := step_tabled hst hs
    exact ⟨L', T', ht⟩

section Listing

variable {s : State} {L T : Table maxSlaves Pid} {pid : Pid} {i : Idx}

theorem readSeg_val (shm : SlotTable.Shm) (i : Idx) : readSeg shm (i.val : Int) = some (shm i) := by
  have hi := i.isLt
  unfold readSeg
  rw [dif_pos ⟨by omega, by omega⟩]
  rfl

theorem printSlaveDataByPid_eq {slots : SlotTable.State} (h : Represents slots T)
    (hi : T.entry i = some pid) :
    printSlaveDataByPid slots.shm pid = some [.slaveData pid (slaveData (slots.shm i))] := by
  have hidx : index (some i) ≠ noIdx := fun heq ↦ Option.some_ne_none i (index_eq_noIdx.mp heq)
  rw [printSlaveDataByPid, configuratorGetAssignedShmsegIdx, h.search (h.positive i pid hi),
    Table.find_eq_some.mpr hi, Option.bind_some, if_neg hidx, index, readSeg_val, Option.map_some]

def lineOf (shm : SlotTable.Shm) (T : Table maxSlaves Pid) : Row Pid → Line
  | .upper pid => .slaveData pid (slaveData (shm ((T.find homeIdx pid).getD 0)))
  | .lower pid => .justCreated pid

theorem lineOf_upper (shm : SlotTable.Shm) (hi : T.entry i = some pid) :
    lineOf shm T (.upper pid) = .slaveData pid (slaveData (shm i)) := by
  rw [lineOf, Table.find_eq_some.mpr hi, Option.getD_some]

theorem lineOf_pid (shm : SlotTable.Shm) (r : Row Pid) : (lineOf shm T r).pid = r.key := by
  cases r <;> rfl

theorem lineOf_injective (shm : SlotTable.Shm) : Injective (lineOf shm T) := by
  intro r r' h
  cases r <;> cases r' <;> simp_all [lineOf]

theorem printSlaves_eq (h : Tabled s L T) (is : List Idx) :
    printSlaves s.configurator.createdSlave s.slots.shm is =
      some ((is.flatMap (row T L)).map (lineOf s.slots.shm T)) := by
  induction is with
  | nil => rfl
  | cons i is ih =>
    rw [printSlaves, ih, List.flatMap_cons, List.map_append]
    cases hT : T.entry i with
    | some pid =>
      have hpid := (h.represents.owned i pid (h.represents.positive i pid hT)).mp hT
      have htaken : (s.slots.shm i).pid ≠ noPid := fun hfree ↦ by
        rw [(h.represents.free i).mpr hfree] at hT
        cases hT
      rw [if_neg htaken, hpid, printSlaveDataByPid_eq h.represents hT, row_upper hT,
        List.map_singleton, lineOf_upper _ hT]
      rfl
    | none =>
      rw [if_pos ((h.represents.free i).mp hT)]
      cases hL : L.entry i with
      | some pid =>
        have hpid := h.registers.pid i
        rw [hL, Option.getD_some] at hpid
        have hne : (s.configurator.createdSlave i).pid ≠ noPid := fun hfree ↦ by
          rw [(h.registers.free i).mp hfree] at hL
          cases hL
        rw [if_neg hne, hpid, row_lower hT hL]
        rfl
      | none =>
        rw [if_pos ((h.registers.free i).mpr hL), row, hT, hL]
        rfl

theorem filter_lines (shm : SlotTable.Shm) (pid : Pid) :
    ((walk T L).map (lineOf shm T)).filter (fun l ↦ l.pid = pid) =
      (shown T L pid).map (lineOf shm T) := by
  have hkey : (fun l : Line ↦ decide (l.pid = pid)) ∘ lineOf shm T = fun r ↦ decide (r.key = pid) :=
    funext fun r ↦ by rw [comp_apply, lineOf_pid]
  rw [List.filter_map, hkey, shown]

theorem printSlaveData_eq (h : Tabled s L T) :
    printSlaveData s = some (if s.configurator.shmp then
      (walk T L).map (lineOf s.slots.shm T) else []) := by
  rw [printSlaveData, printSlaves_eq h, ← walk, apply_ite some]

theorem Listed.exists_line {lines : List Line} (h : Listed s lines pid) :
    ∃ l ∈ lines, l.pid = pid := by
  have hone : ∃ l, lines.filter (fun l ↦ l.pid = pid) = [l] := by
    by_cases hslot : ∃ j, (s.slots.shm j).pid = pid
    · obtain ⟨j, hj⟩ := hslot
      exact ⟨_, h.1 j hj⟩
    · exact ⟨_, h.2 (not_exists.mp hslot)⟩
  obtain ⟨l, hl⟩ := hone
  obtain ⟨hmem, hpid⟩ := List.mem_filter.mp (hl ▸ List.mem_singleton_self l)
  exact ⟨l, hmem, of_decide_eq_true hpid⟩

theorem listed_iff (h : Tabled s L T) (hi : L.entry i = some pid) :
    Listed s ((walk T L).map (lineOf s.slots.shm T)) pid ↔
      ((∃ j, (s.slots.shm j).pid = pid) ↔ (s.slots.shm i).pid ≠ noPid) := by
  have howned (j : Idx) := h.represents.owned j pid (h.registers.positive i pid hi)
  have hmap (r : Row Pid) :
      (shown T L pid).map (lineOf s.slots.shm T) = [lineOf s.slots.shm T r] ↔
        shown T L pid = [r] := by
    rw [← List.map_singleton]
    exact (lineOf_injective s.slots.shm).list_map.eq_iff
  have hupper (j : Idx) (hj : T.entry j = some pid) :=
    (lineOf_upper s.slots.shm hj) ▸ hmap (.upper pid)
  unfold Listed
  simp only [filter_lines, ← howned, ne_eq, ← h.represents.free]
  rw [← ne_eq, ← shown_iff hi]
  refine and_congr ?_ (imp_congr Iff.rfl (hmap (.lower pid)))
  constructor
  · intro hdata hslot
    obtain ⟨j, hj⟩ := hslot
    exact (hupper j hj).mp (hdata j hj)
  · intro hshown j hj
    exact (hupper j hj).mpr (hshown ⟨j, hj⟩)

end Listing

/-- Every registered slave is listed once and correctly if and only if the two tables are
aligned. -/
theorem listsEach_iff_aligned {s : State} (h : Reaches step unrestricted initial s) :
    ListsEach s ↔ Aligned s := by
  obtain ⟨L, T, htab⟩ := reaches_tabled h
  have hentry (i : Idx) (hi : (s.configurator.createdSlave i).pid ≠ noPid) :
      L.entry i = some (s.configurator.createdSlave i).pid :=
    (htab.registers.owned hi i).mp rfl
  unfold ListsEach
  rw [printSlaveData_eq htab]
  constructor
  · intro hlists i hi
    obtain ⟨lines, hlines, hlisted⟩ := hlists
    obtain rfl := Option.some.inj hlines
    have hlisted := hlisted _ ⟨hi, i, rfl⟩
    cases hshmp : s.configurator.shmp with
    | false =>
      obtain ⟨l, hl, -⟩ := hlisted.exists_line
      rw [hshmp] at hl
      cases hl
    | true =>
      rw [hshmp, if_pos rfl] at hlisted
      exact ⟨rfl, (listed_iff htab (hentry i hi)).mp hlisted⟩
  · intro haligned
    refine ⟨_, rfl, fun pid hpid ↦ ?_⟩
    obtain ⟨hne, i, rfl⟩ := hpid
    obtain ⟨hshmp, hcovered⟩ := haligned i hne
    rw [hshmp, if_pos rfl]
    exact (listed_iff htab (hentry i hne)).mpr hcovered

/-- Slaves 100 and 132 have the same remainder. They are created and connected in one order. -/
theorem sameOrder_listed : ∃ s, (s.slots.shm 5).pid = 132 ∧ ListsEach s := by
  have hrun : (run step initial [.createSlave 99, .startMaster 89, .createSlave 131,
      .connectSlave 100 (some .ack), .store 4 { Shmseg.zero with isConnected := true },
      .connectSlave 132 (some .ack), .createSlave 149]).map
      (fun s ↦ ((s.slots.shm 5).pid, decide (Aligned s))) = some (132, true) := by
    decide +kernel
  obtain ⟨s, hs, hview⟩ := Option.map_eq_some_iff.mp hrun
  simp only [Prod.mk.injEq, decide_eq_true_eq] at hview
  exact ⟨s, hview.1, (listsEach_iff_aligned (.of_unrestricted_run hs)).mpr hview.2⟩

/-- Only slave 132 is connected. It is listed twice, and slave 100 is hidden behind it. -/
theorem otherOrder_hides : ¬ ∀ s, Reaches step unrestricted initial s → ListsEach s := by
  intro hall
  have hrun : (run step initial [.startMaster 89, .createSlave 99, .createSlave 131,
      .connectSlave 132 (some .ack)]).map (fun s ↦
        ((printSlaveData s).map fun lines ↦ lines.map Line.pid,
          decide (Registered s.configurator 100))) = some (some [132, 132], true) := by
    decide +kernel
  obtain ⟨s, hs, hview⟩ := Option.map_eq_some_iff.mp hrun
  simp only [Prod.mk.injEq, decide_eq_true_eq] at hview
  obtain ⟨lines, hlines, hlisted⟩ := hall s (.of_unrestricted_run hs)
  have hpids := hview.1
  rw [hlines, Option.map_some, Option.some.injEq] at hpids
  obtain ⟨l, hl, hpid⟩ := (hlisted 100 hview.2).exists_line
  have hmem := List.mem_map_of_mem (f := Line.pid) hl
  rw [hpids, hpid] at hmem
  exact absurd hmem (by decide)

section DistinctHomes

/-- Every slave is at its home in both tables. -/
structure HomeInv (L T : Table maxSlaves Pid) : Prop where
  localHome : L.AtHome homeIdx
  slotHome : T.AtHome homeIdx
  registered : ∀ j pid, T.entry j = some pid → ∃ i, L.entry i = some pid

/-- The new slave has another remainder than the registered ones. -/
def apart (s : State) : Operation → Prop
  | .createSlave n =>
    ∀ pid, Registered s.configurator pid → homeIdx pid ≠ homeIdx (Fork.child n).pid
  | _ => True

theorem TableStep.homeInv {op : Operation} {L T L' T' : Table maxSlaves Pid}
    (hstep : TableStep op L T L' T') (h : HomeInv L T)
    (hapart : ∀ n, op = .createSlave n → ∀ i pid, L.entry i = some pid →
      homeIdx pid ≠ homeIdx (Fork.child n).pid) : HomeInv L' T' := by
  cases hstep with
  | same => exact h
  | create n i habsent hop hfree =>
    have hhome := Table.free_home (h.localHome.home_free (hapart n hop))
    have hi := Option.some.inj (hfree.symm.trans hhome)
    refine ⟨h.localHome.write hi habsent, h.slotHome, fun j pid hj ↦ ?_⟩
    obtain ⟨k, hk⟩ := h.registered j pid hj
    have hne : k ≠ i := by
      intro heq
      rw [heq, Table.free_eq_some hfree] at hk
      cases hk
    exact ⟨k, by simpa [Table.write, hne] using hk⟩
  | connect pid i habsent hregistered hfree =>
    obtain ⟨k, hk⟩ := hregistered
    have hother (j : Idx) (pid' : Pid) (hj : T.entry j = some pid') :
        homeIdx pid' ≠ homeIdx pid := by
      intro heq
      obtain ⟨k', hk'⟩ := h.registered j pid' hj
      have hkk' : k' = k :=
        ((h.localHome k' pid' hk').trans heq).trans (h.localHome k pid hk).symm
      rw [hkk', hk] at hk'
      exact habsent j (hj.trans hk'.symm)
    have hi := Option.some.inj
      (hfree.symm.trans (Table.free_home (h.slotHome.home_free hother)))
    refine ⟨h.localHome, h.slotHome.write hi habsent, fun j pid' hj ↦ ?_⟩
    rcases eq_or_ne j i with rfl | hne
    · simp only [Table.write, update_self, Option.some.injEq] at hj
      exact ⟨k, hj ▸ hk⟩
    · simp only [Table.write, update_of_ne hne] at hj
      exact h.registered j pid' hj
  | disconnect i =>
    refine ⟨h.localHome, h.slotHome.erase i, fun j pid hj ↦ ?_⟩
    rcases eq_or_ne j i with rfl | hne
    · simp [Table.erase] at hj
    · simp only [Table.erase, update_of_ne hne] at hj
      exact h.registered j pid hj

/-- Slaves with different remainders are listed right in whatever order they come and go. -/
theorem aligned_of_apart {s : State} (h : Reaches step apart initial s)
    (hshmp : s.configurator.shmp = true) : Aligned s := by
  have hinv : ∃ L T, Tabled s L T ∧ HomeInv L T := by
    clear hshmp
    induction h with
    | start =>
      exact ⟨_, _, initial_tabled, Table.atHome_empty, Table.atHome_empty, fun _ _ h ↦ nomatch h⟩
    | next _ hapart hs ih =>
      obtain ⟨L, T, htab, hhome⟩ := ih
      obtain ⟨L', T', hstep, htab'⟩ := step_tabled htab hs
      refine ⟨L', T', htab', hstep.homeInv hhome fun n hop i pid hi ↦ ?_⟩
      subst hop
      exact hapart pid (htab.registers.registered.mpr ⟨i, hi⟩)
  obtain ⟨L, T, htab, hhome⟩ := hinv
  intro i hi
  refine ⟨hshmp, ?_⟩
  have hentry := (htab.registers.owned hi i).mp rfl
  have howned (j : Idx) :=
    htab.represents.owned j _ (htab.registers.positive i _ hentry)
  simp only [← howned, ne_eq, ← htab.represents.free]
  exact covered_iff hhome.slotHome hhome.localHome hhome.registered hentry

end DistinctHomes

end RealTimeCyclic.SlaveListing
