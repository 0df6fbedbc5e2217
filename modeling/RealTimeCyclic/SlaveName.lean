import RealTimeCyclic.Library.Decimal
import RealTimeCyclic.SlaveRequest

namespace RealTimeCyclic.SlaveName

open Shm CString Slave SlaveRequest Transition

def renamed (base : List UInt8) (j : ℕ) : List UInt8 :=
  if j = 0 then base else base ++ (95 :: decimal j)

theorem renamed_zero (base : List UInt8) : renamed base 0 = base := if_pos rfl

theorem renamed_of_ne {base : List UInt8} {j : ℕ} (h : j ≠ 0) :
    renamed base j = base ++ (95 :: decimal j) := if_neg h

theorem renamed_text {base : List UInt8} {j : ℕ} (h : j ≠ 0) :
    base ++ [95] ++ decimal j = renamed base j := by
  rw [renamed_of_ne h, List.append_assoc, List.singleton_append]

theorem zero_not_mem_renamed {base : List UInt8} (h : (0 : UInt8) ∉ base) (j : ℕ) :
    (0 : UInt8) ∉ renamed base j := by
  unfold renamed
  split_ifs
  · exact h
  · simp only [List.mem_append, List.mem_cons, not_or]
    exact ⟨h, by decide, zero_not_mem_decimal j⟩

theorem length_renamed_mono {base : List UInt8} {i j : ℕ} (h : i ≤ j) :
    (renamed base i).length ≤ (renamed base j).length := by
  rcases Nat.eq_zero_or_pos i with rfl | hi
  · rw [renamed_zero]
    unfold renamed
    split_ifs <;> simp
  · rw [renamed_of_ne (by omega), renamed_of_ne (by omega), List.length_append,
      List.length_append, List.length_cons, List.length_cons]
    have hlen := length_decimal_mono (by omega) h
    omega

theorem renamed_injective (base : List UInt8) : Function.Injective (renamed base) := by
  intro i j h
  unfold renamed at h
  split_ifs at h with hi hj hj
  · rw [hi, hj]
  · exact absurd (congrArg List.length h) (by simp)
  · exact absurd (congrArg List.length h) (by simp)
  · have htail := List.append_cancel_left h
    exact decimal_injective (List.cons.inj htail).2

section Erase

variable {base tail : List UInt8} {name shmName : Mem}

/-- In a name that ends in an underscore and digits, the loop comes down to that
underscore. -/
theorem erased_suffix (hbase : base ≠ []) (htail : (95 : UInt8) ∉ tail)
    (hlen : (base ++ (95 :: tail)).length < slaveNameSize)
    (hname : SameBytes name (base ++ (95 :: tail))) (p : ℕ) :
    Erased (slaveNameSize - 1) name p ↔ base.length ≤ p ∧ p < slaveNameSize := by
  have hpos : 0 < base.length := List.length_pos_iff.mpr hbase
  rw [List.length_append, List.length_cons] at hlen
  have hunderscore : load name base.length = 95 := by
    rw [hname, load_append_right le_rfl, Nat.sub_self, load_cons_zero]
  constructor
  · rintro ⟨hp, hle, hnone⟩
    refine ⟨?_, Nat.lt_of_le_pred (by decide) hle⟩
    by_contra hlt
    exact hnone base.length (by omega) (by omega) hunderscore
  · rintro ⟨hge, hlt⟩
    refine ⟨by omega, Nat.le_sub_one_of_lt hlt, fun q hq _ h95 ↦ ?_⟩
    obtain ⟨i, rfl⟩ := Nat.exists_eq_add_of_lt (hge.trans_lt hq)
    have hsub : base.length + i + 1 - base.length = i + 1 := by omega
    rw [hname, load_append_right (by omega), hsub, load_cons_succ] at h95
    by_cases hi : i < tail.length
    · exact htail (h95 ▸ load_mem hi)
    · rw [load_eq_zero (by omega)] at h95
      exact absurd h95 (by decide)

theorem eraseSuffix_base (hbase : base ≠ []) (htail : (95 : UInt8) ∉ tail)
    (hlen : (base ++ (95 :: tail)).length < slaveNameSize)
    (hname : SameBytes name (base ++ (95 :: tail)))
    (hshm : SameBytes shmName (base ++ (95 :: tail))) :
    SameBytes (eraseSuffix (slaveNameSize - 1) name shmName).1 base ∧
      SameBytes (eraseSuffix (slaveNameSize - 1) name shmName).2 base := by
  have hload (p : ℕ) : load (eraseSuffix (slaveNameSize - 1) name shmName).1 p = load base p ∧
      load (eraseSuffix (slaveNameSize - 1) name shmName).2 p = load base p := by
    have hspec := eraseSuffix_spec (slaveNameSize - 1) name shmName p
    rw [erased_suffix hbase htail hlen hname] at hspec
    by_cases herased : base.length ≤ p ∧ p < slaveNameSize
    · rw [load_eq_zero herased.1]
      exact hspec.1 herased
    · have hkept := hspec.2 herased
      rw [hname, hshm] at hkept
      have hbyte : load (base ++ (95 :: tail)) p = load base p := by
        by_cases hp : p < base.length
        · exact load_append_left hp
        · rw [load_eq_zero (m := base) (by omega), load_eq_zero (by omega)]
      exact ⟨hkept.1.trans hbyte, hkept.2.trans hbyte⟩
  exact ⟨fun p ↦ (hload p).1, fun p ↦ (hload p).2⟩

end Erase

/-- Both copies of the name hold the `j`-th name, and the index is `j`. -/
structure Named (base : List UInt8) (j : ℕ) (c : SlaveContext) (seg : Shmseg) : Prop where
  index : c.changeNameIdx.toNat = j
  context : SameBytes c.name (renamed base j)
  segment : SameBytes seg.name (renamed base j)

theorem toNat_succ {idx : UInt32} (h : idx.toNat + 1 < 4294967296) :
    (idx + 1).toNat = idx.toNat + 1 := by
  have h1 : (1 : UInt32).toNat = 1 := rfl
  rw [UInt32.toNat_add, h1]
  omega

/-- What the handler does before it counts: both copies hold the base name again. -/
theorem Named.erase {base : List UInt8} {j : ℕ} {self : SlaveContext} {seg : Shmseg}
    {name shmName : Mem} (h : Named base j self seg) (hbase : base ≠ [])
    (hlen : (renamed base j).length < slaveNameSize)
    (herase : (if self.changeNameIdx ≠ 0
      then eraseSuffix (slaveNameSize - 1) self.name seg.name
      else (self.name, seg.name)) = (name, shmName)) :
    SameBytes name base ∧ SameBytes shmName base := by
  have hzero : self.changeNameIdx = 0 ↔ j = 0 := by
    rw [← UInt32.toNat_inj, h.index]
    rfl
  have hcontext := h.context
  have hsegment := h.segment
  split_ifs at herase with hidx
  · have hj : j ≠ 0 := fun he ↦ hidx (hzero.mpr he)
    rw [renamed_of_ne hj] at hlen hcontext hsegment
    have hbytes := eraseSuffix_base hbase (underscore_not_mem_decimal j) hlen hcontext hsegment
    rwa [herase] at hbytes
  · have hj : j = 0 := hzero.mp (not_not.mp hidx)
    rw [hj, renamed_zero] at hcontext hsegment
    obtain ⟨rfl, rfl⟩ := Prod.mk.inj herase
    exact ⟨hcontext, hsegment⟩

theorem Named.rename {base : List UInt8} {j : ℕ} {self : SlaveContext} {seg : Shmseg}
    (h : Named base j self seg) (hbase : base ≠ []) (h0 : (0 : UInt8) ∉ base)
    (hj : j + 1 < 4294967296) (hlen : (renamed base (j + 1)).length < slaveNameSize) :
    Named base (j + 1) (handleChangeNameSlaveRequest self seg).1
        (handleChangeNameSlaveRequest self seg).2.1 ∧
      (handleChangeNameSlaveRequest self seg).2.2 = .ack := by
  have hmax : (4294967295 : UInt32).toNat = 4294967295 := rfl
  have hidx : self.changeNameIdx ≠ 4294967295 := by
    intro he
    have hval := h.index
    rw [he, hmax] at hval
    omega
  have hsucc : (self.changeNameIdx + 1).toNat = j + 1 := by
    rw [toNat_succ (by rw [h.index]; exact hj), h.index]
  refine ⟨?_, handleChangeName_ack hidx⟩
  unfold handleChangeNameSlaveRequest
  rcases herase : (if self.changeNameIdx ≠ 0
    then eraseSuffix (slaveNameSize - 1) self.name seg.name
    else (self.name, seg.name)) with ⟨name, shmName⟩
  obtain ⟨hcontext, hsegment⟩ :=
    h.erase hbase ((length_renamed_mono j.le_succ).trans_lt hlen) herase
  have hshort : base.length ≤ (renamed base (j + 1)).length := by
    have hmono : (renamed base 0).length ≤ (renamed base (j + 1)).length :=
      length_renamed_mono (Nat.zero_le _)
    rwa [renamed_zero] at hmono
  have hname : SameBytes (storeAll name 0 (renamed base (j + 1) ++ [0]))
      (renamed base (j + 1)) :=
    sameBytes_storeAll fun k hk ↦ by rw [hcontext, load_eq_zero (by omega)]
  dsimp only
  rw [if_neg ((wraps_iff _).not.mpr hidx), str_of_sameBytes hsegment h0, hsucc,
    renamed_text j.succ_ne_zero]
  refine ⟨hsucc, hname, ?_⟩
  exact sameBytes_strcpy hname (zero_not_mem_renamed h0 _)
    fun k hk ↦ by rw [hsegment, load_eq_zero (by omega)]

/-- A slave and the segment it is attached to, if `self.shmseg` is set. -/
structure State where
  self : SlaveContext
  seg : Shmseg

def initial (name : Mem) (availableParameters : ℕ) : State where
  self := .initial name availableParameters
  seg := .initial

inductive Op
  | connect (pid : Pid)
  | disconnect
  | rename
  deriving DecidableEq

def serve (request : Request) (self : SlaveContext) (seg : Shmseg) : Option State :=
  (handleMasterRequest true self { seg with reqMToS := request }).map fun r ↦ ⟨r.1, r.2⟩

def step (s : State) : Op → Option State
  | .connect pid =>
    if s.self.shmseg then none
    else serve .connectSlave { s.self with shmseg := true } { Shmseg.initial with pid := pid }
  | .disconnect => if s.self.shmseg then serve .disconnectSlave s.self s.seg else none
  | .rename => if s.self.shmseg then serve .changeSlaveName s.self s.seg else none

/-- After `j` renames, attached or not. -/
structure NameInv (base : List UInt8) (j : ℕ) (s : State) : Prop where
  index : s.self.changeNameIdx.toNat = j
  context : SameBytes s.self.name (renamed base j)
  segment : s.self.shmseg = true → SameBytes s.seg.name (renamed base j)

abbrev renames (ops : List Op) : ℕ := ops.count .rename

theorem step_inv {base : List UInt8} {j : ℕ} {s t : State} {op : Op} (h : NameInv base j s)
    (hbase : base ≠ []) (h0 : (0 : UInt8) ∉ base) (hs : step s op = some t)
    (hj : j + renames [op] < 4294967296)
    (hlen : (renamed base (j + renames [op])).length < slaveNameSize) :
    NameInv base (j + renames [op]) t := by
  cases op with
  | connect pid =>
    obtain ⟨-, hserve⟩ := Option.ite_none_left_eq_some.mp hs
    obtain rfl := Option.some.inj hserve
    refine ⟨h.index, h.context, fun _ ↦ ?_⟩
    -- the name of a segment that has just been reset is empty
    exact sameBytes_strcpy h.context (zero_not_mem_renamed h0 _) fun k _ ↦ load_nil k
  | disconnect =>
    obtain ⟨hattached, hserve⟩ := Option.ite_none_right_eq_some.mp hs
    obtain rfl := Option.some.inj hserve
    exact ⟨h.index, h.context, fun _ ↦ h.segment hattached⟩
  | rename =>
    obtain ⟨hattached, hserve⟩ := Option.ite_none_right_eq_some.mp hs
    obtain rfl := Option.some.inj hserve
    have hnamed : Named base j s.self { s.seg with reqMToS := .changeSlaveName } :=
      ⟨h.index, h.context, h.segment hattached⟩
    obtain ⟨hnext, -⟩ := hnamed.rename hbase h0 hj hlen
    exact ⟨hnext.index, hnext.context, fun _ ↦ hnext.segment⟩

theorem run_inv {base : List UInt8} {j : ℕ} {s t : State} {ops : List Op}
    (h : NameInv base j s) (hbase : base ≠ []) (h0 : (0 : UInt8) ∉ base)
    (hs : run step s ops = some t) (hj : j + renames ops < 4294967296)
    (hlen : (renamed base (j + renames ops)).length < slaveNameSize) :
    NameInv base (j + renames ops) t := by
  induction ops generalizing j s with
  | nil =>
    obtain rfl := Option.some.inj hs
    exact h
  | cons op ops ih =>
    obtain ⟨u, hu, hrest⟩ := Option.bind_eq_some_iff.mp hs
    have hcount : j + renames (op :: ops) = j + renames [op] + renames ops := by
      rw [Nat.add_assoc, ← List.count_append, List.singleton_append]
    rw [hcount] at hj hlen ⊢
    have hshort : (renamed base (j + renames [op])).length < slaveNameSize :=
      (length_renamed_mono (Nat.le_add_right _ _)).trans_lt hlen
    exact ih (step_inv h hbase h0 hu (by omega) hshort) hrest hj hlen

theorem initial_inv {name : Mem} {availableParameters : ℕ} :
    NameInv (str name) 0 (initial name availableParameters) := by
  refine ⟨rfl, ?_, fun hattached ↦ absurd hattached Bool.false_ne_true⟩
  rw [renamed_zero]
  exact sameBytes_storeAll fun k _ ↦ load_nil k

theorem attached_of_rename {s t : State} (hs : step s .rename = some t) :
    t.self.shmseg = true := by
  obtain ⟨hattached, hserve⟩ := Option.ite_none_right_eq_some.mp hs
  obtain rfl := Option.some.inj hserve
  exact (handleChangeName_pointer _ _).trans hattached

theorem kthName {name : Mem} {availableParameters k : ℕ} {ops : List Op} {s : State}
    (hname : str name ≠ []) (h : run step (initial name availableParameters)
      (ops ++ [.rename]) = some s) (hk : renames (ops ++ [.rename]) = k) (hmax : k ≤ 4294967295)
    (hfit : (str name ++ [95] ++ decimal k).length ≤ 127) :
    SameBytes s.self.name (str name ++ [95] ++ decimal k) ∧
      SameBytes s.seg.name (str name ++ [95] ++ decimal k) := by
  have hne : k ≠ 0 := by
    rw [renames, List.count_append] at hk
    simp at hk
    omega
  rw [renamed_text hne] at hfit ⊢
  have hinv := run_inv initial_inv hname (zero_not_mem_str name) h (by omega)
    (by rw [hk, Nat.zero_add]; exact Nat.lt_succ_of_le hfit)
  rw [hk, Nat.zero_add] at hinv
  rw [run_append] at h
  obtain ⟨u, -, hlast⟩ := Option.bind_eq_some_iff.mp h
  have hattached : s.self.shmseg = true := by
    obtain ⟨v, hv, hend⟩ := Option.bind_eq_some_iff.mp hlast
    obtain rfl := Option.some.inj hend
    exact attached_of_rename hv
  exact ⟨hinv.context, hinv.segment hattached⟩

theorem secondName :
    ∃ s, run step (initial [97] 7)
        ([.connect 1000, .rename, .disconnect, .connect 1000] ++ [.rename]) = some s ∧
      SameBytes s.self.name (str [97] ++ [95] ++ decimal 2) ∧
      SameBytes s.seg.name (str [97] ++ [95] ++ decimal 2) := by
  have hrun : (run step (initial [97] 7)
      ([.connect 1000, .rename, .disconnect, .connect 1000] ++ [.rename])).isSome = true := by
    decide +kernel
  obtain ⟨s, hs⟩ := Option.isSome_iff_exists.mp hrun
  exact ⟨s, hs, kthName (by decide) hs rfl (by decide) (by decide +kernel)⟩

theorem run_renames {s : State} (h : s.self.shmseg = true) (n : ℕ) :
    ∃ t, run step s (List.replicate n .rename) = some t ∧ t.self.shmseg = true := by
  induction n generalizing s with
  | zero => exact ⟨s, rfl, h⟩
  | succ n ih =>
    have hstep : step s .rename = serve .changeSlaveName s.self s.seg := if_pos h
    obtain ⟨t, ht, hattached⟩ := ih (attached_of_rename hstep)
    exact ⟨t, Option.bind_eq_some_iff.mpr ⟨_, hstep, ht⟩, hattached⟩

/-- A rename after the index has run through its 32 bits leaves the base name. -/
theorem exhausted_name {base : List UInt8} {s t : State} (h : NameInv base 4294967295 s)
    (hbase : base ≠ []) (hlen : (renamed base 4294967295).length < slaveNameSize)
    (hs : step s .rename = some t) : SameBytes t.self.name base := by
  obtain ⟨hattached, hserve⟩ := Option.ite_none_right_eq_some.mp hs
  obtain rfl := Option.some.inj hserve
  have hidx : s.self.changeNameIdx = 4294967295 := UInt32.toNat_inj.mp h.index
  have hne : s.self.changeNameIdx ≠ 0 := by
    rw [hidx]
    decide
  have hnamed : Named base 4294967295 s.self { s.seg with reqMToS := .changeSlaveName } :=
    ⟨h.index, h.context, h.segment hattached⟩
  have hname := (hnamed.erase hbase hlen (if_pos hne)).1
  change SameBytes (handleChangeNameSlaveRequest s.self _).1.name base
  rw [handleChangeName_exhausted hidx]
  exact hname

theorem renames_replicate (pid : Pid) (n : ℕ) :
    renames (.connect pid :: List.replicate n .rename) = n := by
  have hne : Op.connect pid ≠ .rename := Op.noConfusion
  rw [renames, List.count_cons_of_ne hne, List.count_replicate_self]

theorem renamed_run {name : Mem} {n : ℕ} (availableParameters : ℕ) (pid : Pid)
    (hname : str name ≠ []) (hn : n < 4294967296)
    (hlen : (renamed (str name) n).length < slaveNameSize) :
    ∃ s, run step (initial name availableParameters)
        (.connect pid :: List.replicate n .rename) = some s ∧
      s.self.shmseg = true ∧ NameInv (str name) n s := by
  have hconnect : ∃ t, step (initial name availableParameters) (.connect pid) = some t ∧
      t.self.shmseg = true := ⟨_, rfl, rfl⟩
  obtain ⟨t, ht, hattached⟩ := hconnect
  obtain ⟨s, hs, hattached⟩ := run_renames hattached n
  have hrun : run step (initial name availableParameters)
      (.connect pid :: List.replicate n .rename) = some s :=
    Option.bind_eq_some_iff.mpr ⟨t, ht, hs⟩
  have hcount : 0 + renames (.connect pid :: List.replicate n .rename) = n := by
    rw [renames_replicate, Nat.zero_add]
  have hinv := run_inv initial_inv hname (zero_not_mem_str name) hrun (by rwa [hcount])
    (by rwa [hcount])
  rw [hcount] at hinv
  exact ⟨s, hrun, hattached, hinv⟩

theorem length_renamed_le {base : List UInt8} {n : ℕ} (hn : n ≠ 0) (h : n < 10 ^ 10) :
    (renamed base n).length ≤ base.length + 11 := by
  have hlen := length_decimal_le hn h
  rw [renamed_of_ne hn, List.length_append, List.length_cons]
  omega

theorem name_after_wrap :
    ¬ ∀ name availableParameters k ops s, str name ≠ [] →
      run step (initial name availableParameters) (ops ++ [.rename]) = some s →
      renames (ops ++ [.rename]) = k → (str name ++ [95] ++ decimal k).length ≤ 127 →
      SameBytes s.self.name (str name ++ [95] ++ decimal k) ∧
        SameBytes s.seg.name (str name ++ [95] ++ decimal k) := by
  intro hall
  have hname : str [97] ≠ [] := by decide
  have hlen : (renamed (str [97]) 4294967295).length < slaveNameSize :=
    (length_renamed_le (by decide) (by decide)).trans_lt (by decide)
  obtain ⟨s, hrun, hattached, hinv⟩ := renamed_run 7 1000 hname (by decide) hlen
  have hstep : step s .rename = serve .changeSlaveName s.self s.seg := if_pos hattached
  have hbare := exhausted_name hinv hname hlen hstep
  have hrename : run step s [.rename] = some _ := Option.bind_eq_some_iff.mpr ⟨_, hstep, rfl⟩
  have hwhole := (run_append step (initial [97] 7) _ [.rename]).trans
    (Option.bind_eq_some_iff.mpr ⟨s, hrun, hrename⟩)
  have hcount : renames ((.connect 1000 :: List.replicate 4294967295 .rename) ++ [.rename]) =
      4294967296 := by
    rw [renames, List.count_append, ← renames, renames_replicate]
    rfl
  have hfit : (str [97] ++ [95] ++ decimal 4294967296).length ≤ 127 := by
    rw [renamed_text (by decide)]
    exact (length_renamed_le (by decide) (by decide)).trans (by decide)
  have hbytes := (hall [97] 7 4294967296 _ _ hname hwhole hcount hfit).1 1
  rw [hbare 1] at hbytes
  exact absurd hbytes (by decide)

end RealTimeCyclic.SlaveName
