import RealTimeCyclic.Slot

namespace RealTimeCyclic.SlaveRequest

open Shm CString Slave Slot Transition

/-- `handle_start_cycle_slave_request` up to its response. `posted` says whether
`sem_post` succeeds. -/
def handleStartCycleSlaveRequest (posted : Bool) (self : SlaveContext) (seg : Shmseg) :
    SlaveContext × Shmseg × Response :=
  if seg.cycleStarted then (self, setError ⟨"Slave cycle already started!", none⟩ seg, .nack)
  else
    let seg := { seg with cycleStarted := true }
    if posted then
      ({ self with allowCommunicationCycle := self.allowCommunicationCycle + 1 }, seg, .ack)
    else
      (self, setError ⟨"sem_post() failed on allow_communication_cycle!", none⟩ seg, .nack)

/-- `handle_stop_cycle_slave_request` up to its response. It does not return while
there is no permit to take. -/
def handleStopCycleSlaveRequest (self : SlaveContext) (seg : Shmseg) :
    Option (SlaveContext × Shmseg × Response) :=
  if seg.cycleStarted then
    if 0 < self.allowCommunicationCycle then
      some ({ self with allowCommunicationCycle := self.allowCommunicationCycle - 1 },
        { seg with cycleStarted := false }, .ack)
    else none
  else some (self, setError ⟨"Slave cycle already stopped!", none⟩ seg, .nack)

/-- `handle_unrecognized_request` up to its response. -/
def handleUnrecognizedRequest (self : SlaveContext) (seg : Shmseg) :
    SlaveContext × Shmseg × Response :=
  (self, setError ⟨"Unrecognized request received!", none⟩ seg, .nack)

/-- `send_master_ack_response` and `send_master_nack_response`, less the signal. -/
def respond : SlaveContext × Shmseg × Response → SlaveContext × Shmseg
  | (self, seg, response) => (self, { seg with resSToM := response })

/-- `handle_master_request`. -/
def handleMasterRequest (posted : Bool) (self : SlaveContext) (seg : Shmseg) :
    Option (SlaveContext × Shmseg) :=
  match seg.reqMToS with
  | .connectSlave => some (respond (self, handleConnectSlaveRequest self seg, .ack))
  | .disconnectSlave =>
    some ({ handleDisconnectSlaveRequest self with shmseg := false },
      { seg with resSToM := .ack })
  | .changeSlaveName => some (respond (handleChangeNameSlaveRequest self seg))
  | .startSlaveCycle => some (respond (handleStartCycleSlaveRequest posted self seg))
  | .stopSlaveCycle => (handleStopCycleSlaveRequest self seg).map respond
  | _ => some (respond (handleUnrecognizedRequest self seg))

/-- The positions that the backward loop from index `i` on clears: down to the last
underscore, but never the first character. -/
def Erased (i : ℕ) (name : Mem) (p : ℕ) : Prop :=
  0 < p ∧ p ≤ i ∧ ∀ q, p < q → q ≤ i → load name q ≠ 95

theorem erased_last (i : ℕ) (name : Mem) : Erased (i + 1) name (i + 1) :=
  ⟨i.succ_pos, le_rfl, fun _ hlt hle ↦ absurd hle (by omega)⟩

theorem erased_store {i p : ℕ} {name : Mem} :
    Erased i (store name (i + 1) 0) p ↔ Erased i name p := by
  have hload (q : ℕ) (hq : q ≤ i) : load (store name (i + 1) 0) q = load name q :=
    load_store_of_ne (by omega)
  constructor
  · intro hboth
    obtain ⟨hpos, hle, hnone⟩ := hboth
    exact ⟨hpos, hle, fun q hlt hq ↦ hload q hq ▸ hnone q hlt hq⟩
  · intro hboth
    obtain ⟨hpos, hle, hnone⟩ := hboth
    exact ⟨hpos, hle, fun q hlt hq ↦ (hload q hq).symm ▸ hnone q hlt hq⟩

theorem erased_succ {i p : ℕ} {name : Mem} (hne : p ≠ i + 1) :
    Erased (i + 1) name p ↔ load name (i + 1) ≠ 95 ∧ Erased i name p := by
  constructor
  · intro hboth
    obtain ⟨hpos, hle, hnone⟩ := hboth
    exact ⟨hnone (i + 1) (by omega) le_rfl, hpos, by omega,
      fun q hlt hq ↦ hnone q hlt (by omega)⟩
  · intro hboth
    obtain ⟨hlast, hpos, hle, hnone⟩ := hboth
    refine ⟨hpos, by omega, fun q hlt hq ↦ ?_⟩
    rcases Nat.lt_or_eq_of_le hq with hq | rfl
    · exact hnone q hlt (by omega)
    · exact hlast

/-- The loop clears these positions in both copies, and nothing else. -/
theorem eraseSuffix_spec (i : ℕ) (name shmName : Mem) (p : ℕ) :
    (Erased i name p → load (eraseSuffix i name shmName).1 p = 0 ∧
      load (eraseSuffix i name shmName).2 p = 0) ∧
    (¬ Erased i name p → load (eraseSuffix i name shmName).1 p = load name p ∧
      load (eraseSuffix i name shmName).2 p = load shmName p) := by
  induction i generalizing name shmName with
  | zero => exact ⟨fun h ↦ absurd h.1 (by have hle := h.2.1; omega), fun _ ↦ ⟨rfl, rfl⟩⟩
  | succ i ih =>
    have hrest := ih (store name (i + 1) 0) (store shmName (i + 1) 0)
    rw [erased_store] at hrest
    unfold eraseSuffix
    rcases eq_or_ne p (i + 1) with rfl | hne
    · -- the loop goes on below this position, if it goes on at all
      have hkept : ¬ Erased i name (i + 1) := fun h ↦ absurd h.2.1 (by omega)
      refine ⟨fun _ ↦ ?_, fun h ↦ absurd (erased_last i name) h⟩
      split_ifs
      · exact ⟨load_store_self .., load_store_self ..⟩
      · simpa only [load_store_self] using hrest.2 hkept
    · rw [erased_succ hne]
      rw [load_store_of_ne hne, load_store_of_ne hne] at hrest
      split_ifs with hlast
      · exact ⟨fun h ↦ absurd hlast h.1,
          fun _ ↦ ⟨load_store_of_ne hne, load_store_of_ne hne⟩⟩
      · exact ⟨fun h ↦ hrest.1 h.2, fun h ↦ hrest.2 fun he ↦ h ⟨hlast, he⟩⟩

theorem eraseSuffix_sameBytes (i : ℕ) (name shmName : Mem) :
    (SameBytes (eraseSuffix i name shmName).1 name ∧
      SameBytes (eraseSuffix i name shmName).2 shmName) ↔
    ∀ p, Erased i name p → load name p = 0 ∧ load shmName p = 0 := by
  constructor
  · intro hboth p herased
    obtain ⟨hname, hshm⟩ := hboth
    have hzero := (eraseSuffix_spec i name shmName p).1 herased
    exact ⟨(hname p).symm.trans hzero.1, (hshm p).symm.trans hzero.2⟩
  · intro h
    have hload (p : ℕ) : load (eraseSuffix i name shmName).1 p = load name p ∧
        load (eraseSuffix i name shmName).2 p = load shmName p := by
      by_cases herased : Erased i name p
      · have hzero := (eraseSuffix_spec i name shmName p).1 herased
        have hold := h p herased
        exact ⟨hzero.1.trans hold.1.symm, hzero.2.trans hold.2.symm⟩
      · exact (eraseSuffix_spec i name shmName p).2 herased
    exact ⟨fun p ↦ (hload p).1, fun p ↦ (hload p).2⟩

def Bare (m : Mem) : Prop := ∀ p, 0 < p → p < slaveNameSize → load m p = 0

/-- When the loop changes nothing it has met no underscore and come down to the first
character. -/
theorem erased_of_zero {i : ℕ} {name : Mem} (h : ∀ p, Erased i name p → load name p = 0)
    {p : ℕ} (hpos : 0 < p) (hle : p ≤ i) : Erased i name p := by
  induction hd : i - p using Nat.strong_induction_on generalizing p with
  | _ d ih =>
    refine ⟨hpos, hle, fun q hlt hq h95 ↦ ?_⟩
    have hzero := h q (ih (i - q) (by omega) (by omega) hq rfl)
    rw [hzero] at h95
    exact absurd h95 (by decide)

theorem erased_bare (name shmName : Mem) :
    (∀ p, Erased (slaveNameSize - 1) name p → load name p = 0 ∧ load shmName p = 0) ↔
      Bare name ∧ Bare shmName := by
  constructor
  · intro h
    have herased {p : ℕ} (hpos : 0 < p) (hlt : p < slaveNameSize) :
        Erased (slaveNameSize - 1) name p :=
      erased_of_zero (fun q hq ↦ (h q hq).1) hpos (Nat.le_sub_one_of_lt hlt)
    exact ⟨fun p hpos hlt ↦ (h p (herased hpos hlt)).1,
      fun p hpos hlt ↦ (h p (herased hpos hlt)).2⟩
  · rintro ⟨hname, hshm⟩ p ⟨hpos, hle, -⟩
    have hlt : p < slaveNameSize := Nat.lt_of_le_pred (by decide) hle
    exact ⟨hname p hpos hlt, hshm p hpos hlt⟩

/-- Only the error list and the response differ from what they were before the request. -/
structure Unchanged (c : SlaveContext) (seg : Shmseg) (c' : SlaveContext)
    (seg' : Shmseg) : Prop where
  contextName : SameBytes c'.name c.name
  context : { c' with name := c.name } = c
  segmentName : SameBytes seg'.name seg.name
  segment : { seg' with
    name := seg.name
    resSToM := seg.resSToM
    shmsegError := seg.shmsegError
    shmsegErrorCurrentSize := seg.shmsegErrorCurrentSize } = seg

theorem Unchanged.of_setError (self : SlaveContext) (seg : Shmseg) (error : SlaveError) :
    Unchanged self seg self { setError error seg with resSToM := .nack } := by
  refine ⟨.refl _, rfl, ?_, ?_⟩
  · rw [setError_name]
    exact .refl _
  · unfold setError
    split <;> rfl

def ChecksFirst (posted : Bool) (self : SlaveContext) (seg : Shmseg) : Prop :=
  match seg.reqMToS with
  | .startSlaveCycle => seg.cycleStarted = true ∨ posted = true
  | .changeSlaveName => self.changeNameIdx = 4294967295 → Bare self.name ∧ Bare seg.name
  | _ => True

theorem wraps_iff (idx : UInt32) : idx + 1 < idx ↔ idx = 4294967295 := by
  rw [UInt32.lt_iff_toNat_lt, UInt32.toNat_add, ← UInt32.toNat_inj]
  have hlt := idx.toNat_lt
  have h1 : (1 : UInt32).toNat = 1 := rfl
  have hmax : (4294967295 : UInt32).toNat = 4294967295 := rfl
  rw [h1, hmax]
  omega

theorem handleChangeName_exhausted {self : SlaveContext} {seg : Shmseg}
    (h : self.changeNameIdx = 4294967295) :
    handleChangeNameSlaveRequest self seg =
      ({ self with name := (eraseSuffix (slaveNameSize - 1) self.name seg.name).1 },
        setError ⟨"Change name index overflow!", none⟩
          { seg with name := (eraseSuffix (slaveNameSize - 1) self.name seg.name).2 },
        .nack) := by
  unfold handleChangeNameSlaveRequest
  have hne : self.changeNameIdx ≠ 0 := by rw [h]; decide
  simp only [if_pos hne, if_pos ((wraps_iff _).mpr h)]

theorem handleChangeName_ack {self : SlaveContext} {seg : Shmseg}
    (h : self.changeNameIdx ≠ 4294967295) :
    (handleChangeNameSlaveRequest self seg).2.2 = .ack := by
  unfold handleChangeNameSlaveRequest
  dsimp only
  rw [if_neg ((wraps_iff _).not.mpr h)]

/-- The handler that counts renames erases the number before it knows whether there is
a next one. -/
theorem changeName_unchanged {self self' : SlaveContext} {seg seg' : Shmseg}
    (h : respond (handleChangeNameSlaveRequest self seg) = (self', seg'))
    (hnack : seg'.resSToM = .nack) :
    Unchanged self seg self' seg' ↔
      (self.changeNameIdx = 4294967295 → Bare self.name ∧ Bare seg.name) := by
  have hidx : self.changeNameIdx = 4294967295 := by
    by_contra hne
    have hres : (handleChangeNameSlaveRequest self seg).2.2 = seg'.resSToM :=
      congrArg (·.2.resSToM) h
    rw [handleChangeName_ack hne, hnack] at hres
    cases hres
  rw [handleChangeName_exhausted hidx] at h
  obtain ⟨rfl, rfl⟩ := Prod.mk.inj h
  rw [forall_prop_of_true hidx, ← erased_bare, ← eraseSuffix_sameBytes]
  constructor
  · intro hu
    have hseg := hu.segmentName
    rw [setError_name] at hseg
    exact ⟨hu.contextName, hseg⟩
  · intro hboth
    obtain ⟨hname, hshm⟩ := hboth
    refine ⟨hname, rfl, ?_, ?_⟩
    · rw [setError_name]
      exact hshm
    · unfold setError
      split <;> rfl

theorem startCycle_unchanged {posted : Bool} {self self' : SlaveContext} {seg seg' : Shmseg}
    (h : respond (handleStartCycleSlaveRequest posted self seg) = (self', seg'))
    (hnack : seg'.resSToM = .nack) :
    Unchanged self seg self' seg' ↔ seg.cycleStarted = true ∨ posted = true := by
  unfold handleStartCycleSlaveRequest at h
  split_ifs at h with hstarted hposted
  · obtain ⟨rfl, rfl⟩ := Prod.mk.inj h
    exact iff_of_true (.of_setError self seg _) (.inl hstarted)
  · obtain ⟨rfl, rfl⟩ := Prod.mk.inj h
    cases hnack
  · obtain ⟨rfl, rfl⟩ := Prod.mk.inj h
    refine iff_of_false (fun hu ↦ hstarted ?_) (by simp [hstarted, hposted])
    have hset := (setError_sameControl
      ⟨"sem_post() failed on allow_communication_cycle!", none⟩
      { seg with cycleStarted := true }).cycleStarted
    exact (congrArg Shmseg.cycleStarted hu.segment).symm.trans hset

theorem stopCycle_unchanged {self self' : SlaveContext} {seg seg' : Shmseg}
    (h : (handleStopCycleSlaveRequest self seg).map respond = some (self', seg'))
    (hnack : seg'.resSToM = .nack) : Unchanged self seg self' seg' := by
  unfold handleStopCycleSlaveRequest at h
  split_ifs at h with hstarted hpermit
  · obtain ⟨rfl, rfl⟩ := Prod.mk.inj (Option.some.inj h)
    cases hnack
  · cases h
  · obtain ⟨rfl, rfl⟩ := Prod.mk.inj (Option.some.inj h)
    exact .of_setError self seg _

theorem unchanged_iff_checksFirst {posted : Bool} {self self' : SlaveContext}
    {seg seg' : Shmseg} (h : handleMasterRequest posted self seg = some (self', seg'))
    (hnack : seg'.resSToM = .nack) :
    Unchanged self seg self' seg' ↔ ChecksFirst posted self seg := by
  unfold ChecksFirst
  unfold handleMasterRequest at h
  split at h
  case h_1 hreq | h_2 hreq =>
    -- CONNECT_SLAVE and DISCONNECT_SLAVE are never refused
    obtain ⟨rfl, rfl⟩ := Prod.mk.inj (Option.some.inj h)
    cases hnack
  case h_3 hreq =>
    rw [hreq]
    exact changeName_unchanged (Option.some.inj h) hnack
  case h_4 hreq =>
    rw [hreq]
    exact startCycle_unchanged (Option.some.inj h) hnack
  case h_5 hreq =>
    rw [hreq]
    exact iff_of_true (stopCycle_unchanged h hnack) trivial
  case h_6 hconnect hdisconnect hrename hstart hstop =>
    obtain ⟨rfl, rfl⟩ := Prod.mk.inj (Option.some.inj h)
    refine iff_of_true (.of_setError self seg _) ?_
    split
    · contradiction
    · contradiction
    · trivial

def startedSlave : SlaveContext :=
  { SlaveContext.initial [97] 7 with allowCommunicationCycle := 1, shmseg := true }

def restartSegment : Shmseg :=
  { Shmseg.initial with
    name := [97]
    reqMToS := .startSlaveCycle
    cycleStarted := true }

theorem restart_unchanged :
    Unchanged startedSlave restartSegment startedSlave
      { setError ⟨"Slave cycle already started!", none⟩ restartSegment with
        resSToM := .nack } := by
  have h : handleMasterRequest true startedSlave restartSegment =
      some (startedSlave, { setError ⟨"Slave cycle already started!", none⟩ restartSegment with
        resSToM := .nack }) := rfl
  exact (unchanged_iff_checksFirst h rfl).mpr (.inl rfl)

def exhaustedSlave : SlaveContext :=
  { SlaveContext.initial ([97, 95] ++ decimal 4294967295) 7 with
    changeNameIdx := 4294967295
    shmseg := true }

def exhaustedSegment : Shmseg :=
  { Shmseg.initial with
    name := exhaustedSlave.name
    reqMToS := .changeSlaveName }

theorem refusal_erases_name :
    ¬ ∀ posted self seg self' seg', handleMasterRequest posted self seg = some (self', seg') →
      seg'.resSToM = .nack → Unchanged self seg self' seg' := by
  intro hall
  have hidx : exhaustedSlave.changeNameIdx = 4294967295 := rfl
  have hres : respond (handleChangeNameSlaveRequest exhaustedSlave exhaustedSegment) = _ :=
    congrArg respond (handleChangeName_exhausted hidx)
  have hu := hall true exhaustedSlave exhaustedSegment _ _ (congrArg some hres) rfl
  have hbare := ((changeName_unchanged hres rfl).mp hu hidx).1
  exact absurd (hbare 1 (by decide) (by decide)) (by decide)

def Settles (pid : Pid) (s : State) (result : SlaveContext × Shmseg) : Prop :=
  ∃ n t, run (step pid) s (List.replicate n .handler) = some t ∧ (t.self, t.seg) = result ∧
    t.handler = .sigwaitinfo

section Handler

variable {pid : Pid} {s t : State} {result : SlaveContext × Shmseg} {k : ℕ}

theorem Settles.cons (hs : step pid s .handler = some t) (h : Settles pid t result) :
    Settles pid s result := by
  obtain ⟨n, u, hrun, hresult⟩ := h
  refine ⟨n + 1, u, ?_, hresult⟩
  rw [List.replicate_succ, run, hs]
  exact hrun

theorem step_deref (halive : s.alive = true) (hpointer : s.self.shmseg = true)
    (h : handlerStep pid s = s.deref t) : step pid s .handler = some t := by
  rw [step, if_pos halive, h, State.deref, if_pos hpointer]

theorem settles_respond {request : Request} {response : Response}
    (halive : s.alive = true) (hpointer : s.self.shmseg = true)
    (hpc : s.handler = .respond request response k) (hreq : request ≠ .disconnectSlave) :
    Settles pid s (respond (s.self, s.seg, response)) := by
  refine ⟨2, ?_⟩
  simp [List.replicate, run, step, handlerStep, State.deref, halive, hpointer, hpc, hreq, respond]

theorem settles_connect (halive : s.alive = true) (hpointer : s.self.shmseg = true)
    (hpc : s.handler = .connect k) :
    Settles pid s (respond (s.self, handleConnectSlaveRequest s.self s.seg, .ack)) := by
  have hstep : handlerStep pid s = s.deref { s with
      seg := handleConnectSlaveRequest s.self s.seg
      handler := .respond .connectSlave .ack k } := by simp only [handlerStep, hpc]
  refine .cons (step_deref halive hpointer hstep) ?_
  exact settles_respond halive hpointer rfl (by decide)

theorem settles_disconnect (halive : s.alive = true) (hpointer : s.self.shmseg = true)
    (hpc : s.handler = .disconnect k) :
    Settles pid s ({ handleDisconnectSlaveRequest s.self with shmseg := false },
      { s.seg with resSToM := .ack }) := by
  refine ⟨4, ?_⟩
  simp [List.replicate, run, step, handlerStep, State.deref, halive, hpointer, hpc,
    handleDisconnectSlaveRequest]

theorem settles_changeName (halive : s.alive = true) (hpointer : s.self.shmseg = true)
    (hpc : s.handler = .changeName k) :
    Settles pid s (respond (handleChangeNameSlaveRequest s.self s.seg)) := by
  have hstep : handlerStep pid s = s.deref { s with
      self := (handleChangeNameSlaveRequest s.self s.seg).1
      seg := (handleChangeNameSlaveRequest s.self s.seg).2.1
      handler := .respond .changeSlaveName (handleChangeNameSlaveRequest s.self s.seg).2.2 k } := by
    simp only [handlerStep, hpc]
  refine .cons (step_deref halive hpointer hstep) ?_
  exact settles_respond halive ((handleChangeName_pointer _ _).trans hpointer) rfl (by decide)

theorem settles_start (halive : s.alive = true) (hpointer : s.self.shmseg = true)
    (hpc : s.handler = .startRead k) :
    Settles pid s (respond (handleStartCycleSlaveRequest true s.self s.seg)) := by
  unfold handleStartCycleSlaveRequest
  by_cases hstarted : s.seg.cycleStarted = true
  · rw [if_pos hstarted]
    refine ⟨3, ?_⟩
    simp [List.replicate, run, step, handlerStep, State.deref, halive, hpointer, hpc, hstarted,
      respond]
  · rw [if_neg hstarted]
    refine ⟨5, ?_⟩
    simp [List.replicate, run, step, handlerStep, State.deref, halive, hpointer, hpc, hstarted,
      respond]

theorem settles_stop (halive : s.alive = true) (hpointer : s.self.shmseg = true)
    (hpc : s.handler = .stopRead k)
    (h : (handleStopCycleSlaveRequest s.self s.seg).map respond = some result) :
    Settles pid s result := by
  unfold handleStopCycleSlaveRequest at h
  split_ifs at h with hstarted hpermit
  · obtain rfl := Option.some.inj h
    refine ⟨5, ?_⟩
    simp [List.replicate, run, step, handlerStep, State.deref, halive, hpointer, hpc, hstarted,
      hpermit, respond]
  · cases h
  · obtain rfl := Option.some.inj h
    refine ⟨3, ?_⟩
    simp [List.replicate, run, step, handlerStep, State.deref, halive, hpointer, hpc, hstarted,
      respond]

theorem settles_unrecognized {request : Request} (halive : s.alive = true)
    (hpointer : s.self.shmseg = true) (hpc : s.handler = .unrecognized request k)
    (hreq : request ≠ .disconnectSlave) :
    Settles pid s (respond (handleUnrecognizedRequest s.self s.seg)) := by
  have hstep : handlerStep pid s = s.deref { s with
      seg := setError ⟨"Unrecognized request received!", none⟩ s.seg
      handler := .respond request .nack k } := by simp only [handlerStep, hpc]
  refine .cons (step_deref halive hpointer hstep) ?_
  exact settles_respond halive hpointer rfl hreq

def entry (k : ℕ) : Request → HandlerPc
  | .connectSlave => .connect k
  | .disconnectSlave => .disconnect k
  | .changeSlaveName => .changeName k
  | .startSlaveCycle => .startRead k
  | .stopSlaveCycle => .stopRead k
  | request => .unrecognized request k

theorem settles_entry (halive : s.alive = true) (hpointer : s.self.shmseg = true)
    (hpc : s.handler = entry k s.seg.reqMToS)
    (h : handleMasterRequest true s.self s.seg = some result) : Settles pid s result := by
  unfold handleMasterRequest at h
  split at h
  case h_1 hreq =>
    obtain rfl := Option.some.inj h
    exact settles_connect halive hpointer (hpc.trans (by rw [hreq, entry]))
  case h_2 hreq =>
    obtain rfl := Option.some.inj h
    exact settles_disconnect halive hpointer (hpc.trans (by rw [hreq, entry]))
  case h_3 hreq =>
    obtain rfl := Option.some.inj h
    exact settles_changeName halive hpointer (hpc.trans (by rw [hreq, entry]))
  case h_4 hreq =>
    obtain rfl := Option.some.inj h
    exact settles_start halive hpointer (hpc.trans (by rw [hreq, entry]))
  case h_5 hreq => exact settles_stop halive hpointer (hpc.trans (by rw [hreq, entry])) h
  case h_6 hconnect hdisconnect hrename hstart hstop =>
    obtain rfl := Option.some.inj h
    have hentry : s.handler = .unrecognized s.seg.reqMToS k := by
      rw [hpc]
      cases hreq : s.seg.reqMToS <;> first | contradiction | rfl
    exact settles_unrecognized halive hpointer hentry hdisconnect

/-- The steps of the thread from the switch over the request on add up to
`handle_master_request`. -/
theorem handler_settles {signal : SlotThread.Signal} (halive : s.alive = true)
    (hpointer : s.self.shmseg = true) (hpc : s.handler = .requestSwitch signal)
    (h : handleMasterRequest true s.self s.seg = some result) : Settles pid s result := by
  have hstep : ∃ dispatched, handlerStep pid s = s.deref { s with
      history.dispatched := dispatched
      handler := entry s.history.written s.seg.reqMToS } := by
    rw [handlerStep, hpc]
    exact ⟨_, rfl⟩
  obtain ⟨dispatched, hstep⟩ := hstep
  exact .cons (step_deref halive hpointer hstep) (settles_entry halive hpointer rfl h)

end Handler

end RealTimeCyclic.SlaveRequest
