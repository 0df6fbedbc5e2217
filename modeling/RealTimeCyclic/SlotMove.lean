import RealTimeCyclic.Slot

namespace RealTimeCyclic.Slot

open Shm Slave SlotThread

def SyncPc.holding : SyncPc → Bool
  | .write _ | .kill _ => true
  | _ => false

/-- What the sync thread can do to a slot. -/
inductive SyncMove (pid : Pid) (s : State) : State → Prop
  | moved {pc : SyncPc} (hold : s.sync.holding = false) (hnew : pc.holding = false) :
      SyncMove pid s { s with sync := pc }
  | claimed (hold : s.sync.holding = false) (hfree : s.seg.pid = noPid)
      (hexited : s.slot = .exited) :
      SyncMove pid s { s with
        seg.pid := pid
        slot := .sendSemWait .connectSlave
        sync := .sigwaitinfo }
  | acquired {request : Request} (hold : s.sync.holding = false)
      (hpos : 0 < s.seg.semMToSRequest) :
      SyncMove pid s { s with
        seg.semMToSRequest := s.seg.semMToSRequest - 1
        history.acquired := s.history.acquired + 1
        sync := .write request }
  | written {request : Request} (hpc : s.sync = .write request) :
      SyncMove pid s { s with
        seg.reqMToS := request
        history.written := s.history.acquired
        sync := .kill request }
  | killed {request : Request} (hpc : s.sync = .kill request) :
      SyncMove pid s { s with toSlave := s.toSlave ++ [.command], sync := .sigwaitinfo }

theorem syncStep_move {pid : Pid} {request : Request} {s t : State}
    (hs : syncStep pid request s = some t) : SyncMove pid s t := by
  simp only [syncStep] at hs
  cases hpc : s.sync with
  | sigwaitinfo =>
    have hold : s.sync.holding = false := by rw [hpc]; rfl
    simp only [hpc] at hs
    split at hs
    case h_5 => cases hs
    all_goals exact Option.some.inj hs ▸ .moved hold rfl
  | lookup request =>
    have hold : s.sync.holding = false := by rw [hpc]; rfl
    cases request with
    | connectSlave =>
      simp only [hpc] at hs
      split_ifs at hs with hassigned hfree
      · exact Option.some.inj hs ▸ .moved hold rfl
      · exact Option.some.inj hs ▸ .claimed hold hfree.1 hfree.2
    | _ =>
      simp only [hpc] at hs
      split_ifs at hs <;> exact Option.some.inj hs ▸ .moved hold rfl
  | checkCycle =>
    have hold : s.sync.holding = false := by rw [hpc]; rfl
    simp only [hpc] at hs
    split_ifs at hs <;> exact Option.some.inj hs ▸ .moved hold rfl
  | semWait request =>
    have hold : s.sync.holding = false := by rw [hpc]; rfl
    simp only [hpc] at hs
    split_ifs at hs with hpos
    exact Option.some.inj hs ▸ .acquired hold hpos
  | write request =>
    simp only [hpc] at hs
    exact Option.some.inj hs ▸ .written hpc
  | kill request =>
    simp only [hpc] at hs
    exact Option.some.inj hs ▸ .killed hpc
  | fault => simp [hpc] at hs

section Effect

variable (s : State) (effect : Effect)

@[simp] theorem State.effect_seg : (s.effect effect).seg = s.seg := by
  cases effect with
  | handled signal => cases signal <;> rfl
  | _ => rfl

@[simp] theorem State.effect_slot : (s.effect effect).slot = s.slot := by
  cases effect with
  | handled signal => cases signal <;> rfl
  | _ => rfl

@[simp] theorem State.effect_self : (s.effect effect).self = s.self := by
  cases effect with
  | handled signal => cases signal <;> rfl
  | _ => rfl

@[simp] theorem State.effect_alive : (s.effect effect).alive = s.alive := by
  cases effect with
  | handled signal => cases signal <;> rfl
  | _ => rfl

@[simp] theorem State.effect_handler : (s.effect effect).handler = s.handler := by
  cases effect with
  | handled signal => cases signal <;> rfl
  | _ => rfl

@[simp] theorem State.effect_wake : (s.effect effect).wake = s.wake := by
  cases effect with
  | handled signal => cases signal <;> rfl
  | _ => rfl

@[simp] theorem State.effect_toMaster : (s.effect effect).toMaster = s.toMaster := by
  cases effect with
  | handled signal => cases signal <;> rfl
  | _ => rfl

@[simp] theorem State.effect_cycle : (s.effect effect).cycle = s.cycle := by
  cases effect with
  | handled signal => cases signal <;> rfl
  | _ => rfl

@[simp] theorem State.effect_sleepUs : (s.effect effect).sleepUs = s.sleepUs := by
  cases effect with
  | handled signal => cases signal <;> rfl
  | _ => rfl

@[simp] theorem State.effect_taken : (s.effect effect).history.taken = s.history.taken := by
  cases effect with
  | handled signal => cases signal <;> rfl
  | _ => rfl

@[simp] theorem State.effect_posted : (s.effect effect).history.posted = s.history.posted := by
  cases effect with
  | handled signal => cases signal <;> rfl
  | _ => rfl

@[simp] theorem State.effect_withdrawn :
    (s.effect effect).history.withdrawn = s.history.withdrawn := by
  cases effect with
  | handled signal => cases signal <;> rfl
  | _ => rfl

theorem State.handled_subset_effect : s.history.handled ⊆ (s.effect effect).history.handled := by
  cases effect with
  | handled signal =>
    cases signal with
    | parameter k => exact List.subset_cons_self _ _
    | _ => exact List.Subset.refl _
  | _ => exact List.Subset.refl _

variable {s effect}

theorem State.mem_toSlave_effect {signal : Signal} (h : signal ∈ (s.effect effect).toSlave) :
    signal ∈ s.toSlave ∨ effect = .signalled signal := by
  cases effect with
  | signalled sent =>
    rcases List.mem_append.mp h with hold | hnew
    · exact .inl hold
    · exact .inr (List.mem_singleton.mp hnew ▸ rfl)
  | handled sent => cases sent <;> exact .inl h
  | _ => exact .inl h

end Effect

theorem slotStep_eq_some {mustChange : Bool} {s t : State} (h : slotStep mustChange s = some t) :
    ∃ v effect,
      SlotThread.step s.history.acquired mustChange true ⟨s.seg, s.slot, s.wake⟩ =
        some (v, effect) ∧
      t = { s with seg := v.seg, slot := v.pc, wake := v.wake }.effect effect := by
  obtain ⟨⟨v, effect⟩, hv, ht⟩ := Option.map_eq_some_iff.mp h
  exact ⟨v, effect, hv, ht.symm⟩

theorem slotStep_move {mustChange : Bool} {s t : State} (h : slotStep mustChange s = some t) :
    ∃ v effect, Move s.history.acquired mustChange true s.seg s.slot s.wake v effect ∧
      t = { s with seg := v.seg, slot := v.pc, wake := v.wake }.effect effect := by
  obtain ⟨v, effect, hstep, ht⟩ := slotStep_eq_some h
  exact ⟨v, effect, step_move hstep, ht⟩

theorem deliverStep_eq_some {pid : Pid} {s t : State} (h : deliverStep pid s = some t) :
    ∃ toMaster wake, t = { s with toMaster := toMaster, wake := wake } := by
  unfold deliverStep at h
  split at h
  · cases h
  · split_ifs at h
    all_goals exact ⟨_, _, (Option.some.inj h).symm⟩

theorem State.deref_cases {s t u : State} (h : s.deref t = some u) :
    s.self.shmseg = true ∧ u = t ∨ s.self.shmseg = false ∧ u = { s with alive := false } := by
  unfold deref at h
  cases hptr : s.self.shmseg with
  | true => exact .inl ⟨rfl, by simpa [hptr] using h.symm⟩
  | false => exact .inr ⟨rfl, by simpa [hptr] using h.symm⟩

section Slave

variable (pid : Pid) (s : State)

/-- A step of a handler, from its choice to its response. -/
inductive Serve : SlaveContext → Shmseg → HandlerPc → Prop
  | connect {k : ℕ} (hpc : s.handler = .connect k) :
      Serve s.self (handleConnectSlaveRequest s.self s.seg) (.respond .connectSlave .ack k)
  | disconnect {k : ℕ} (hpc : s.handler = .disconnect k) :
      Serve (handleDisconnectSlaveRequest s.self) s.seg (.respond .disconnectSlave .ack k)
  | changeName {k : ℕ} (hpc : s.handler = .changeName k) :
      Serve (handleChangeNameSlaveRequest s.self s.seg).1
        (handleChangeNameSlaveRequest s.self s.seg).2.1
        (.respond .changeSlaveName (handleChangeNameSlaveRequest s.self s.seg).2.2 k)
  | alreadyStarted {k : ℕ} (hpc : s.handler = .startRead k) (hcycle : s.seg.cycleStarted = true) :
      Serve s.self (setError ⟨"Slave cycle already started!", none⟩ s.seg)
        (.respond .startSlaveCycle .nack k)
  | starting {k : ℕ} (hpc : s.handler = .startRead k) (hcycle : s.seg.cycleStarted = false) :
      Serve s.self s.seg (.startWrite k)
  | startWritten {k : ℕ} (hpc : s.handler = .startWrite k) :
      Serve s.self { s.seg with cycleStarted := true } (.startPost k)
  | startPosted {k : ℕ} (hpc : s.handler = .startPost k) :
      Serve { s.self with allowCommunicationCycle := s.self.allowCommunicationCycle + 1 } s.seg
        (.respond .startSlaveCycle .ack k)
  | stopping {k : ℕ} (hpc : s.handler = .stopRead k) (hcycle : s.seg.cycleStarted = true) :
      Serve s.self s.seg (.stopWrite k)
  | alreadyStopped {k : ℕ} (hpc : s.handler = .stopRead k) (hcycle : s.seg.cycleStarted = false) :
      Serve s.self (setError ⟨"Slave cycle already stopped!", none⟩ s.seg)
        (.respond .stopSlaveCycle .nack k)
  | stopWritten {k : ℕ} (hpc : s.handler = .stopWrite k) :
      Serve s.self { s.seg with cycleStarted := false } (.stopWait k)
  | stopped {k : ℕ} (hpc : s.handler = .stopWait k) (hallow : 0 < s.self.allowCommunicationCycle) :
      Serve { s.self with allowCommunicationCycle := s.self.allowCommunicationCycle - 1 } s.seg
        (.respond .stopSlaveCycle .ack k)
  | unrecognized {request : Request} {k : ℕ} (hpc : s.handler = .unrecognized request k) :
      Serve s.self (setError ⟨"Unrecognized request received!", none⟩ s.seg)
        (.respond request .nack k)

/-- The handler chosen for a request. -/
inductive Dispatch : HandlerPc → Prop
  | connect (hrequest : s.seg.reqMToS = .connectSlave) : Dispatch (.connect s.history.written)
  | disconnect (hrequest : s.seg.reqMToS = .disconnectSlave) :
      Dispatch (.disconnect s.history.written)
  | changeName (hrequest : s.seg.reqMToS = .changeSlaveName) :
      Dispatch (.changeName s.history.written)
  | start (hrequest : s.seg.reqMToS = .startSlaveCycle) : Dispatch (.startRead s.history.written)
  | stop (hrequest : s.seg.reqMToS = .stopSlaveCycle) : Dispatch (.stopRead s.history.written)
  | unrecognized (hrequest : s.seg.reqMToS ≠ .disconnectSlave) :
      Dispatch (.unrecognized s.seg.reqMToS s.history.written)

/-- What a step of the signal handler thread can do. -/
inductive HandlerMove : State → Prop
  | crashed (hnull : s.self.shmseg = false)
      (hpc : s.handler ≠ .sigwaitinfo ∧ s.handler ≠ .clearPointer ∧
        ∀ signal, s.handler ≠ .firstSignalEverSetup signal) :
      HandlerMove { s with alive := false }
  | received {signal : Signal} {toSlave : List Signal} (hpc : s.handler = .sigwaitinfo)
      (hsignals : s.toSlave = signal :: toSlave) :
      HandlerMove { s with toSlave := toSlave, handler := .firstSignalEverSetup signal }
  | attached {signal : Signal} (hpc : s.handler = .firstSignalEverSetup signal)
      (hptr : s.self.shmseg = true) : HandlerMove { s with handler := .getvalueSToM signal }
  | found {signal : Signal} (hpc : s.handler = .firstSignalEverSetup signal)
      (hptr : s.self.shmseg = false) (hpid : s.seg.pid = pid) :
      HandlerMove { s with self.shmseg := true, handler := .getvalueSToM signal }
  | unassigned {signal : Signal} (hpc : s.handler = .firstSignalEverSetup signal)
      (hptr : s.self.shmseg = false) (hpid : s.seg.pid ≠ pid) :
      HandlerMove { s with handler := .sigwaitinfo }
  | responseDecoded {signal : Signal} (hpc : s.handler = .getvalueSToM signal)
      (hzero : s.seg.semSToMRequest = 0) : HandlerMove { s with handler := .responseSwitch signal }
  | responseExcluded {signal : Signal} (hpc : s.handler = .getvalueSToM signal)
      (hpos : 0 < s.seg.semSToMRequest) : HandlerMove { s with handler := .getvalueMToS signal }
  | requestDecoded {signal : Signal} (hpc : s.handler = .getvalueMToS signal)
      (hzero : s.seg.semMToSRequest = 0) : HandlerMove { s with handler := .requestSwitch signal }
  | nothingUnhandled {signal : Signal} (hpc : s.handler = .getvalueMToS signal)
      (hpos : 0 < s.seg.semMToSRequest) : HandlerMove { s with handler := .sigwaitinfo }
  | responseRead {signal : Signal} (hpc : s.handler = .responseSwitch signal) :
      HandlerMove { s with handler := .responsePost signal }
  | responsePosted {signal : Signal} (hpc : s.handler = .responsePost signal) :
      HandlerMove { s with
        seg.semSToMRequest := s.seg.semSToMRequest + 1
        history.posted := s.history.taken :: s.history.posted
        handler := .sigwaitinfo }
  | dispatched {signal : Signal} {dispatched : List ℕ} {pc : HandlerPc}
      (hpc : s.handler = .requestSwitch signal) (hdispatch : Dispatch s pc)
      (hdispatched : dispatched = s.history.acquired :: s.history.dispatched ∧
          s.history.written = s.history.acquired ∧ s.seg.semMToSRequest = 0 ∨
        dispatched = s.history.dispatched) :
      HandlerMove { s with history.dispatched := dispatched, handler := pc }
  | served {self : SlaveContext} {seg : Shmseg} {pc : HandlerPc} (hserve : Serve s self seg pc) :
      HandlerMove { s with self := self, seg := seg, handler := pc }
  | responded {request : Request} {response : Response} {k : ℕ}
      (hpc : s.handler = .respond request response k) :
      HandlerMove { s with
        seg.resSToM := response
        history.runs := (k, request, response) :: s.history.runs
        handler := .kill request response k }
  | answered {request : Request} {response : Response} {k : ℕ}
      (hpc : s.handler = .kill request response k) :
      HandlerMove { s with
        toMaster := s.toMaster ++ [.response]
        handler := if request = .disconnectSlave then .clearPointer else .sigwaitinfo }
  | cleared (hpc : s.handler = .clearPointer) :
      HandlerMove { s with self.shmseg := false, handler := .sigwaitinfo }

end Slave

theorem handlerStep_move {pid : Pid} {s t : State} (hs : handlerStep pid s = some t) :
    HandlerMove pid s t := by
  have hderef {u : State} (hu : s.deref u = some t)
      (hpc : s.handler ≠ .sigwaitinfo ∧ s.handler ≠ .clearPointer ∧
        ∀ signal, s.handler ≠ .firstSignalEverSetup signal)
      (hmove : HandlerMove pid s u) : HandlerMove pid s t := by
    obtain ⟨-, rfl⟩ | ⟨hnull, rfl⟩ := State.deref_cases hu
    · exact hmove
    · exact .crashed hnull hpc
  simp only [handlerStep] at hs
  cases hpc : s.handler with
  | sigwaitinfo =>
    simp only [hpc] at hs
    split at hs
    · cases hs
    · exact Option.some.inj hs ▸ .received hpc ‹_›
  | firstSignalEverSetup signal =>
    simp only [hpc] at hs
    split_ifs at hs with hptr hpid
    · exact Option.some.inj hs ▸ .attached hpc hptr
    · exact Option.some.inj hs ▸ .found hpc (by simpa using hptr) hpid
    · exact Option.some.inj hs ▸ .unassigned hpc (by simpa using hptr) hpid
  | getvalueSToM signal =>
    simp only [hpc] at hs
    split_ifs at hs with hzero
    · exact hderef hs (by simp [hpc]) (.responseDecoded hpc hzero)
    · exact hderef hs (by simp [hpc]) (.responseExcluded hpc (Nat.pos_of_ne_zero hzero))
  | getvalueMToS signal =>
    simp only [hpc] at hs
    split_ifs at hs with hzero
    · exact hderef hs (by simp [hpc]) (.requestDecoded hpc hzero)
    · exact hderef hs (by simp [hpc]) (.nothingUnhandled hpc (Nat.pos_of_ne_zero hzero))
  | responseSwitch signal =>
    simp only [hpc] at hs
    exact hderef hs (by simp [hpc]) (.responseRead hpc)
  | responsePost signal =>
    simp only [hpc] at hs
    exact hderef hs (by simp [hpc]) (.responsePosted hpc)
  | requestSwitch signal =>
    simp only [hpc] at hs
    refine hderef hs (by simp [hpc]) (.dispatched hpc ?_ ?_)
    · split
      · exact .connect ‹_›
      · exact .disconnect ‹_›
      · exact .changeName ‹_›
      · exact .start ‹_›
      · exact .stop ‹_›
      · exact .unrecognized (by assumption)
    · split_ifs with hdispatched
      · exact .inl ⟨rfl, hdispatched⟩
      · exact .inr rfl
  | connect k =>
    simp only [hpc] at hs
    exact hderef hs (by simp [hpc]) (.served (.connect hpc))
  | disconnect k =>
    simp only [hpc] at hs
    exact Option.some.inj hs ▸ .served (.disconnect hpc)
  | changeName k =>
    simp only [hpc] at hs
    exact hderef hs (by simp [hpc]) (.served (.changeName hpc))
  | startRead k =>
    simp only [hpc] at hs
    split_ifs at hs with hcycle
    · exact hderef hs (by simp [hpc]) (.served (.alreadyStarted hpc hcycle))
    · exact hderef hs (by simp [hpc]) (.served (.starting hpc (by simpa using hcycle)))
  | startWrite k =>
    simp only [hpc] at hs
    exact hderef hs (by simp [hpc]) (.served (.startWritten hpc))
  | startPost k =>
    simp only [hpc] at hs
    exact Option.some.inj hs ▸ .served (.startPosted hpc)
  | stopRead k =>
    simp only [hpc] at hs
    split_ifs at hs with hcycle
    · exact hderef hs (by simp [hpc]) (.served (.stopping hpc hcycle))
    · exact hderef hs (by simp [hpc]) (.served (.alreadyStopped hpc (by simpa using hcycle)))
  | stopWrite k =>
    simp only [hpc] at hs
    exact hderef hs (by simp [hpc]) (.served (.stopWritten hpc))
  | stopWait k =>
    simp only [hpc] at hs
    split_ifs at hs with hallow
    exact Option.some.inj hs ▸ .served (.stopped hpc hallow)
  | unrecognized request k =>
    simp only [hpc] at hs
    exact hderef hs (by simp [hpc]) (.served (.unrecognized hpc))
  | respond request response k =>
    simp only [hpc] at hs
    exact hderef hs (by simp [hpc]) (.responded hpc)
  | kill request response k =>
    simp only [hpc] at hs
    exact Option.some.inj hs ▸ .answered hpc
  | clearPointer =>
    simp only [hpc] at hs
    exact Option.some.inj hs ▸ .cleared hpc

/-- What a handler leaves alone before its response. -/
structure ServeFrame (s : State) (context : SlaveContext) (seg : Shmseg) : Prop where
  pointer : context.shmseg = s.self.shmseg
  pid : seg.pid = s.seg.pid
  reqMToS : seg.reqMToS = s.seg.reqMToS
  resSToM : seg.resSToM = s.seg.resSToM
  semMToSRequest : seg.semMToSRequest = s.seg.semMToSRequest
  semSToMRequest : seg.semSToMRequest = s.seg.semSToMRequest

theorem Serve.frame {s : State} {self : SlaveContext} {seg : Shmseg} {pc : HandlerPc}
    (h : Serve s self seg pc) : ServeFrame s self seg := by
  have herror (e : SlaveError) : ServeFrame s s.self (setError e s.seg) := by
    have hseg := setError_sameControl e s.seg
    exact ⟨rfl, hseg.pid, hseg.reqMToS, hseg.resSToM, hseg.semMToSRequest, hseg.semSToMRequest⟩
  cases h with
  | changeName =>
    have hseg := handleChangeName_sameControl s.self s.seg
    exact ⟨handleChangeName_pointer s.self s.seg, hseg.pid, hseg.reqMToS, hseg.resSToM,
      hseg.semMToSRequest, hseg.semSToMRequest⟩
  | alreadyStarted | alreadyStopped | unrecognized => exact herror _
  | _ => exact ⟨rfl, rfl, rfl, rfl, rfl, rfl⟩

/-- What a step of the communication cycle can do. -/
inductive CycleMove (usleep : Bool) (rand : ℕ) (now : Timeval) (s : State) : State → Prop
  | crashed {slept : List Usleep} (hnull : s.self.shmseg = false) (hpc : s.cycle ≠ .semWaitAllow) :
      CycleMove usleep rand now s { s with history.slept := slept, alive := false }
  | permitTaken (hpc : s.cycle = .semWaitAllow) (hallow : 0 < s.self.allowCommunicationCycle) :
      CycleMove usleep rand now s { s with
        self.allowCommunicationCycle := s.self.allowCommunicationCycle - 1
        cycle := .readCycle }
  | cycleRead {sleepUs : Int} (hpc : s.cycle = .readCycle) :
      CycleMove usleep rand now s { s with sleepUs := sleepUs, cycle := .usleep }
  | usleepFailed {slept : List Usleep} (hpc : s.cycle = .usleep)
      (hfailed : 0 < s.sleepUs ∧ usleep = false) :
      CycleMove usleep rand now s { s with
        history.slept := slept
        seg := setError ⟨"usleep() failed!", none⟩ s.seg
        cycle := .semWaitAllow }
  | slept {slept : List Usleep} (hpc : s.cycle = .usleep) :
      CycleMove usleep rand now s { s with history.slept := slept, cycle := .store }
  | stored (hpc : s.cycle = .store) :
      CycleMove usleep rand now s { s with
        seg := storeParameters rand s.seg
        cycle := .calculate }
  | calculated (hpc : s.cycle = .calculate) :
      CycleMove usleep rand now s { s with
        self := (calculateParameterCommunicationInterval now s.self s.seg).1
        seg := (calculateParameterCommunicationInterval now s.self s.seg).2
        cycle := .postAllow }
  | permitPosted (hpc : s.cycle = .postAllow) :
      CycleMove usleep rand now s { s with
        self.allowCommunicationCycle := s.self.allowCommunicationCycle + 1
        cycle := .evaluate }
  | evaluated {cycleUs : Int} (hpc : s.cycle = .evaluate) :
      CycleMove usleep rand now s { s with cycle := .segment cycleUs }
  | segmented {cycleUs segmentUs : Int} (hpc : s.cycle = .segment cycleUs) :
      CycleMove usleep rand now s { s with cycle := .trywait cycleUs segmentUs 0 }
  | requestTaken {cycleUs segmentUs : Int} {threshold : ℕ}
      (hpc : s.cycle = .trywait cycleUs segmentUs threshold) (hpos : 0 < s.seg.semSToMRequest) :
      CycleMove usleep rand now s { s with
        seg.semSToMRequest := s.seg.semSToMRequest - 1
        history.taken := s.history.taken + 1
        cycle := .getvalueAllow cycleUs segmentUs }
  | gaveUp {cycleUs segmentUs : Int} {threshold : ℕ}
      (hpc : s.cycle = .trywait cycleUs segmentUs threshold) (hzero : s.seg.semSToMRequest = 0)
      (hexpired : waitMasterResponseTimeoutSegments ≤ threshold) :
      CycleMove usleep rand now s { s with
        seg := setError ⟨"Master failed to respond to request!", none⟩ s.seg
        cycle := .getvalueAllow cycleUs segmentUs }
  | waited {cycleUs segmentUs : Int} {threshold : ℕ} {slept : List Usleep}
      (hpc : s.cycle = .trywait cycleUs segmentUs threshold) :
      CycleMove usleep rand now s { s with
        history.slept := slept
        cycle := .trywait cycleUs segmentUs (threshold + 1) }
  | stopFound {cycleUs segmentUs : Int} (hpc : s.cycle = .getvalueAllow cycleUs segmentUs) :
      CycleMove usleep rand now s { s with cycle := .withdraw cycleUs }
  | permitFound {cycleUs segmentUs : Int} (hpc : s.cycle = .getvalueAllow cycleUs segmentUs) :
      CycleMove usleep rand now s { s with cycle := .writeRequest cycleUs segmentUs }
  | withdrawn {cycleUs : Int} (hpc : s.cycle = .withdraw cycleUs) :
      CycleMove usleep rand now s { s with
        seg.semSToMRequest := s.seg.semSToMRequest + 1
        history.withdrawn := s.history.taken :: s.history.withdrawn
        history.posted := s.history.taken :: s.history.posted
        sleepUs := cycleUs - 0
        cycle := .semWaitAllow }
  | requestWritten {cycleUs segmentUs : Int} (hpc : s.cycle = .writeRequest cycleUs segmentUs) :
      CycleMove usleep rand now s { s with
        seg.reqSToM := .signalMasterParameter
        cycle := .kill cycleUs segmentUs }
  | signalled {cycleUs segmentUs : Int} (hpc : s.cycle = .kill cycleUs segmentUs) :
      CycleMove usleep rand now s { s with
        toMaster := s.toMaster ++ [.parameter s.history.taken]
        sleepUs := cycleUs - segmentUs
        cycle := .semWaitAllow }

theorem cycleStep_move {usleep : Bool} {rand : ℕ} {now : Timeval} {s t : State}
    (hs : cycleStep usleep rand now s = some t) : CycleMove usleep rand now s t := by
  have hderef {u : State} (hu : s.deref u = some t) (hpc : s.cycle ≠ .semWaitAllow)
      (hmove : CycleMove usleep rand now s u) : CycleMove usleep rand now s t := by
    obtain ⟨-, rfl⟩ | ⟨hnull, rfl⟩ := State.deref_cases hu
    · exact hmove
    · have hcrash : CycleMove usleep rand now s
          { s with alive := false, history.slept := s.history.slept } := .crashed hnull hpc
      exact hcrash
  simp only [cycleStep] at hs
  cases hpc : s.cycle with
  | semWaitAllow =>
    simp only [hpc] at hs
    split_ifs at hs with hallow
    exact Option.some.inj hs ▸ .permitTaken hpc hallow
  | readCycle =>
    simp only [hpc] at hs
    exact hderef hs (by simp [hpc]) (.cycleRead hpc)
  | usleep =>
    simp only [hpc] at hs
    split_ifs at hs with hpos husleep
    · exact Option.some.inj hs ▸ .slept hpc
    · obtain ⟨-, rfl⟩ | ⟨hnull, rfl⟩ := State.deref_cases hs
      · exact .usleepFailed hpc ⟨hpos, by simpa using husleep⟩
      · exact .crashed hnull (by simp [hpc])
    · have hwithout : CycleMove usleep rand now s
          { s with history.slept := s.history.slept, cycle := .store } := .slept hpc
      exact Option.some.inj hs ▸ hwithout
  | store =>
    simp only [hpc] at hs
    exact hderef hs (by simp [hpc]) (.stored hpc)
  | calculate =>
    simp only [hpc] at hs
    exact hderef hs (by simp [hpc]) (.calculated hpc)
  | postAllow =>
    simp only [hpc] at hs
    exact Option.some.inj hs ▸ .permitPosted hpc
  | evaluate =>
    simp only [hpc] at hs
    exact hderef hs (by simp [hpc]) (.evaluated hpc)
  | segment cycleUs =>
    simp only [hpc] at hs
    exact hderef hs (by simp [hpc]) (.segmented hpc)
  | trywait cycleUs segmentUs threshold =>
    simp only [hpc] at hs
    split_ifs at hs with hpos hexpired
    · exact hderef hs (by simp [hpc]) (.requestTaken hpc hpos)
    · exact hderef hs (by simp [hpc]) (.gaveUp hpc (Nat.eq_zero_of_not_pos hpos) hexpired)
    · exact hderef hs (by simp [hpc]) (.waited hpc)
  | getvalueAllow cycleUs segmentUs =>
    simp only [hpc] at hs
    split_ifs at hs
    · exact Option.some.inj hs ▸ .stopFound hpc
    · exact Option.some.inj hs ▸ .permitFound hpc
  | withdraw cycleUs =>
    simp only [hpc] at hs
    exact hderef hs (by simp [hpc]) (.withdrawn hpc)
  | writeRequest cycleUs segmentUs =>
    simp only [hpc] at hs
    exact hderef hs (by simp [hpc]) (.requestWritten hpc)
  | kill cycleUs segmentUs =>
    simp only [hpc] at hs
    exact Option.some.inj hs ▸ .signalled hpc

/-- What a step of the communication cycle leaves alone. -/
structure CycleFrame (s t : State) : Prop where
  alive : s.self.shmseg = true → t.alive = s.alive
  sync : t.sync = s.sync
  slot : t.slot = s.slot
  handler : t.handler = s.handler
  wake : t.wake = s.wake
  toSlave : t.toSlave = s.toSlave
  toMaster : t.toMaster = s.toMaster ∨ t.toMaster = s.toMaster ++ [.parameter s.history.taken]
  reqMToS : t.seg.reqMToS = s.seg.reqMToS
  resSToM : t.seg.resSToM = s.seg.resSToM
  pid : t.seg.pid = s.seg.pid
  isConnected : t.seg.isConnected = s.seg.isConnected
  semMToSRequest : t.seg.semMToSRequest = s.seg.semMToSRequest
  trywait_lowers : (∀ cycleUs segmentUs threshold, s.cycle ≠ .trywait cycleUs segmentUs threshold) →
    s.seg.semSToMRequest ≤ t.seg.semSToMRequest
  cycleStarted : t.seg.cycleStarted = s.seg.cycleStarted
  pointer : t.self.shmseg = s.self.shmseg
  acquired : t.history.acquired = s.history.acquired
  written : t.history.written = s.history.written
  runs : t.history.runs = s.history.runs
  dispatched : t.history.dispatched = s.history.dispatched
  handled : t.history.handled = s.history.handled

theorem cycleStep_frame {usleep : Bool} {rand : ℕ} {now : Timeval} {s t : State}
    (hs : cycleStep usleep rand now s = some t) : CycleFrame s t := by
  have herror (e : SlaveError) := setError_sameControl e s.seg
  have hstore := storeParameters_sameControl rand s.seg
  have hcalculate := calculate_sameControl now s.self s.seg
  cases cycleStep_move hs with
  | crashed hnull => constructor <;> simp [hnull]
  | usleepFailed | gaveUp =>
    constructor <;> simp [(herror _).reqMToS, (herror _).resSToM, (herror _).pid,
      (herror _).isConnected, (herror _).semMToSRequest, (herror _).semSToMRequest,
      (herror _).cycleStarted]
  | stored hpc =>
    constructor <;> simp [hstore.reqMToS, hstore.resSToM, hstore.pid, hstore.isConnected,
      hstore.semMToSRequest, hstore.semSToMRequest, hstore.cycleStarted]
  | calculated hpc =>
    constructor <;> simp [hcalculate.reqMToS, hcalculate.resSToM, hcalculate.pid,
      hcalculate.isConnected, hcalculate.semMToSRequest, hcalculate.semSToMRequest,
      hcalculate.cycleStarted, calculate_pointer]
  | requestTaken hpc => constructor <;> simp [hpc]
  | _ => constructor <;> simp

end RealTimeCyclic.Slot
