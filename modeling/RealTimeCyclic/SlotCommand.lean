import RealTimeCyclic.SlotMove

namespace RealTimeCyclic.SlotCommand

open Shm Slave SlotThread Slot Transition

def Parked (s : State) : Prop :=
  s.cycle = .semWaitAllow ∧ s.self.allowCommunicationCycle = 0

def Gone (s : State) : Prop := s.handler = .clearPointer ∨ s.self.shmseg = false

/-- The part of a slot the two processes agree on while a command is open. What
a DISCONNECT leaves behind is promised in `parked` and `gone`. -/
structure Exchange where
  acquired : ℕ
  written : ℕ
  request : Request
  response : Response
  runs : List (ℕ × Request × Response)
  dispatched : List ℕ
  parked : Prop
  gone : Prop

variable {p q : Prop}

def exchange (p q : Prop) (s : State) : Exchange where
  acquired := s.history.acquired
  written := s.history.written
  request := s.seg.reqMToS
  response := s.seg.resSToM
  runs := s.history.runs
  dispatched := s.history.dispatched
  parked := p → Parked s
  gone := q → Gone s

namespace Exchange

def Fresh (x : Exchange) : Prop := x.acquired ∉ x.dispatched

def Requested (x : Exchange) : Prop := x.written = x.acquired ∧ x.Fresh

def Serving (x : Exchange) (k : ℕ) (request : Request) : Prop :=
  x.written = x.acquired ∧ k = x.acquired ∧ request = x.request

def Answered (x : Exchange) : Prop :=
  (x.acquired, x.request, x.response) ∈ x.runs ∧ (x.response = .ack ∨ x.response = .nack) ∧
    (x.request = .disconnectSlave → x.parked)

def Delivered (x : Exchange) : Prop :=
  x.Answered ∧ (x.request = .disconnectSlave → x.gone)

/-- The same exchange with no promise withdrawn. -/
structure Le (x y : Exchange) : Prop where
  acquired : y.acquired = x.acquired
  written : y.written = x.written
  request : y.request = x.request
  response : y.response = x.response
  runs : y.runs = x.runs
  dispatched : y.dispatched = x.dispatched
  parked : x.parked → y.parked
  gone : x.gone → y.gone

variable {x y : Exchange}

theorem Le.requested (h : x.Le y) (hx : x.Requested) : y.Requested := by
  unfold Requested Fresh at *
  rwa [h.acquired, h.written, h.dispatched]

theorem Le.serving {k : ℕ} {request : Request} (h : x.Le y) (hx : x.Serving k request) :
    y.Serving k request := by
  unfold Serving at *
  rwa [h.acquired, h.written, h.request]

theorem Le.answered (h : x.Le y) (hx : x.Answered) : y.Answered := by
  unfold Answered at *
  rw [h.acquired, h.request, h.response, h.runs]
  exact ⟨hx.1, hx.2.1, fun hr ↦ h.parked (hx.2.2 hr)⟩

theorem Le.delivered (h : x.Le y) (hx : x.Delivered) : y.Delivered :=
  ⟨h.answered hx.1, fun hr ↦ h.gone (hx.2 (h.request ▸ hr))⟩

end Exchange

def syncCommands : SyncPc → ℕ
  | .write _ | .kill _ => 1
  | _ => 0

def slotCommands : Pc → ℕ
  | .sendWrite _ | .sendKill _ => 1
  | .requestErrors signal | .getvalueSToM signal | .getvalueMToS signal =>
    if signal = .response then 1 else 0
  | .responseConnected | .responseSwitch _ | .responseValue _ _ | .mustChangeName _ _
  | .renamePost | .setConnected _ _ | .forward _ _ _ | .notify _ | .post => 1
  | .resetMemset _ | .resetInit _ | .resetDrainMToS _ | .resetPostMToS _ => 1
  | _ => 0

def handlerCommands : HandlerPc → ℕ
  | .firstSignalEverSetup signal | .getvalueSToM signal | .getvalueMToS signal =>
    if signal = .command then 1 else 0
  | .requestSwitch _ | .connect _ | .disconnect _ | .changeName _ | .startRead _
  | .startWrite _ | .startPost _ | .stopRead _ | .stopWrite _ | .stopWait _
  | .unrecognized _ _ | .respond _ _ _ | .kill _ _ _ => 1
  | _ => 0

def commands (s : State) : ℕ :=
  syncCommands s.sync + slotCommands s.slot + handlerCommands s.handler +
    s.toSlave.count .command + s.toMaster.count .response + s.wake.count .response

def SyncOk (x : Exchange) : SyncPc → Prop
  | .write _ => x.Fresh
  | .kill _ => x.Requested
  | _ => True

def SlotOk (x : Exchange) : Pc → Prop
  | .sendWrite _ => x.Fresh
  | .sendKill _ => x.Requested
  | .requestErrors signal | .getvalueSToM signal | .getvalueMToS signal =>
    signal = .response → x.Delivered
  | .responseConnected | .responseSwitch _ => x.Delivered
  | .responseValue isConnected request =>
    x.Delivered ∧ request = x.request ∧
      (isConnected = false → request = .connectSlave ∨ request = .changeSlaveName)
  | .mustChangeName request _ | .setConnected request _ =>
    request = .connectSlave ∨ request = .changeSlaveName
  | .forward request response k =>
    request ≠ .connectSlave → request ≠ .changeSlaveName → (k, request, response) ∈ x.runs
  | .resetMemset k => x.parked ∧ x.gone ∧ ∀ i, k = some i → (i, .disconnectSlave, .ack) ∈ x.runs
  | .resetInit k | .resetDrainMToS k | .resetPostMToS k | .resetDrainSToM k
  | .resetPostSToM k | .resetAnswer k => ∀ i, k = some i → (i, .disconnectSlave, .ack) ∈ x.runs
  | _ => True

def HandlerOk (x : Exchange) : HandlerPc → Prop
  | .firstSignalEverSetup signal | .getvalueSToM signal | .getvalueMToS signal =>
    signal = .command → x.Requested
  | .requestSwitch _ => x.Requested
  | .connect k => x.Serving k .connectSlave
  | .disconnect k => x.Serving k .disconnectSlave ∧ x.parked
  | .changeName k => x.Serving k .changeSlaveName
  | .startRead k | .startWrite k | .startPost k => x.Serving k .startSlaveCycle
  | .stopRead k | .stopWrite k | .stopWait k => x.Serving k .stopSlaveCycle
  | .unrecognized request k => x.Serving k request ∧ request ≠ .disconnectSlave
  | .respond request response k =>
    x.Serving k request ∧ (response = .ack ∨ response = .nack) ∧
      (request = .disconnectSlave → x.parked)
  | .kill request _ _ => x.Answered ∧ request = x.request
  | _ => True

structure CommandInv (p q : Prop) (s : State) : Prop where
  budget : s.seg.semMToSRequest + commands s ≤ 1
  sync : SyncOk (exchange p q s) s.sync
  slot : SlotOk (exchange p q s) s.slot
  handler : HandlerOk (exchange p q s) s.handler
  toSlave : .command ∈ s.toSlave → (exchange p q s).Requested
  toMaster : .response ∈ s.toMaster → (exchange p q s).Delivered
  wake : .response ∈ s.wake → (exchange p q s).Delivered
  nodup : s.history.dispatched.Nodup
  dispatched : ∀ k ∈ s.history.dispatched, k ≤ s.history.acquired

/-- Nobody takes a signal for a command or for its answer that was sent for
something else. -/
def commandsDecoded (s : State) : Event → Bool
  | .handler =>
    match s.handler with
    | .getvalueMToS signal => s.seg.semMToSRequest ≠ 0 ∨ signal = .command
    | _ => true
  | .slot _ =>
    match s.slot with
    | .getvalueMToS signal => s.seg.semMToSRequest ≠ 0 ∨ signal = .response
    | _ => true
  | _ => true

/-- A DISCONNECT is taken up only while the communication cycle is parked. -/
def disconnectsParked (s : State) : Event → Bool
  | .handler =>
    match s.handler with
    | .requestSwitch _ =>
      s.seg.reqMToS = .disconnectSlave →
        s.cycle = .semWaitAllow ∧ s.self.allowCommunicationCycle = 0
    | _ => true
  | _ => true

/-- A slave without a segment looks for one only on a command. -/
def segmentsFoundByCommands (pid : Pid) (s : State) : Event → Bool
  | .handler =>
    match s.handler with
    | .firstSignalEverSetup signal =>
      s.self.shmseg = false → s.seg.pid = pid → signal = .command
    | _ => true
  | _ => true

structure Admitted (p q : Prop) (pid : Pid) (s : State) (e : Event) : Prop where
  decoded : commandsDecoded s e = true
  parked : p → disconnectsParked s e = true
  found : q → segmentsFoundByCommands pid s e = true

theorem SyncOk.mono {x y : Exchange} {pc : SyncPc} (h : SyncOk x pc) (hle : x.Le y) :
    SyncOk y pc := by
  cases pc with
  | write request =>
    unfold SyncOk Exchange.Fresh at *
    rwa [hle.acquired, hle.dispatched]
  | kill request => exact hle.requested h
  | _ => trivial

theorem SlotOk.mono {x y : Exchange} {pc : Pc} (h : SlotOk x pc) (hle : x.Le y) :
    SlotOk y pc := by
  cases pc with
  | sendWrite request =>
    unfold SlotOk Exchange.Fresh at *
    rwa [hle.acquired, hle.dispatched]
  | sendKill request => exact hle.requested h
  | requestErrors signal | getvalueSToM signal | getvalueMToS signal =>
    exact fun hr ↦ hle.delivered (h hr)
  | responseConnected | responseSwitch isConnected => exact hle.delivered h
  | responseValue isConnected request =>
    exact ⟨hle.delivered h.1, h.2.1.trans hle.request.symm, h.2.2⟩
  | mustChangeName request k | setConnected request k => exact h
  | resetMemset k => exact ⟨hle.parked h.1, hle.gone h.2.1, hle.runs ▸ h.2.2⟩
  | forward request response k | resetInit k | resetDrainMToS k | resetPostMToS k
  | resetDrainSToM k | resetPostSToM k | resetAnswer k =>
    unfold SlotOk at *
    rwa [hle.runs]
  | _ => trivial

theorem HandlerOk.mono {x y : Exchange} {pc : HandlerPc} (h : HandlerOk x pc) (hle : x.Le y) :
    HandlerOk y pc := by
  cases pc with
  | firstSignalEverSetup signal | getvalueSToM signal | getvalueMToS signal =>
    exact fun hr ↦ hle.requested (h hr)
  | requestSwitch signal => exact hle.requested h
  | disconnect k => exact ⟨hle.serving h.1, hle.parked h.2⟩
  | connect k | changeName k | startRead k | startWrite k | startPost k | stopRead k
  | stopWrite k | stopWait k => exact hle.serving h
  | unrecognized request k => exact ⟨hle.serving h.1, h.2⟩
  | respond request response k => exact ⟨hle.serving h.1, h.2.1, fun hr ↦ hle.parked (h.2.2 hr)⟩
  | kill request response k => exact ⟨hle.answered h.1, h.2.trans hle.request.symm⟩
  | _ => trivial

theorem syncOk_of_idle {x : Exchange} {pc : SyncPc} (h : syncCommands pc = 0) : SyncOk x pc := by
  cases pc <;> simp_all [syncCommands, SyncOk]

theorem handlerOk_of_idle {x : Exchange} {pc : HandlerPc} (h : handlerCommands pc = 0) :
    HandlerOk x pc := by
  cases pc <;> simp_all [handlerCommands, HandlerOk]

theorem slotOk_of_idle {x y : Exchange} {pc : Pc} (h : slotCommands pc = 0)
    (hx : SlotOk x pc) (hr : x.runs ⊆ y.runs) : SlotOk y pc := by
  cases pc <;> simp_all [slotCommands, SlotOk]
  all_goals exact fun i hi ↦ hr (hx i hi)

/-- The words of a command and the semaphore that guards them. -/
structure SameCommand (a b : Shmseg) : Prop where
  reqMToS : a.reqMToS = b.reqMToS
  resSToM : a.resSToM = b.resSToM
  semMToSRequest : a.semMToSRequest = b.semMToSRequest

theorem SameCommand.refl (seg : Shmseg) : SameCommand seg seg := ⟨rfl, rfl, rfl⟩

theorem CommandInv.slot_move {s : State} (h : CommandInv p q s) (seg : Shmseg) (pc : Pc)
    (hrequest : seg.reqMToS = s.seg.reqMToS) (hresponse : seg.resSToM = s.seg.resSToM)
    (hbudget : seg.semMToSRequest + slotCommands pc ≤ s.seg.semMToSRequest + slotCommands s.slot)
    (hok : SlotOk (exchange p q s) pc) : CommandInv p q { s with seg := seg, slot := pc } := by
  have hx : exchange p q { s with seg := seg, slot := pc } = exchange p q s := by
    simp only [exchange, hrequest, hresponse, Parked, Gone]
  have hb := h.budget
  refine ⟨?_, ?_, ?_, ?_, ?_, ?_, ?_, h.nodup, h.dispatched⟩
  · simp only [commands] at hb ⊢
    omega
  all_goals rw [hx]
  · exact h.sync
  · exact hok
  · exact h.handler
  · exact h.toSlave
  · exact h.toMaster
  · exact h.wake

/-- Nobody but the slot thread has a part in an open command. -/
structure SlotAlone (s : State) : Prop where
  sync : syncCommands s.sync = 0
  handler : handlerCommands s.handler = 0
  toSlave : .command ∉ s.toSlave
  toMaster : .response ∉ s.toMaster
  wake : .response ∉ s.wake
  nodup : s.history.dispatched.Nodup
  dispatched : ∀ k ∈ s.history.dispatched, k ≤ s.history.acquired

theorem CommandInv.slotAlone {s : State} (h : CommandInv p q s)
    (hs : 0 < s.seg.semMToSRequest + slotCommands s.slot) : SlotAlone s := by
  have hb := h.budget
  simp only [commands] at hb
  refine ⟨by omega, by omega, ?_, ?_, ?_, h.nodup, h.dispatched⟩
  all_goals
    rw [← List.count_eq_zero]
    omega

theorem SlotAlone.inv {s : State} (h : SlotAlone s)
    (hb : s.seg.semMToSRequest + slotCommands s.slot ≤ 1)
    (hok : SlotOk (exchange p q s) s.slot) : CommandInv p q s := by
  refine ⟨?_, syncOk_of_idle h.sync, hok, handlerOk_of_idle h.handler, ?_, ?_, ?_, h.nodup,
    h.dispatched⟩
  · rw [commands, h.sync, h.handler, List.count_eq_zero.mpr h.toSlave,
      List.count_eq_zero.mpr h.toMaster, List.count_eq_zero.mpr h.wake]
    omega
  · exact fun hm ↦ absurd hm h.toSlave
  · exact fun hm ↦ absurd hm h.toMaster
  · exact fun hm ↦ absurd hm h.wake

theorem CommandInv.slot_jump {s : State} {mustChange : Bool} {pc : Pc} (h : CommandInv p q s)
    (hdecoded : commandsDecoded s (.slot mustChange) = true)
    (hjump : Jump s.history.acquired mustChange true s.seg s.slot pc) :
    CommandInv p q { s with slot := pc } := by
  have hslot := h.slot
  have hmove (hc : slotCommands pc ≤ slotCommands s.slot) (hok : SlotOk (exchange p q s) pc) :
      CommandInv p q { s with slot := pc } :=
    h.slot_move s.seg pc rfl rfl (Nat.add_le_add_left hc _) hok
  cases hjump with
  | connectUnsent hpc hkill | renameUnsent hpc hkill => cases hkill
  | requestExcluded hpc hpos =>
    simp only [hpc, SlotOk] at hslot
    exact hmove (by rw [hpc]; exact le_rfl) hslot
  | responseDecoded hpc hzero =>
    simp only [hpc, SlotOk, commandsDecoded, decide_eq_true_eq] at hslot hdecoded
    have hresponse := hdecoded.resolve_left (not_not_intro hzero)
    exact hmove (by simp [hpc, slotCommands, hresponse]) (hslot hresponse)
  | connectedRead hpc =>
    simp only [hpc, SlotOk] at hslot
    exact hmove (by rw [hpc]; exact le_rfl) hslot
  | responseRecognized hpc hrequest =>
    simp only [hpc, SlotOk] at hslot
    exact hmove (by rw [hpc]; exact le_rfl) ⟨hslot, rfl, hrequest⟩
  | responseNack hpc hresponse =>
    simp only [hpc, SlotOk] at hslot
    obtain ⟨⟨⟨hrun, hres, -⟩, -⟩, hreq, -⟩ := hslot
    have hnack : s.seg.resSToM = .nack := hres.resolve_left hresponse
    rw [← hreq] at hrun
    simp only [exchange, hnack] at hrun
    exact hmove (by rw [hpc]; exact le_rfl) fun _ _ ↦ hrun
  | responseAck hpc hack =>
    simp only [hpc, SlotOk] at hslot
    obtain ⟨⟨⟨hrun, -, -⟩, -⟩, hreq, -⟩ := hslot
    rw [← hreq] at hrun
    simp only [exchange, hack] at hrun
    exact hmove (by rw [hpc]; exact le_rfl) fun _ _ ↦ hrun
  | disconnected hpc hack =>
    simp only [hpc, SlotOk] at hslot
    obtain ⟨⟨⟨hrun, -, hparked⟩, hgone⟩, hreq, -⟩ := hslot
    rw [← hreq] at hrun
    simp only [exchange, hack] at hrun
    refine hmove (by rw [hpc]; exact le_rfl) ⟨hparked hreq.symm, hgone hreq.symm, ?_⟩
    intro i hi
    rwa [← Option.some.inj hi]
  | nameOffered hpc hack =>
    simp only [hpc, SlotOk] at hslot
    exact hmove (by rw [hpc]; exact le_rfl) (hslot.2.2 trivial)
  | nameFree hpc | drainedMToS hpc | drainedSToM hpc =>
    simp only [hpc, SlotOk] at hslot
    exact hmove (by rw [hpc]; exact le_rfl) hslot
  | _ hpc => exact hmove (by simp [hpc, slotCommands]) trivial

theorem slotStep_inv {pid : Pid} {s t : State} {mustChange : Bool} (h : CommandInv p q s)
    (hok : Admitted p q pid s (.slot mustChange)) (hs : slotStep mustChange s = some t) :
    CommandInv p q t := by
  obtain ⟨v, effect, hmove, rfl⟩ := slotStep_move hs
  have hb := h.budget
  have hslot := h.slot
  have hdecoded := hok.decoded
  cases hmove with
  | jumped hjump => exact h.slot_jump hdecoded hjump
  | acquired hpc hpos =>
    obtain ⟨h₁, h₂, h₃, h₄, h₅, hnodup, hle⟩ := h.slotAlone (by omega)
    refine SlotAlone.inv ⟨h₁, h₂, h₃, h₄, h₅, hnodup, ?_⟩ ?_ ?_
    · exact fun k hk ↦ (hle k hk).trans (Nat.le_succ _)
    · dsimp only [State.effect, slotCommands]
      omega
    · exact fun hmem ↦ absurd (hle _ hmem) (Nat.not_succ_le_self _)
  | requested hpc =>
    simp only [hpc, SlotOk] at hslot
    obtain ⟨h₁, h₂, h₃, h₄, h₅, hnodup, hle⟩ := h.slotAlone (by simp [hpc, slotCommands])
    refine SlotAlone.inv ⟨h₁, h₂, h₃, h₄, h₅, hnodup, hle⟩ ?_ ⟨rfl, hslot⟩
    simp only [commands, hpc, slotCommands] at hb
    dsimp only [State.effect, slotCommands]
    omega
  | zeroed hpc =>
    simp only [hpc, SlotOk] at hslot
    obtain ⟨h₁, h₂, h₃, h₄, h₅, hnodup, hle⟩ := h.slotAlone (by simp [hpc, slotCommands])
    exact SlotAlone.inv ⟨h₁, h₂, h₃, h₄, h₅, hnodup, hle⟩ le_rfl hslot.2.2
  | sent hpc hkill =>
    simp only [commands, hpc, slotCommands, SlotOk] at hb hslot
    refine ⟨?_, h.sync, trivial, h.handler, fun _ ↦ hslot, h.toMaster, h.wake, h.nodup,
      h.dispatched⟩
    simp only [State.effect, commands, slotCommands, List.count_append,
      List.count_singleton_self]
    omega
  | woken hpc hwake =>
    have hanswer := h.wake
    simp only [commands, hpc, slotCommands, hwake, List.count_cons, beq_iff_eq,
      List.mem_cons] at hb hanswer
    refine ⟨?_, h.sync, fun hr ↦ hanswer (.inl hr.symm), h.handler, h.toSlave, h.toMaster,
      fun hm ↦ hanswer (.inr hm), h.nodup, h.dispatched⟩
    simp only [State.effect, commands, slotCommands]
    omega
  | errorsHandled hpc herrors =>
    have hseg := SameControl.of_errors herrors
    simp only [hpc, SlotOk] at hslot
    refine h.slot_move _ _ hseg.reqMToS hseg.resSToM ?_ hslot
    rw [hseg.semMToSRequest, hpc]
    exact le_rfl
  | received hpc =>
    rename_i signal
    have hseg := receiveParameters_sameControl s.seg
    have hmoved := h.slot_move (receiveParameters s.seg).1 (.requestAck signal)
      hseg.reqMToS hseg.resSToM (by simp [hseg.semMToSRequest, hpc, slotCommands]) trivial
    cases signal
    all_goals
      exact ⟨hmoved.budget, hmoved.sync, hmoved.slot, hmoved.handler, hmoved.toSlave,
        hmoved.toMaster, hmoved.wake, hmoved.nodup, hmoved.dispatched⟩
  | acknowledgeSent hpc =>
    simp only [commands, hpc, slotCommands] at hb
    refine ⟨?_, h.sync, trivial, h.handler, ?_, h.toMaster, h.wake, h.nodup, h.dispatched⟩
    · simpa [State.effect, commands, slotCommands, List.count_append] using hb
    · exact fun hm ↦ h.toSlave (by simpa [State.effect] using hm)
  | connected hpc =>
    simp only [hpc, SlotOk] at hslot
    refine h.slot_move _ _ rfl rfl (by rw [hpc]; rfl) ?_
    rcases hslot with rfl | rfl <;> simp [SlotOk]
  | initialized hpc | postedMToS hpc | postedSToM hpc =>
    simp only [hpc, SlotOk] at hslot
    exact h.slot_move _ _ rfl rfl (by simp [hpc, slotCommands]) hslot
  | loweredMToS hpc hpos => exact h.slot_move _ _ rfl rfl (by simp) hslot
  | loweredSToM hpc hpos => exact h.slot_move _ _ rfl rfl le_rfl hslot
  | _ hpc => exact h.slot_move _ _ rfl rfl (by simp [hpc, slotCommands]) trivial

theorem syncStep_inv {pid : Pid} {request : Request} {s t : State} (h : CommandInv p q s)
    (hs : syncStep pid request s = some t) : CommandInv p q t := by
  have hb := h.budget
  have hsync := h.sync
  simp only [commands] at hb
  have hidle {pc : SyncPc} (hold : syncCommands s.sync = 0) (hnew : syncCommands pc = 0) :
      CommandInv p q { s with sync := pc } := by
    refine ⟨?_, syncOk_of_idle hnew, h.slot, h.handler, h.toSlave, h.toMaster, h.wake, h.nodup,
      h.dispatched⟩
    simp only [commands, hnew]
    omega
  have halone (hm : 0 < s.seg.semMToSRequest + syncCommands s.sync) :
      slotCommands s.slot = 0 ∧ handlerCommands s.handler = 0 ∧ .command ∉ s.toSlave ∧
        .response ∉ s.toMaster ∧ .response ∉ s.wake := by
    refine ⟨by omega, by omega, ?_, ?_, ?_⟩
    all_goals
      rw [← List.count_eq_zero]
      omega
  have hnone {pc : SyncPc} (hpc : pc.holding = false) : syncCommands pc = 0 := by
    cases pc <;> first | rfl | cases hpc
  cases syncStep_move hs with
  | moved hold hnew => exact hidle (hnone hold) (hnone hnew)
  | claimed hold hfree hexited =>
    have hlookup := hnone hold
    have hslot : slotCommands s.slot = 0 := by rw [hexited]; rfl
    refine ⟨?_, trivial, trivial, h.handler, h.toSlave, h.toMaster, h.wake, h.nodup,
      h.dispatched⟩
    simp only [commands, slotCommands, syncCommands]
    omega
  | acquired hold hpos =>
    have hlookup := hnone hold
    obtain ⟨h₁, h₂, h₃, h₄, h₅⟩ := halone (by omega)
    refine ⟨?_, ?_, slotOk_of_idle h₁ h.slot (List.Subset.refl _), handlerOk_of_idle h₂,
      fun hm ↦ absurd hm h₃, fun hm ↦ absurd hm h₄, fun hm ↦ absurd hm h₅, h.nodup, ?_⟩
    · simp only [commands, syncCommands]
      omega
    · intro hmem
      exact absurd (h.dispatched _ hmem) (Nat.not_succ_le_self _)
    · intro k hk
      exact (h.dispatched k hk).trans (Nat.le_succ _)
  | written hpc =>
    simp only [hpc, SyncOk] at hsync
    obtain ⟨h₁, h₂, h₃, h₄, h₅⟩ := halone (by simp [hpc, syncCommands])
    refine ⟨?_, ⟨rfl, hsync⟩, slotOk_of_idle h₁ h.slot (List.Subset.refl _),
      handlerOk_of_idle h₂, fun hm ↦ absurd hm h₃, fun hm ↦ absurd hm h₄,
      fun hm ↦ absurd hm h₅, h.nodup, h.dispatched⟩
    simpa only [commands, hpc, syncCommands] using hb
  | killed hpc =>
    simp only [hpc, SyncOk] at hsync
    refine ⟨?_, trivial, h.slot, h.handler, fun _ ↦ hsync, h.toMaster, h.wake, h.nodup,
      h.dispatched⟩
    simp only [hpc, syncCommands] at hb
    simp only [commands, syncCommands, List.count_append, List.count_singleton_self]
    omega

theorem CommandInv.handler_move {s : State} (h : CommandInv p q s) (seg : Shmseg)
    (self : SlaveContext) (posted : List ℕ) (pc : HandlerPc)
    (hseg : SameCommand seg s.seg)
    (hallow : self.allowCommunicationCycle ≤ s.self.allowCommunicationCycle)
    (hpointer : self.shmseg = true → s.self.shmseg = true ∧ s.handler ≠ .clearPointer)
    (hc : handlerCommands pc ≤ handlerCommands s.handler)
    (hok : HandlerOk (exchange p q s) pc) :
    CommandInv p q { s with
      seg := seg
      self := self
      history.posted := posted
      handler := pc } := by
  have hle : (exchange p q s).Le (exchange p q { s with
      seg := seg
      self := self
      history.posted := posted
      handler := pc }) := by
    refine ⟨rfl, rfl, hseg.reqMToS, hseg.resSToM, rfl, rfl, fun hp hp' ↦ ?_, fun hg hq ↦ ?_⟩
    · exact ⟨(hp hp').1, Nat.le_zero.mp (hallow.trans (hp hp').2.le)⟩
    · refine .inr (Bool.eq_false_iff.mpr fun hptr ↦ ?_)
      obtain ⟨hptr', hne⟩ := hpointer hptr
      rcases hg hq with hclear | hnull
      · exact hne hclear
      · exact Bool.false_ne_true (hnull.symm.trans hptr')
  have hb := h.budget
  refine ⟨?_, h.sync.mono hle, h.slot.mono hle, hok.mono hle, fun hm ↦ hle.requested (h.toSlave hm),
    fun hm ↦ hle.delivered (h.toMaster hm), fun hm ↦ hle.delivered (h.wake hm), h.nodup,
    h.dispatched⟩
  simp only [commands, hseg.semMToSRequest] at hb ⊢
  omega

theorem CommandInv.handler_serve {s : State} (h : CommandInv p q s) (seg : Shmseg)
    (self : SlaveContext) (history : History) (pc : HandlerPc)
    (hold : handlerCommands s.handler = 1) (hnew : handlerCommands pc ≤ 1)
    (hm : seg.semMToSRequest = s.seg.semMToSRequest) (hruns : s.history.runs ⊆ history.runs)
    (hnodup : history.dispatched.Nodup)
    (hdispatched : ∀ k ∈ history.dispatched, k ≤ history.acquired)
    (hok : HandlerOk
      (exchange p q { s with seg := seg, self := self, history := history, handler := pc }) pc) :
    CommandInv p q { s with seg := seg, self := self, history := history, handler := pc } := by
  have hb := h.budget
  simp only [commands, hold] at hb
  have hsync : syncCommands s.sync = 0 := by omega
  have hslot : slotCommands s.slot = 0 := by omega
  have hslave : .command ∉ s.toSlave := by rw [← List.count_eq_zero]; omega
  have hmaster : .response ∉ s.toMaster := by rw [← List.count_eq_zero]; omega
  have hwake : .response ∉ s.wake := by rw [← List.count_eq_zero]; omega
  refine ⟨?_, syncOk_of_idle hsync, slotOk_of_idle hslot h.slot hruns, hok,
    fun hm ↦ absurd hm hslave, fun hm ↦ absurd hm hmaster, fun hm ↦ absurd hm hwake, hnodup,
    hdispatched⟩
  simp only [commands, hm]
  omega

theorem CommandInv.dead {s : State} (h : CommandInv p q s) :
    CommandInv p q { s with alive := false } :=
  ⟨h.budget, h.sync, h.slot, h.handler, h.toSlave, h.toMaster, h.wake, h.nodup, h.dispatched⟩

theorem CommandInv.handler_served {s : State} {self : SlaveContext} {seg : Shmseg}
    {pc : HandlerPc} (h : CommandInv p q s) (hserve : Serve s self seg pc) :
    CommandInv p q { s with self := self, seg := seg, handler := pc } := by
  have hh := h.handler
  have hframe := hserve.frame
  have hmove (hne : s.handler ≠ .clearPointer)
      (hallow : self.allowCommunicationCycle ≤ s.self.allowCommunicationCycle)
      (hc : handlerCommands pc ≤ handlerCommands s.handler)
      (hok : HandlerOk (exchange p q s) pc) :
      CommandInv p q { s with self := self, seg := seg, handler := pc } :=
    h.handler_move seg self s.history.posted pc
      ⟨hframe.reqMToS, hframe.resSToM, hframe.semMToSRequest⟩ hallow
      (fun hptr ↦ ⟨hframe.pointer ▸ hptr, hne⟩) hc hok
  cases hserve with
  | connect hpc =>
    simp only [hpc, HandlerOk] at hh
    exact hmove (by simp [hpc]) le_rfl (by rw [hpc]; exact le_rfl) ⟨hh, .inl rfl, by simp⟩
  | disconnect hpc =>
    simp only [hpc, HandlerOk] at hh
    exact hmove (by simp [hpc]) le_rfl (by rw [hpc]; exact le_rfl)
      ⟨hh.1, .inl rfl, fun _ ↦ hh.2⟩
  | changeName hpc =>
    simp only [hpc, HandlerOk] at hh
    refine hmove (by simp [hpc]) (handleChangeName_allow s.self s.seg).le
      (by rw [hpc]; exact le_rfl) ⟨hh, handleChangeName_response s.self s.seg, by simp⟩
  | alreadyStarted hpc | alreadyStopped hpc =>
    simp only [hpc, HandlerOk] at hh
    exact hmove (by simp [hpc]) le_rfl (by rw [hpc]; exact le_rfl) ⟨hh, .inr rfl, by simp⟩
  | starting hpc | startWritten hpc | stopping hpc | stopWritten hpc =>
    simp only [hpc, HandlerOk] at hh
    exact hmove (by simp [hpc]) le_rfl (by rw [hpc]; exact le_rfl) hh
  | startPosted hpc =>
    simp only [hpc, HandlerOk] at hh
    exact h.handler_serve _ _ _ _ (by rw [hpc]; rfl) le_rfl rfl (List.Subset.refl _) h.nodup
      h.dispatched ⟨hh, .inl rfl, by simp⟩
  | stopped hpc =>
    simp only [hpc, HandlerOk] at hh
    exact hmove (by simp [hpc]) (Nat.sub_le _ _) (by rw [hpc]; exact le_rfl)
      ⟨hh, .inl rfl, by simp⟩
  | unrecognized hpc =>
    simp only [hpc, HandlerOk] at hh
    exact hmove (by simp [hpc]) le_rfl (by rw [hpc]; exact le_rfl)
      ⟨hh.1, .inr rfl, fun hd ↦ absurd hd hh.2⟩

theorem handlerStep_inv {pid : Pid} {s t : State} (h : CommandInv p q s)
    (hok : Admitted p q pid s .handler) (hs : handlerStep pid s = some t) :
    CommandInv p q t := by
  have hb := h.budget
  have hh := h.handler
  simp only [commands] at hb
  have hmove {pc : HandlerPc} (hne : s.handler ≠ .clearPointer)
      (hc : handlerCommands pc ≤ handlerCommands s.handler)
      (hok : HandlerOk (exchange p q s) pc) : CommandInv p q { s with handler := pc } :=
    h.handler_move s.seg s.self s.history.posted pc (.refl _) le_rfl (fun hptr ↦ ⟨hptr, hne⟩) hc
      hok
  cases handlerStep_move hs with
  | crashed => exact h.dead
  | received hpc hsignals =>
    rename_i signal toSlave
    have hcommand := h.toSlave
    simp only [hpc, handlerCommands, hsignals, List.count_cons, beq_iff_eq,
      List.mem_cons] at hb hcommand
    have hle : (exchange p q s).Le (exchange p q { s with
        toSlave := toSlave
        handler := .firstSignalEverSetup signal }) := by
      refine ⟨rfl, rfl, rfl, rfl, rfl, rfl, id, fun hg hq ↦ ?_⟩
      exact .inr ((hg hq).resolve_left (by simp [hpc]))
    refine ⟨?_, h.sync.mono hle, h.slot.mono hle, fun hc ↦ ?_, fun hm ↦ ?_,
      fun hm ↦ hle.delivered (h.toMaster hm), fun hm ↦ hle.delivered (h.wake hm), h.nodup,
      h.dispatched⟩
    · simp only [commands, handlerCommands]
      omega
    · exact hle.requested (hcommand (.inl hc.symm))
    · exact hle.requested (hcommand (.inr hm))
  | attached hpc hptr =>
    simp only [hpc, HandlerOk] at hh
    exact hmove (by simp [hpc]) (by rw [hpc]; exact le_rfl) hh
  | found hpc hptr hpid =>
    rename_i signal
    simp only [hpc, HandlerOk] at hh
    by_cases hcommand : signal = .command
    · refine h.handler_serve _ _ _ _ ?_ ?_ rfl (List.Subset.refl _) h.nodup h.dispatched hh
      · simp [hpc, handlerCommands, hcommand]
      · simp [handlerCommands, hcommand]
    · have hq : ¬ q := by
        have hfound := hok.found
        simp_all [segmentsFoundByCommands]
      have hle : (exchange p q s).Le (exchange p q { s with
          self.shmseg := true
          handler := .getvalueSToM signal }) :=
        ⟨rfl, rfl, rfl, rfl, rfl, rfl, id, fun _ hq' ↦ absurd hq' hq⟩
      refine ⟨?_, h.sync.mono hle, h.slot.mono hle, fun hc ↦ absurd hc hcommand,
        fun hm ↦ hle.requested (h.toSlave hm), fun hm ↦ hle.delivered (h.toMaster hm),
        fun hm ↦ hle.delivered (h.wake hm), h.nodup, h.dispatched⟩
      simp only [commands, handlerCommands, if_neg hcommand]
      omega
  | responseExcluded hpc =>
    simp only [hpc, HandlerOk] at hh
    exact hmove (by simp [hpc]) (by rw [hpc]; exact le_rfl) hh
  | requestDecoded hpc hzero =>
    have hdecoded := hok.decoded
    simp only [hpc, HandlerOk, commandsDecoded, decide_eq_true_eq] at hh hdecoded
    have hcommand := hdecoded.resolve_left (not_not_intro hzero)
    exact hmove (by simp [hpc]) (by simp [hpc, handlerCommands, hcommand]) (hh hcommand)
  | unassigned hpc | responseDecoded hpc | nothingUnhandled hpc | responseRead hpc =>
    exact hmove (by simp [hpc]) (Nat.zero_le _) trivial
  | responsePosted hpc =>
    exact h.handler_move _ _ _ _ ⟨rfl, rfl, rfl⟩ le_rfl (fun hptr ↦ ⟨hptr, by simp [hpc]⟩)
      (Nat.zero_le _) trivial
  | dispatched hpc hdispatch hdispatched =>
    simp only [hpc, HandlerOk] at hh
    refine h.handler_serve _ _ _ _ (by rw [hpc]; rfl) ?_ rfl (List.Subset.refl _) ?_ ?_ ?_
    · cases hdispatch <;> exact le_rfl
    · rcases hdispatched with ⟨rfl, -⟩ | rfl
      · exact List.nodup_cons.mpr ⟨hh.2, h.nodup⟩
      · exact h.nodup
    · rcases hdispatched with ⟨rfl, -⟩ | rfl
      · exact List.forall_mem_cons.mpr ⟨le_rfl, h.dispatched⟩
      · exact h.dispatched
    · cases hdispatch with
      | disconnect hrequest =>
        have hparked := hok.parked
        simp only [hpc, disconnectsParked, hrequest, forall_const, decide_eq_true_eq] at hparked
        exact ⟨⟨hh.1, hh.1, hrequest.symm⟩, hparked⟩
      | unrecognized hrequest => exact ⟨⟨hh.1, hh.1, rfl⟩, hrequest⟩
      | connect hrequest | changeName hrequest | start hrequest | stop hrequest =>
        exact ⟨hh.1, hh.1, hrequest.symm⟩
  | served hserve => exact h.handler_served hserve
  | responded hpc =>
    simp only [hpc, HandlerOk] at hh
    obtain ⟨⟨hwritten, rfl, rfl⟩, hresponse, hparked⟩ := hh
    exact h.handler_serve _ _ _ _ (by rw [hpc]; rfl) le_rfl rfl (List.subset_cons_self _ _)
      h.nodup h.dispatched ⟨⟨List.mem_cons_self, hresponse, hparked⟩, rfl⟩
  | answered hpc =>
    rename_i request response k
    simp only [hpc, HandlerOk] at hh
    simp only [hpc, handlerCommands] at hb
    have hidle : handlerCommands
        (if request = .disconnectSlave then .clearPointer else .sigwaitinfo) = 0 := by
      split <;> rfl
    have hle : (exchange p q s).Le (exchange p q { s with
        toMaster := s.toMaster ++ [.response]
        handler := if request = .disconnectSlave then .clearPointer else .sigwaitinfo }) := by
      refine ⟨rfl, rfl, rfl, rfl, rfl, rfl, id, fun hg hq ↦ ?_⟩
      exact .inr ((hg hq).resolve_left (by simp [hpc]))
    refine ⟨?_, h.sync.mono hle, h.slot.mono hle, handlerOk_of_idle hidle,
      fun hm ↦ hle.requested (h.toSlave hm), fun _ ↦ ⟨hle.answered hh.1, fun hd _ ↦ .inl ?_⟩,
      fun hm ↦ hle.delivered (h.wake hm), h.nodup, h.dispatched⟩
    · simp only [commands, hidle, List.count_append, List.count_singleton_self]
      omega
    · exact if_pos (hh.2.trans hd)
  | cleared hpc =>
    exact h.handler_move _ _ _ _ (.refl _) le_rfl (fun hf ↦ absurd hf Bool.false_ne_true)
      (Nat.zero_le _) trivial

theorem deliverStep_inv {pid : Pid} {s t : State} (h : CommandInv p q s)
    (hs : deliverStep pid s = some t) : CommandInv p q t := by
  have hb := h.budget
  have hmaster := h.toMaster
  simp only [deliverStep] at hs
  split at hs
  · cases hs
  · rename_i signal toMaster hsignals
    simp only [commands, hsignals, List.count_cons, beq_iff_eq, List.mem_cons] at hb hmaster
    split_ifs at hs
    all_goals rw [← Option.some.inj hs]
    · refine ⟨?_, h.sync, h.slot, h.handler, h.toSlave, fun hm ↦ hmaster (.inr hm), ?_, h.nodup,
        h.dispatched⟩
      · simp only [commands, List.count_append, List.count_singleton, beq_iff_eq]
        omega
      · intro hm
        rcases List.mem_append.mp hm with hold | hnew
        · exact h.wake hold
        · exact hmaster (.inl (List.mem_singleton.mp hnew))
    · refine ⟨?_, h.sync, h.slot, h.handler, h.toSlave, fun hm ↦ hmaster (.inr hm), h.wake,
        h.nodup, h.dispatched⟩
      simp only [commands]
      omega

theorem cycleStep_parked {usleep : Bool} {rand : ℕ} {now : Timeval} {s t : State}
    (h : Parked s) (hs : cycleStep usleep rand now s = some t) : False := by
  simp [cycleStep, h.1, h.2] at hs

theorem cycleStep_inv {usleep : Bool} {rand : ℕ} {now : Timeval} {s t : State}
    (h : CommandInv p q s) (hs : cycleStep usleep rand now s = some t) : CommandInv p q t := by
  have hframe := cycleStep_frame hs
  have hle : (exchange p q s).Le (exchange p q t) := by
    refine ⟨hframe.acquired, hframe.written, hframe.reqMToS, hframe.resSToM, hframe.runs,
      hframe.dispatched, fun hp hp' ↦ absurd hs fun hs ↦ cycleStep_parked (hp hp') hs,
      fun hg hq ↦ ?_⟩
    unfold Gone
    rw [hframe.handler, hframe.pointer]
    exact hg hq
  have hcount : t.toMaster.count .response = s.toMaster.count .response := by
    rcases hframe.toMaster with heq | heq <;> simp [heq, List.count_append]
  have hmem : .response ∈ t.toMaster → .response ∈ s.toMaster := by
    simpa only [← List.count_pos_iff, hcount] using id
  have hb := h.budget
  refine ⟨?_, hframe.sync ▸ h.sync.mono hle, hframe.slot ▸ h.slot.mono hle,
    hframe.handler ▸ h.handler.mono hle, fun hm ↦ ?_, fun hm ↦ hle.delivered (h.toMaster (hmem hm)),
    fun hm ↦ hle.delivered (h.wake (hframe.wake ▸ hm)), hframe.dispatched ▸ h.nodup, ?_⟩
  · simp only [commands, hframe.sync, hframe.slot, hframe.handler, hframe.toSlave, hframe.wake,
      hcount, hframe.semMToSRequest] at hb ⊢
    exact hb
  · exact hle.requested (h.toSlave (hframe.toSlave ▸ hm))
  · rw [hframe.dispatched, hframe.acquired]
    exact h.dispatched

def Detaching (request : Request) : Pc → Prop
  | .getvalueMToS signal => signal = .response ∧ request = .disconnectSlave
  | .responseConnected | .responseSwitch _ | .responseValue _ _ => request = .disconnectSlave
  | .resetMemset _ => True
  | _ => False

theorem slotCommands_of_detaching {request : Request} {pc : Pc} (h : Detaching request pc) :
    slotCommands pc = 1 := by
  cases pc <;> simp_all [Detaching, slotCommands]

/-- A slave that has answered a DISCONNECT leaves its segment alone until the
master has reset it. -/
theorem CommandInv.detaching_parked {s : State} (h : CommandInv True q s)
    (hd : Detaching s.seg.reqMToS s.slot) : Parked s := by
  have hslot := h.slot
  cases hpc : s.slot with
  | getvalueMToS signal =>
    simp only [hpc, Detaching, SlotOk] at hd hslot
    exact (hslot hd.1).1.2.2 hd.2 trivial
  | responseConnected | responseSwitch isConnected =>
    simp only [hpc, Detaching, SlotOk] at hd hslot
    exact hslot.1.2.2 hd trivial
  | responseValue isConnected request =>
    simp only [hpc, Detaching, SlotOk] at hd hslot
    exact hslot.1.1.2.2 hd trivial
  | resetMemset k =>
    simp only [hpc, SlotOk] at hslot
    exact hslot.1 trivial
  | _ => simp [hpc, Detaching] at hd

theorem initial_inv (name : CString.Mem) (availableParameters : ℕ) :
    CommandInv p q (initial name availableParameters) := by
  refine ⟨?_, trivial, ?_, trivial, ?_, ?_, ?_, ?_, ?_⟩
  all_goals simp [initial, Shmseg.initial, commands, syncCommands, slotCommands,
    handlerCommands, SlotOk]

theorem step_inv {pid : Pid} {s t : State} {e : Event} (h : CommandInv p q s)
    (hok : Admitted p q pid s e) (hs : step pid s e = some t) : CommandInv p q t := by
  cases e with
  | configure requestedParameters communicationCycleUs =>
    rw [← Option.some.inj hs]
    exact ⟨h.budget, h.sync, h.slot, h.handler, h.toSlave, h.toMaster, h.wake, h.nodup,
      h.dispatched⟩
  | sync request => exact syncStep_inv h hs
  | slot mustChange => exact slotStep_inv h hok hs
  | deliver => exact deliverStep_inv h hs
  | handler =>
    obtain ⟨-, hs⟩ := Option.ite_none_right_eq_some.mp hs
    exact handlerStep_inv h hok hs
  | cycle usleep rand now =>
    obtain ⟨-, hs⟩ := Option.ite_none_right_eq_some.mp hs
    exact cycleStep_inv h hs

theorem reaches_inv {pid : Pid} {name : CString.Mem} {availableParameters : ℕ} {s : State}
    (h : Reaches (step pid) (Admitted p q pid) (initial name availableParameters) s) :
    CommandInv p q s :=
  h.invariant (initial_inv name availableParameters) fun _ _ _ ↦ step_inv

def Agreement (s : State) : Prop :=
  match s.slot with
  | .forward request response k =>
    request = .startSlaveCycle ∨ request = .stopSlaveCycle ∨ request = .disconnectSlave →
      (k, request, response) ∈ s.history.runs
  | .resetAnswer (some k) => (k, .disconnectSlave, .ack) ∈ s.history.runs
  | _ => True

theorem CommandInv.agreement {s : State} (h : CommandInv p q s) : Agreement s := by
  have hslot := h.slot
  unfold Agreement
  split
  · rename_i hpc
    simp only [hpc, SlotOk] at hslot
    rintro (rfl | rfl | rfl)
    · exact hslot (by simp) (by simp)
    · exact hslot (by simp) (by simp)
    · exact hslot (by simp) (by simp)
  · rename_i k hpc
    simp only [hpc, SlotOk] at hslot
    exact hslot k rfl
  · trivial

theorem agreement_of_decoded {pid : Pid} {name : CString.Mem} {availableParameters : ℕ}
    {s : State} (h : Reaches (step pid) (fun s e ↦ commandsDecoded s e = true)
      (initial name availableParameters) s) : Agreement s := by
  have hadmitted : Reaches (step pid) (Admitted False False pid)
      (initial name availableParameters) s := h.mono fun _ _ hok ↦ ⟨hok, False.elim, False.elim⟩
  exact (reaches_inv hadmitted).agreement

theorem start_forwarded : ∃ s, s.slot = .forward .startSlaveCycle .ack 2 ∧ Agreement s := by
  have hrun : (run (guarded (step 1000) fun s e ↦ commandsDecoded s e = true) (initial [97] 7)
      startRun.dropLast.dropLast.dropLast).map (·.slot) =
        some (.forward .startSlaveCycle .ack 2) := by
    decide +kernel
  obtain ⟨s, hs, hslot⟩ := Option.map_eq_some_iff.mp hrun
  exact ⟨s, hslot, agreement_of_decoded (.of_run hs)⟩

/-- A parameter request is sent, the STOP after it is taken for the answer to
it, and the parameter request is then taken for the answer to the STOP. -/
def misreadStop : List Event :=
  startRun ++ List.replicate 12 (Event.cycle true 0 ⟨0, 0⟩) ++
    List.replicate 5 (Event.sync .stopSlaveCycle) ++ List.replicate 5 Event.handler ++
    [Event.deliver] ++ List.replicate 7 (Event.slot false)

theorem stop_reported_unexecuted :
    ¬ ∀ s, Reaches (step 1000) unrestricted (initial [97] 7) s → Agreement s := by
  intro hall
  have hrun : (run (step 1000) (initial [97] 7) misreadStop).map
      (fun s ↦ (s.slot, s.history.runs)) =
      some (.forward .stopSlaveCycle .ack 3,
        [(2, .startSlaveCycle, .ack), (1, .connectSlave, .ack)]) := by decide +kernel
  obtain ⟨s, hs, hview⟩ := Option.map_eq_some_iff.mp hrun
  simp only [Prod.mk.injEq] at hview
  have hagree := hall s (.of_unrestricted_run hs)
  simp [Agreement, hview.1, hview.2] at hagree

end RealTimeCyclic.SlotCommand
