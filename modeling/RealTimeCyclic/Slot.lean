import RealTimeCyclic.Library.Transition
import RealTimeCyclic.Slave
import RealTimeCyclic.SlotThread

namespace RealTimeCyclic.Slot

open Shm Slave SlotThread

/-- `sync_signal_handler_thread` serving requests for this slot's slave. -/
inductive SyncPc
  | sigwaitinfo
  | lookup (request : Request)
  | checkCycle
  | semWait (request : Request)
  | write (request : Request)
  | kill (request : Request)
  -- the slot with index NO_IDX was addressed
  | fault
  deriving DecidableEq, Repr

/-- `signal_handler_thread` of the slave. In the handlers `k` is the command
whose code was read. -/
inductive HandlerPc
  | sigwaitinfo
  | firstSignalEverSetup (signal : Signal)
  | getvalueSToM (signal : Signal)
  | getvalueMToS (signal : Signal)
  -- handle_master_response
  | responseSwitch (signal : Signal)
  | responsePost (signal : Signal)
  -- handle_master_request
  | requestSwitch (signal : Signal)
  | connect (k : ℕ)
  | disconnect (k : ℕ)
  | changeName (k : ℕ)
  | startRead (k : ℕ)
  | startWrite (k : ℕ)
  | startPost (k : ℕ)
  | stopRead (k : ℕ)
  | stopWrite (k : ℕ)
  | stopWait (k : ℕ)
  | unrecognized (request : Request) (k : ℕ)
  | respond (request : Request) (response : Response) (k : ℕ)
  | kill (request : Request) (response : Response) (k : ℕ)
  | clearPointer
  deriving DecidableEq, Repr

/-- `slave_communication_cycle_detached_thread`, from `segment` to `kill` inside
`send_master_signal_master_parameter_request`. -/
inductive CyclePc
  | semWaitAllow
  | readCycle
  | usleep
  | store
  | calculate
  | postAllow
  | evaluate
  | segment (cycleUs : Int)
  | trywait (cycleUs segmentUs : Int) (threshold : ℕ)
  | getvalueAllow (cycleUs segmentUs : Int)
  | withdraw (cycleUs : Int)
  | writeRequest (cycleUs segmentUs : Int)
  | kill (cycleUs segmentUs : Int)
  deriving DecidableEq, Repr

/-- What the runs are judged by. No step depends on it. -/
structure History where
  acquired : ℕ := 0
  written : ℕ := 0
  runs : List (ℕ × Request × Response) := []
  dispatched : List ℕ := []
  taken : ℕ := 0
  handled : List ℕ := []
  withdrawn : List ℕ := []
  posted : List ℕ := []
  slept : List Usleep := []

structure State where
  seg : Shmseg
  self : SlaveContext
  alive : Bool
  sync : SyncPc
  slot : Pc
  wake : List Signal
  toMaster : List Signal
  toSlave : List Signal
  handler : HandlerPc
  cycle : CyclePc
  sleepUs : Int
  history : History

def initial (name : CString.Mem) (availableParameters : ℕ) : State where
  seg := .initial
  self := .initial name availableParameters
  alive := true
  sync := .sigwaitinfo
  slot := .exited
  wake := []
  toMaster := []
  toSlave := []
  handler := .sigwaitinfo
  cycle := .semWaitAllow
  sleepUs := errorNotSetCommunicationCycleMs
  history := {}

inductive Event
  | configure (requestedParameters : ℕ) (communicationCycleUs : Int)
  | sync (request : Request)
  | slot (mustChange : Bool)
  | deliver
  | handler
  | cycle (usleep : Bool) (rand : ℕ) (now : Timeval)
  deriving DecidableEq

/-- An access through `self.shmseg`; through a null pointer it ends the slave. -/
def State.deref (s t : State) : Option State :=
  if s.self.shmseg then some t else some { s with alive := false }

@[simp] def State.usleep (s : State) (us : Int) : State :=
  { s with history.slept := s.history.slept ++ [.call us] }

/-- `kill(slave_pid, SIGUSR1)` for a command always reaches the slave: a negative
or zero pid addresses it among others. A slot is only claimed here once its old thread has
returned, for which the program does not wait. -/
def syncStep (pid : Pid) (request : Request) (s : State) : Option State :=
  match s.sync with
  | .sigwaitinfo =>
    match request with
    | .connectSlave | .disconnectSlave | .startSlaveCycle | .stopSlaveCycle =>
      some { s with sync := .lookup request }
    | _ => none
  | .lookup .connectSlave =>
    if s.seg.pid = pid then some { s with sync := .sigwaitinfo }
    else if s.seg.pid = noPid ∧ s.slot = .exited then
      some { s with
        seg.pid := pid
        slot := .sendSemWait .connectSlave
        sync := .sigwaitinfo }
    else none
  | .lookup request =>
    if s.seg.pid = pid then
      if request = .startSlaveCycle then some { s with sync := .checkCycle }
      else some { s with sync := .semWait request }
    else if request = .disconnectSlave then some { s with sync := .fault }
    else some { s with sync := .sigwaitinfo }
  | .checkCycle =>
    if s.seg.communicationCycleUs = errorNotSetCommunicationCycleMs then
      some { s with sync := .sigwaitinfo }
    else some { s with sync := .semWait .startSlaveCycle }
  | .semWait request =>
    if 0 < s.seg.semMToSRequest then
      some { s with
        seg.semMToSRequest := s.seg.semMToSRequest - 1
        history.acquired := s.history.acquired + 1
        sync := .write request }
    else none
  | .write request =>
    some { s with
      seg.reqMToS := request
      history.written := s.history.acquired
      sync := .kill request }
  | .kill _ => some { s with toSlave := s.toSlave ++ [.command], sync := .sigwaitinfo }
  | .fault => none

def State.effect (s : State) : Effect → State
  | .silent => s
  | .acquired => { s with history.acquired := s.history.acquired + 1 }
  | .requested => { s with history.written := s.history.acquired }
  | .signalled signal => { s with toSlave := s.toSlave ++ [signal] }
  | .handled (.parameter k) => { s with history.handled := k :: s.history.handled }
  | .handled _ => s
  | .answered _ _ | .notified => s

/-- Every signal is delivered, so `kill` succeeds. -/
def slotStep (mustChange : Bool) (s : State) : Option State :=
  (SlotThread.step s.history.acquired mustChange true ⟨s.seg, s.slot, s.wake⟩).map
    fun (v, effect) ↦ { s with seg := v.seg, slot := v.pc, wake := v.wake }.effect effect

/-- `async_signal_handler` in the master. -/
def deliverStep (pid : Pid) (s : State) : Option State :=
  match s.toMaster with
  | [] => none
  | signal :: toMaster =>
    if s.seg.pid = pid then
      some { s with toMaster := toMaster, wake := s.wake ++ [signal] }
    else some { s with toMaster := toMaster }

def handlerStep (pid : Pid) (s : State) : Option State :=
  match s.handler with
  | .sigwaitinfo =>
    match s.toSlave with
    | [] => none
    | signal :: toSlave =>
      some { s with toSlave := toSlave, handler := .firstSignalEverSetup signal }
  | .firstSignalEverSetup signal =>
    if s.self.shmseg then some { s with handler := .getvalueSToM signal }
    else if s.seg.pid = pid then
      some { s with self.shmseg := true, handler := .getvalueSToM signal }
    else some { s with handler := .sigwaitinfo }
  | .getvalueSToM signal =>
    s.deref { s with
      handler := if s.seg.semSToMRequest = 0 then .responseSwitch signal
        else .getvalueMToS signal }
  | .getvalueMToS signal =>
    s.deref { s with
      handler := if s.seg.semMToSRequest = 0 then .requestSwitch signal else .sigwaitinfo }
  | .responseSwitch signal => s.deref { s with handler := .responsePost signal }
  | .responsePost _ =>
    s.deref { s with
      seg.semSToMRequest := s.seg.semSToMRequest + 1
      history.posted := s.history.taken :: s.history.posted
      handler := .sigwaitinfo }
  | .requestSwitch _ =>
    s.deref { s with
      history.dispatched :=
        if s.history.written = s.history.acquired ∧ s.seg.semMToSRequest = 0 then
          s.history.acquired :: s.history.dispatched
        else s.history.dispatched
      handler := match s.seg.reqMToS with
        | .connectSlave => .connect s.history.written
        | .disconnectSlave => .disconnect s.history.written
        | .changeSlaveName => .changeName s.history.written
        | .startSlaveCycle => .startRead s.history.written
        | .stopSlaveCycle => .stopRead s.history.written
        | request => .unrecognized request s.history.written }
  | .connect k =>
    s.deref { s with
      seg := handleConnectSlaveRequest s.self s.seg
      handler := .respond .connectSlave .ack k }
  | .disconnect k =>
    some { s with
      self := handleDisconnectSlaveRequest s.self
      handler := .respond .disconnectSlave .ack k }
  | .changeName k =>
    let (self, seg, response) := handleChangeNameSlaveRequest s.self s.seg
    s.deref { s with
      self := self
      seg := seg
      handler := .respond .changeSlaveName response k }
  | .startRead k =>
    s.deref (if s.seg.cycleStarted then
        { s with
          seg := setError ⟨"Slave cycle already started!", none⟩ s.seg
          handler := .respond .startSlaveCycle .nack k }
      else { s with handler := .startWrite k })
  | .startWrite k =>
    s.deref { s with seg.cycleStarted := true, handler := .startPost k }
  | .startPost k =>
    some { s with
      self.allowCommunicationCycle := s.self.allowCommunicationCycle + 1
      handler := .respond .startSlaveCycle .ack k }
  | .stopRead k =>
    s.deref (if s.seg.cycleStarted then { s with handler := .stopWrite k }
      else
        { s with
          seg := setError ⟨"Slave cycle already stopped!", none⟩ s.seg
          handler := .respond .stopSlaveCycle .nack k })
  | .stopWrite k =>
    s.deref { s with seg.cycleStarted := false, handler := .stopWait k }
  | .stopWait k =>
    if 0 < s.self.allowCommunicationCycle then
      some { s with
        self.allowCommunicationCycle := s.self.allowCommunicationCycle - 1
        handler := .respond .stopSlaveCycle .ack k }
    else none
  | .unrecognized request k =>
    s.deref { s with
      seg := setError ⟨"Unrecognized request received!", none⟩ s.seg
      handler := .respond request .nack k }
  | .respond request response k =>
    s.deref { s with
      seg.resSToM := response
      history.runs := (k, request, response) :: s.history.runs
      handler := .kill request response k }
  | .kill request _ _ =>
    some { s with
      toMaster := s.toMaster ++ [.response]
      handler := if request = .disconnectSlave then .clearPointer else .sigwaitinfo }
  | .clearPointer => some { s with self.shmseg := false, handler := .sigwaitinfo }

def cycleStep (usleep : Bool) (rand : ℕ) (now : Timeval) (s : State) : Option State :=
  match s.cycle with
  | .semWaitAllow =>
    if 0 < s.self.allowCommunicationCycle then
      some { s with
        self.allowCommunicationCycle := s.self.allowCommunicationCycle - 1
        cycle := .readCycle }
    else none
  | .readCycle =>
    s.deref { s with
      sleepUs := if s.sleepUs = errorNotSetCommunicationCycleMs
        then s.seg.communicationCycleUs else s.sleepUs
      cycle := .usleep }
  | .usleep =>
    if 0 < s.sleepUs then
      let s := s.usleep s.sleepUs
      if usleep then some { s with cycle := .store }
      else
        s.deref { s with
          seg := setError ⟨"usleep() failed!", none⟩ s.seg
          cycle := .semWaitAllow }
    else some { s with cycle := .store }
  | .store => s.deref { s with seg := storeParameters rand s.seg, cycle := .calculate }
  | .calculate =>
    let (self, seg) := calculateParameterCommunicationInterval now s.self s.seg
    s.deref { s with self := self, seg := seg, cycle := .postAllow }
  | .postAllow =>
    some { s with
      self.allowCommunicationCycle := s.self.allowCommunicationCycle + 1
      cycle := .evaluate }
  | .evaluate => s.deref { s with cycle := .segment s.seg.communicationCycleUs }
  | .segment cycleUs =>
    s.deref { s with
      cycle := .trywait cycleUs
        (s.seg.communicationCycleUs.tdiv waitMasterResponseTimeoutSegments) 0 }
  | .trywait cycleUs segmentUs threshold =>
    s.deref (if 0 < s.seg.semSToMRequest then
        { s with
          seg.semSToMRequest := s.seg.semSToMRequest - 1
          history.taken := s.history.taken + 1
          cycle := .getvalueAllow cycleUs segmentUs }
      else if waitMasterResponseTimeoutSegments ≤ threshold then
        { s with
          seg := setError ⟨"Master failed to respond to request!", none⟩ s.seg
          cycle := .getvalueAllow cycleUs segmentUs }
      else { s.usleep segmentUs with cycle := .trywait cycleUs segmentUs (threshold + 1) })
  | .getvalueAllow cycleUs segmentUs =>
    if s.self.allowCommunicationCycle = 0 then some { s with cycle := .withdraw cycleUs }
    else some { s with cycle := .writeRequest cycleUs segmentUs }
  | .withdraw cycleUs =>
    s.deref { s with
      seg.semSToMRequest := s.seg.semSToMRequest + 1
      history.withdrawn := s.history.taken :: s.history.withdrawn
      history.posted := s.history.taken :: s.history.posted
      sleepUs := cycleUs - 0
      cycle := .semWaitAllow }
  | .writeRequest cycleUs segmentUs =>
    s.deref { s with
      seg.reqSToM := .signalMasterParameter
      cycle := .kill cycleUs segmentUs }
  | .kill cycleUs segmentUs =>
    some { s with
      toMaster := s.toMaster ++ [.parameter s.history.taken]
      sleepUs := cycleUs - segmentUs
      cycle := .semWaitAllow }

/-- One slot of the system: any of the four threads moves, the master's signal
handler counts a delivered signal, or the configurator sets up a cycle. -/
def step (pid : Pid) (s : State) : Event → Option State
  | .configure requestedParameters communicationCycleUs =>
    some { s with
      seg.requestedParameters := requestedParameters
      seg.communicationCycleUs := communicationCycleUs }
  | .sync request => syncStep pid request s
  | .slot mustChange => slotStep mustChange s
  | .deliver => deliverStep pid s
  | .handler => if s.alive then handlerStep pid s else none
  | .cycle usleep rand now => if s.alive then cycleStep usleep rand now s else none

def connectRun : List Event :=
  List.replicate 2 (Event.sync .connectSlave) ++ List.replicate 3 (Event.slot false) ++
    List.replicate 8 Event.handler ++ [Event.deliver] ++ List.replicate 12 (Event.slot false)

def startRun : List Event :=
  connectRun ++ [Event.configure 7 1000] ++ List.replicate 6 (Event.sync .startSlaveCycle) ++
    List.replicate 10 Event.handler ++ [Event.deliver] ++ List.replicate 10 (Event.slot false)

def roundRun : List Event :=
  startRun ++ List.replicate 12 (Event.cycle true 0 ⟨0, 0⟩) ++ [Event.deliver] ++
    List.replicate 7 (Event.slot false) ++ List.replicate 5 Event.handler

end RealTimeCyclic.Slot
