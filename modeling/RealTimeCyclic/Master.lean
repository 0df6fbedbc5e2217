import RealTimeCyclic.Library.Transition
import RealTimeCyclic.Library.Probing
import RealTimeCyclic.SlotThread
import Mathlib.Logic.Function.Basic

namespace RealTimeCyclic.Master

open Shm SlotThread Probing Function

/-- A command sent by the configurator. The number is not part of the program:
nothing in the control memory tells two commands apart. -/
structure Command where
  id : ℕ
  request : Request
  pid : Pid
  deriving DecidableEq

/-- The configurator, from reading a request code to reporting the response. -/
inductive ConfiguratorPc
  | menu
  | typed
  | named
  | waiting
  | reading
  deriving DecidableEq

/-- `sync_signal_handler_thread`. Each point carries the command whose signal
was received. -/
inductive SyncPc
  | sigwaitinfo
  | readRequest (c : Command)
  | create (c : Command)
  | lookup (c : Command) (request : Request)
  | checkCycle (c : Command) (pid : Pid) (i : Idx)
  | semWait (c : Command) (request : Request) (pid : Pid) (i : Idx)
  | write (c : Command) (request : Request) (pid : Pid) (i : Idx)
  | kill (c : Command) (request : Request) (pid : Pid) (i : Idx)
  | nack (c : Command)
  | notify (c : Command)
  -- the slot with index NO_IDX was addressed
  | fault (c : Command)
  deriving DecidableEq

/-- `slave_processor_detached_thread`. -/
inductive ThreadPc
  | readArgument
  | lookup (pid : Pid)
  | scan (pid : Pid)
  | claim (pid : Pid) (i : Idx)
  | serve (pid : Pid) (i : Idx) (pc : Pc)
  | returned
  deriving DecidableEq

/-- `command` created the thread, `acting` is the command it acts for. -/
structure Thread where
  command : Command
  acting : ℕ
  pc : ThreadPc
  deriving DecidableEq

/-- A segment with its `sig_semaphore`, and the commands for which its request
semaphore was last taken and its request word last written. -/
structure Slot where
  seg : Shmseg
  wake : List Signal
  acquired : ℕ
  written : ℕ

/-- `cell` is the argument of the thread that was created last. Here it stays until the next one
is created; in the program its frame may be used again before the thread reads it. -/
structure State where
  slots : Idx → Slot
  control : ControlShm
  latest : Command
  answerTo : ℕ
  pendingMaster : Bool
  pendingConfigurator : Bool
  configurator : ConfiguratorPc
  sync : SyncPc
  cell : Pid
  threads : List Thread

def initial : State where
  slots _ := ⟨.initial, [], 0, 0⟩
  control := ⟨.nack, .startMaster, 0, 0⟩
  latest := ⟨0, .startMaster, 0⟩
  answerTo := 0
  pendingMaster := false
  pendingConfigurator := false
  configurator := .menu
  sync := .sigwaitinfo
  cell := 0
  threads := []

/-- The fields a slave writes in a segment. -/
structure SlaveFields where
  name : CString.Mem
  reqSToM : Request
  resSToM : Response
  availableParameters : ℕ
  semSToMRequest : ℕ
  cycleStarted : Bool
  shmsegError : List (Option SlaveError)
  shmsegErrorCurrentSize : ℕ
  stringValue : List UInt8
  intValue : Int
  boolValue : UInt8

def SlaveFields.store (w : SlaveFields) (seg : Shmseg) : Shmseg :=
  { seg with
    name := w.name
    reqSToM := w.reqSToM
    resSToM := w.resSToM
    availableParameters := w.availableParameters
    semSToMRequest := w.semSToMRequest
    cycleStarted := w.cycleStarted
    shmsegError := w.shmsegError
    shmsegErrorCurrentSize := w.shmsegErrorCurrentSize
    stringValue := w.stringValue
    intValue := w.intValue
    boolValue := w.boolValue }

/-- What a slave has written when it answers with ACK. -/
def acknowledged : SlaveFields where
  name := [97]
  reqSToM := .startMaster
  resSToM := .ack
  availableParameters := 7
  semSToMRequest := 1
  cycleStarted := false
  shmsegError := List.replicate shmsegErrorSize none
  shmsegErrorCurrentSize := 0
  stringValue := []
  intValue := intValueUndefined
  boolValue := 255

inductive Event
  -- the configurator
  | type (request : Request)
  | name (pid : Pid)
  | abandon
  | send
  | timeout
  | take
  | report
  | configure (i : Idx) (requestedParameters : ℕ) (communicationCycleUs : Int)
  -- the master
  | sync (created killed : Bool)
  | thread (j : ℕ) (mustChange killed : Bool)
  | deliver (pid : Pid) (signal : Signal)
  -- a slave
  | slave (i : Idx) (w : SlaveFields)

def getAssignedShmsegIdx (slots : Idx → Slot) (pid : Pid) : Option Idx :=
  probe (fun i ↦ (slots i).seg.pid = pid) (homeIdx pid)

def assignShmsegIdx (slots : Idx → Slot) (pid : Pid) : Option Idx :=
  probe (fun i ↦ (slots i).seg.pid = noPid) (homeIdx pid)

def State.setSeg (s : State) (i : Idx) (seg : Shmseg) : State :=
  { s with slots := update s.slots i { s.slots i with seg := seg } }

def sendable : Request → Bool
  | .connectSlave | .disconnectSlave | .startSlaveCycle | .stopSlaveCycle => true
  | _ => false

def syncStep (created killed : Bool) (s : State) : Option State :=
  match s.sync with
  | .sigwaitinfo =>
    if s.pendingMaster then
      some { s with pendingMaster := false, sync := .readRequest s.latest }
    else none
  | .readRequest c =>
    match s.control.request with
    | .connectSlave => some { s with sync := .create c }
    | .disconnectSlave | .startSlaveCycle | .stopSlaveCycle =>
      some { s with sync := .lookup c s.control.request }
    | _ => some { s with sync := .sigwaitinfo }
  | .create c =>
    if created then
      some { s with
        cell := s.control.affectedSlavePid
        threads := s.threads ++ [⟨c, c.id, .readArgument⟩]
        sync := .sigwaitinfo }
    else some { s with cell := s.control.affectedSlavePid, sync := .nack c }
  | .lookup c request =>
    match getAssignedShmsegIdx s.slots s.control.affectedSlavePid with
    | some i =>
      if request = .startSlaveCycle then
        some { s with sync := .checkCycle c s.control.affectedSlavePid i }
      else some { s with sync := .semWait c request s.control.affectedSlavePid i }
    | none =>
      if request = .disconnectSlave then some { s with sync := .fault c }
      else some { s with sync := .nack c }
  | .checkCycle c pid i =>
    if (s.slots i).seg.communicationCycleUs = errorNotSetCommunicationCycleMs then
      some { s with sync := .nack c }
    else some { s with sync := .semWait c .startSlaveCycle pid i }
  | .semWait c request pid i =>
    if 0 < (s.slots i).seg.semMToSRequest then
      some { s with
        slots := update s.slots i { s.slots i with
          seg.semMToSRequest := (s.slots i).seg.semMToSRequest - 1
          acquired := c.id }
        sync := .write c request pid i }
    else none
  | .write c request pid i =>
    some { s with
      slots := update s.slots i { s.slots i with seg.reqMToS := request, written := c.id }
      sync := .kill c request pid i }
  | .kill c _ _ _ =>
    if killed then some { s with sync := .sigwaitinfo } else some { s with sync := .nack c }
  | .nack c =>
    some { s with control.response := .nack, answerTo := c.id, sync := .notify c }
  | .notify _ => some { s with pendingConfigurator := true, sync := .sigwaitinfo }
  | .fault _ => none

def State.answer (s : State) : Effect → State
  | .answered response k => { s with control.response := response, answerTo := k }
  | .notified => { s with pendingConfigurator := true }
  | _ => s

theorem State.answer_eq (s : State) (effect : Effect) : ∃ response k notified,
    s.answer effect = { s with
      control.response := response
      answerTo := k
      pendingConfigurator := notified } := by
  cases effect with
  | answered response k => exact ⟨response, k, s.pendingConfigurator, rfl⟩
  | notified => exact ⟨s.control.response, s.answerTo, true, rfl⟩
  | _ => exact ⟨s.control.response, s.answerTo, s.pendingConfigurator, rfl⟩

theorem answer_slots (s : State) (effect : Effect) : (s.answer effect).slots = s.slots := by
  cases effect <;> rfl

theorem answer_threads (s : State) (effect : Effect) : (s.answer effect).threads = s.threads := by
  cases effect <;> rfl

theorem answer_answerTo (s : State) (effect : Effect) :
    (s.answer effect).answerTo = s.answerTo ∨
      ∃ response, effect = .answered response (s.answer effect).answerTo := by
  cases effect with
  | answered response k => exact .inr ⟨response, rfl⟩
  | _ => exact .inl rfl

theorem answer_pendingConfigurator {s : State} {effect : Effect}
    (h : (s.answer effect).pendingConfigurator = true) :
    s.pendingConfigurator = true ∨ effect = .notified := by
  cases effect with
  | notified => exact .inr rfl
  | _ => exact .inl h

/-- What a step of the slot thread leaves in its slot. -/
def Slot.stepped (slot : Slot) (acting : ℕ) (v : View) (effect : Effect) : Slot where
  seg := v.seg
  wake := v.wake
  acquired := if effect = .acquired then acting else slot.acquired
  written := if effect = .requested then acting else slot.written

/-- A thread that handles a response acts for the command the response is to. -/
def Thread.stepped (thread : Thread) (slot : Slot) (pid : Pid) (i : Idx) (v : View) : Thread where
  command := thread.command
  acting := if v.pc = .responseConnected then slot.written else thread.acting
  pc := .serve pid i v.pc

def serveStep (j : ℕ) (thread : Thread) (pid : Pid) (i : Idx) (pc : Pc)
    (mustChange killed : Bool) (s : State) : Option State :=
  (SlotThread.step (s.slots i).written mustChange killed
    ⟨(s.slots i).seg, pc, (s.slots i).wake⟩).map fun (v, effect) ↦
      { s with
        slots := update s.slots i ((s.slots i).stepped thread.acting v effect)
        threads := s.threads.set j (thread.stepped (s.slots i) pid i v) }.answer effect

theorem serveStep_eq_some {j : ℕ} {thread : Thread} {pid : Pid} {i : Idx} {pc : Pc}
    {mustChange killed : Bool} {s t : State}
    (h : serveStep j thread pid i pc mustChange killed s = some t) :
    ∃ v effect, SlotThread.step (s.slots i).written mustChange killed
        ⟨(s.slots i).seg, pc, (s.slots i).wake⟩ = some (v, effect) ∧
      t = { s with
        slots := update s.slots i ((s.slots i).stepped thread.acting v effect)
        threads := s.threads.set j (thread.stepped (s.slots i) pid i v) }.answer effect := by
  obtain ⟨⟨v, effect⟩, hv, ht⟩ := Option.map_eq_some_iff.mp h
  exact ⟨v, effect, hv, ht.symm⟩

def State.setPc (s : State) (j : ℕ) (thread : Thread) (pc : ThreadPc) : State :=
  { s with threads := s.threads.set j { thread with pc := pc } }

def threadStep (j : ℕ) (mustChange killed : Bool) (s : State) : Option State :=
  match s.threads[j]? with
  | none => none
  | some thread =>
    match thread.pc with
    | .readArgument => some (s.setPc j thread (.lookup s.cell))
    | .lookup pid =>
      match getAssignedShmsegIdx s.slots pid with
      | some _ => some (s.setPc j thread .returned)
      | none => some (s.setPc j thread (.scan pid))
    | .scan pid =>
      match assignShmsegIdx s.slots pid with
      | some i => some (s.setPc j thread (.claim pid i))
      | none => some (s.setPc j thread .returned)
    | .claim pid i =>
      some ((s.setSeg i { (s.slots i).seg with pid := pid }).setPc j thread
        (.serve pid i (.sendSemWait .connectSlave)))
    | .serve pid i pc => serveStep j thread pid i pc mustChange killed s
    | .returned => none

/-- `async_signal_handler`. -/
def deliverStep (pid : Pid) (signal : Signal) (s : State) : State :=
  match getAssignedShmsegIdx s.slots pid with
  | some i =>
    { s with
      slots := update s.slots i { s.slots i with wake := (s.slots i).wake ++ [signal] } }
  | none => s

/-- The master with its configurator and any slaves. What a slave writes and when
it sends signals is left open. -/
def step (s : State) : Event → Option State
  | .type request =>
    if s.configurator = .menu then
      some { s with control.request := request, configurator := .typed }
    else none
  | .name pid =>
    if s.configurator = .typed ∧ sendable s.control.request ∧ 0 < pid then
      some { s with control.affectedSlavePid := pid, configurator := .named }
    else none
  | .abandon =>
    if s.configurator = .typed then some { s with configurator := .menu } else none
  | .send =>
    if s.configurator = .named then
      some { s with
        pendingMaster := true
        latest := ⟨s.latest.id + 1, s.control.request, s.control.affectedSlavePid⟩
        configurator := .waiting }
    else none
  | .timeout =>
    if s.configurator = .waiting then some { s with configurator := .menu } else none
  | .take =>
    if s.configurator = .waiting ∧ s.pendingConfigurator then
      some { s with pendingConfigurator := false, configurator := .reading }
    else none
  | .report =>
    if s.configurator = .reading then some { s with configurator := .menu } else none
  | .configure i requestedParameters communicationCycleUs =>
    some (s.setSeg i { (s.slots i).seg with
      requestedParameters := requestedParameters
      communicationCycleUs := communicationCycleUs })
  | .sync created killed => syncStep created killed s
  | .thread j mustChange killed => threadStep j mustChange killed s
  | .deliver pid signal => some (deliverStep pid signal s)
  | .slave i w => some (s.setSeg i (w.store (s.slots i).seg))

def connectedRun : List Event :=
  [Event.type .connectSlave, Event.name 100, Event.send] ++
    List.replicate 3 (Event.sync true true) ++ List.replicate 7 (Event.thread 0 false true) ++
    [Event.slave 4 acknowledged, Event.deliver 100 .response] ++
    List.replicate 12 (Event.thread 0 false true) ++ [Event.take, Event.report]

def startedRun : List Event :=
  connectedRun ++ [Event.configure 4 7 1000, Event.type .startSlaveCycle, Event.name 100,
    Event.send] ++ List.replicate 7 (Event.sync true true) ++
    [Event.slave 4 { acknowledged with cycleStarted := true }, Event.deliver 100 .response] ++
    List.replicate 10 (Event.thread 0 false true) ++ [Event.take, Event.report]

theorem update_kept {α β : Type} (f : α → β) {g : Idx → α} {i : Idx} {a : α}
    (h : f a = f (g i)) (k : Idx) : f (update g i a k) = f (g k) := by
  rcases eq_or_ne k i with rfl | hk
  · rw [update_self, h]
  · rw [update_of_ne hk]

theorem getElem?_set_cases {α : Type*} {l : List α} {j k : ℕ} {a u : α}
    (h : (l.set j a)[k]? = some u) : (k = j ∧ u = a) ∨ (k ≠ j ∧ l[k]? = some u) := by
  rw [List.getElem?_set] at h
  split_ifs at h with hjk hlt
  · exact .inl ⟨hjk.symm, (Option.some.inj h).symm⟩
  · exact .inr ⟨fun e ↦ hjk e.symm, h⟩

def SyncPc.command : SyncPc → Option Command
  | .sigwaitinfo => none
  | .readRequest c | .create c | .lookup c _ | .checkCycle c _ _ | .semWait c _ _ _
  | .write c _ _ _ | .kill c _ _ _ | .nack c | .notify c | .fault c => some c

end RealTimeCyclic.Master
