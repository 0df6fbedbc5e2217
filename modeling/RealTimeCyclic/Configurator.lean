import RealTimeCyclic.Library.Probing
import RealTimeCyclic.Shm
import Mathlib.Logic.Function.Basic

namespace RealTimeCyclic.Configurator

open Shm Probing Function

/-- What `fork` returns in the parent: `-1` or the pid of the child. -/
inductive Fork
  | failed
  | child (n : ℕ)
  deriving DecidableEq

def Fork.pid : Fork → Pid
  | .failed => -1
  | .child n => n + 1

inductive Signal
  | sigint
  | sigusr2
  deriving DecidableEq

inductive Effect
  | kill (pid : Pid) (signal : Signal)
  -- accesses through self.shmp
  | read
  | requestParameter (i : Idx) (bit : ℕ)
  | setCommunicationCycle (i : Idx) (us : Int)
  -- an index before the first entry of created_slave or slave_shmseg
  | outOfBounds
  deriving DecidableEq

/-- An effect, with the processes that the configurator has started by then:
`attached` says that a master was started and its memory attached, `master` is
the master that is not stopped, `slaves` are the forked slaves. -/
structure Entry where
  effect : Effect
  attached : Bool
  master : Option Pid
  slaves : List Pid
  deriving DecidableEq

/-- `created_slave_t`. -/
structure Created where
  pid : Pid
  connected : Bool
  deriving DecidableEq

/-- `configurator_context_t` with the control memory, and what has happened. -/
structure State where
  shmp : Bool
  request : Request
  affectedSlavePid : Pid
  masterPid : Pid
  createdSlavesNumber : ℕ
  createdSlave : Idx → Created
  exited : Bool
  started : Bool
  master : Option Pid
  slaves : List Pid
  log : List Entry

def initial : State where
  shmp := false
  request := .startMaster
  affectedSlavePid := 0
  masterPid := noPid
  createdSlavesNumber := 0
  createdSlave _ := ⟨noPid, false⟩
  exited := false
  started := false
  master := none
  slaves := []
  log := []

def State.emit (s : State) (effect : Effect) : State :=
  { s with log := s.log ++ [⟨effect, s.shmp && s.started, s.master, s.slaves⟩] }

inductive Lookup
  | found (i : Idx)
  | noIdx
  -- the remainder of a negative pid is negative
  | outside

def lookup (p : Idx → Bool) (pid : Pid) : Lookup :=
  if pid.tmod maxSlaves < 0 then .outside
  else
    match probe p (homeIdx pid) with
    | some i => .found i
    | none => .noIdx

def assignLocalIdx (createdSlave : Idx → Created) (pid : Pid) : Lookup :=
  lookup (fun i ↦ (createdSlave i).pid = noPid) pid

def getAssignedLocalIdx (createdSlave : Idx → Created) (pid : Pid) : Lookup :=
  lookup (fun i ↦ (createdSlave i).pid = pid) pid

/-- `self.created_slave[localIdx] = …`, also for the index `NO_IDX`. What that
one overwrites is not modelled. -/
def State.setCreated (s : State) (localIdx : Lookup) (f : Created → Created) : State :=
  match localIdx with
  | .found i => { s with createdSlave := update s.createdSlave i (f (s.createdSlave i)) }
  | .noIdx | .outside => s.emit .outOfBounds

def registerSlaveLocally (slavePid : Pid) (s : State) : State :=
  { s with createdSlavesNumber := s.createdSlavesNumber + 1 }.setCreated
    (assignLocalIdx s.createdSlave slavePid) fun _ ↦ ⟨slavePid, false⟩

/-- The two assignments after a slave was deleted. -/
def unregisterSlaveLocally (slavePid : Pid) (s : State) : State :=
  s.setCreated (getAssignedLocalIdx s.createdSlave slavePid) fun _ ↦ ⟨noPid, false⟩

def forkSlave (fork : Fork) (s : State) : State :=
  match fork with
  | .failed => registerSlaveLocally fork.pid s
  | .child _ => registerSlaveLocally fork.pid { s with slaves := fork.pid :: s.slaves }

def sendStopMasterRequest (killed : Bool) (s : State) : State :=
  if killed then { s.emit (.kill s.masterPid .sigint) with masterPid := noPid, master := none }
  else s.emit (.kill s.masterPid .sigint)

def sendDeleteSlaveRequest (slavePid : Pid) (s : State) : State :=
  s.emit (.kill slavePid .sigint)

def sendSlaveRequest (slavePid : Pid) (s : State) : State :=
  { s with affectedSlavePid := slavePid }.emit (.kill s.masterPid .sigusr2)

def sendStartCycleSlaveRequest : Pid → State → State := sendSlaveRequest
def sendStopCycleSlaveRequest : Pid → State → State := sendSlaveRequest
def sendConnectSlaveRequest : Pid → State → State := sendSlaveRequest
def sendDisconnectSlaveRequest : Pid → State → State := sendSlaveRequest

/-- `wait_connect_slave_response` and `wait_disconnect_slave_response`; there is
no answer after a timeout. -/
def waitSlaveResponse (connected : Bool) (slavePid : Pid) (answer : Option Response)
    (s : State) : State :=
  if answer = some .ack then
    s.setCreated (getAssignedLocalIdx s.createdSlave slavePid)
      fun c ↦ { c with connected := connected }
  else s

def waitConnectSlaveResponse : Pid → Option Response → State → State := waitSlaveResponse true
def waitDisconnectSlaveResponse : Pid → Option Response → State → State :=
  waitSlaveResponse false

/-- What a command reads in one segment. The other processes may change the pid
between two reads. -/
structure Segment where
  pid : Pid
  pid' : Pid
  pid'' : Pid
  isConnected : Bool
  cycleStarted : Bool

def Segment.free : Segment := ⟨noPid, noPid, noPid, false, false⟩

def startMaster (fork : Fork) (signalled found : Bool) (s : State) : State :=
  if s.masterPid ≠ noPid then s
  else
    { s with
      masterPid := fork.pid
      master := if fork = .failed then none else some fork.pid
      started := s.started || fork ≠ .failed
      shmp := s.shmp || signalled && found
      exited := !(signalled && found) }

def deleteSlaves (seg : Idx → Segment) : List Idx → State → State
  | [], s => s
  | i :: is, s =>
    if (seg i).pid = noPid then deleteSlaves seg is (s.emit .read)
    else
      deleteSlaves seg is (unregisterSlaveLocally (seg i).pid''
        (sendDeleteSlaveRequest (seg i).pid' (s.emit .read)))

def stopMaster (seg : Idx → Segment) (killed : Bool) (s : State) : State :=
  if s.masterPid = noPid then s
  else sendStopMasterRequest killed (deleteSlaves seg (List.finRange maxSlaves) s)

def createSlave (named : Bool) (fork : Fork) (s : State) : State :=
  if maxSlaves ≤ s.createdSlavesNumber then s
  else if named then forkSlave fork s
  else s

def disconnectedPids (createdSlave : Idx → Created) : List Pid :=
  (List.finRange maxSlaves).filterMap fun i ↦
    if (createdSlave i).pid = noPid ∨ (createdSlave i).connected then none
    else some (createdSlave i).pid

def chosen (offered : List Pid) (inserted : Option Pid) : Option Pid :=
  inserted.filter (· ∈ offered)

def deleteSlave (inserted : Option Pid) (killed : Bool) (s : State) : State :=
  match chosen (disconnectedPids s.createdSlave) inserted with
  | none => s
  | some slavePid =>
    if killed then unregisterSlaveLocally slavePid (sendDeleteSlaveRequest slavePid s)
    else sendDeleteSlaveRequest slavePid s

def connectSlave (inserted : Option Pid) (killed : Bool) (answer : Option Response)
    (s : State) : State :=
  match chosen (disconnectedPids s.createdSlave) inserted with
  | none => s
  | some slavePid =>
    if killed then waitConnectSlaveResponse slavePid answer (sendConnectSlaveRequest slavePid s)
    else sendConnectSlaveRequest slavePid s

def notStartedPids (seg : Idx → Segment) : List Pid :=
  (List.finRange maxSlaves).filterMap fun i ↦
    if (seg i).isConnected ∧ ¬(seg i).cycleStarted then some (seg i).pid' else none

def startedPids (seg : Idx → Segment) : List Pid :=
  (List.finRange maxSlaves).filterMap fun i ↦
    if (seg i).pid = noPid ∨ ¬(seg i).isConnected ∨ ¬(seg i).cycleStarted then none
    else some (seg i).pid'

def disconnectSlave (seg : Idx → Segment) (inserted : Option Pid) (answer : Option Response)
    (s : State) : State :=
  match chosen (notStartedPids seg) inserted with
  | none => s.emit .read
  | some slavePid =>
    waitDisconnectSlaveResponse slavePid answer
      (sendDisconnectSlaveRequest slavePid (s.emit .read))

def askParameter (i : Idx) (available wanted : ℕ) (s : State) (bit : ℕ) : State :=
  if available &&& bit ≠ 0 ∧ wanted &&& bit ≠ 0 then
    (s.emit .read).emit (.requestParameter i bit)
  else s.emit .read

def startSlaveCycle (seg : Idx → Segment) (inserted : Option Pid) (available wanted : ℕ)
    (intervalMs : Option Int) (s : State) : State :=
  match chosen (notStartedPids seg) inserted with
  | none => s.emit .read
  | some slavePid =>
    match lookup (fun i ↦ (seg i).pid'' = slavePid) slavePid with
    | .noIdx | .outside => (s.emit .read).emit .outOfBounds
    | .found i =>
      let asked := [stringParameterBit, intParameterBit, boolParameterBit].foldl
        (askParameter i available wanted) (s.emit .read)
      match intervalMs with
      | none => asked
      | some ms =>
        if ms ≤ 0 then asked
        else
          sendStartCycleSlaveRequest slavePid (asked.emit (.setCommunicationCycle i (communicationCycleUs ms)))

def stopSlaveCycle (seg : Idx → Segment) (inserted : Option Pid) (s : State) : State :=
  match chosen (startedPids seg) inserted with
  | none => s.emit .read
  | some slavePid => sendStopCycleSlaveRequest slavePid (s.emit .read)

/-- `print_slave_data_by_pid`. The search starts at the remainder of the pid. -/
def printSlaveDataByPid (pid : Pid) (s : State) : State :=
  if pid.tmod maxSlaves < 0 then s.emit .outOfBounds else s.emit .read

def printSlaves (seg : Idx → Segment) : List Idx → State → State
  | [], s => s
  | i :: is, s =>
    if (seg i).pid = noPid then printSlaves seg is (s.emit .read)
    else printSlaves seg is (printSlaveDataByPid (seg i).pid' (s.emit .read))

def printSlaveData (seg : Idx → Segment) (s : State) : State :=
  if s.shmp then printSlaves seg (List.finRange maxSlaves) s else s

def connectSlaves (killed : Idx → Bool) (answer : Idx → Option Response) :
    List Idx → State → State
  | [], s => s
  | i :: is, s =>
    if (s.createdSlave i).pid = noPid ∨ (s.createdSlave i).connected then
      connectSlaves killed answer is s
    else if killed i then
      connectSlaves killed answer is (waitConnectSlaveResponse (s.createdSlave i).pid (answer i)
        (sendConnectSlaveRequest (s.createdSlave i).pid { s with request := .connectSlave }))
    else sendConnectSlaveRequest (s.createdSlave i).pid { s with request := .connectSlave }

def startSlaves (seg : Idx → Segment) : List Idx → State → State
  | [], s => s
  | i :: is, s =>
    if (seg i).isConnected then
      startSlaves seg is (sendStartCycleSlaveRequest (seg i).pid
        { ((s.emit .read).emit (.requestParameter i intParameterBit)).emit
            (.setCommunicationCycle i (500 * 1000)) with request := .startSlaveCycle })
    else startSlaves seg is (s.emit .read)

/-- There are no forks when the number typed is invalid. -/
def automaticTest (forks : List Fork) (killed : Idx → Bool) (answer : Idx → Option Response)
    (seg : Idx → Segment) (s : State) : State :=
  if forks = [] then s
  else
    startSlaves seg (List.finRange maxSlaves) (connectSlaves killed answer
      (List.finRange maxSlaves) (forks.foldl (fun s fork ↦ forkSlave fork s) s))

/-- A menu command with everything the configurator reads and every outcome of
its system calls while it executes it. -/
inductive Command
  | startMaster (fork : Fork) (signalled found : Bool)
  | stopMaster (seg : Idx → Segment) (killed : Bool)
  | createSlave (named : Bool) (fork : Fork)
  | deleteSlave (inserted : Option Pid) (killed : Bool)
  | connectSlave (inserted : Option Pid) (killed : Bool) (answer : Option Response)
  | disconnectSlave (seg : Idx → Segment) (inserted : Option Pid) (answer : Option Response)
  | startSlaveCycle (seg : Idx → Segment) (inserted : Option Pid) (available wanted : ℕ)
      (intervalMs : Option Int)
  | stopSlaveCycle (seg : Idx → Segment) (inserted : Option Pid)
  | printSlaveData (seg : Idx → Segment)
  | printLogData
  | automaticTest (forks : List Fork) (killed : Idx → Bool) (answer : Idx → Option Response)
      (seg : Idx → Segment)
  | unrecognized (code : Int)

def Command.request : Command → Request
  | .startMaster .. => .startMaster
  | .stopMaster .. => .stopMaster
  | .createSlave .. => .createSlave
  | .deleteSlave .. => .deleteSlave
  | .connectSlave .. => .connectSlave
  | .disconnectSlave .. => .disconnectSlave
  | .startSlaveCycle .. => .startSlaveCycle
  | .stopSlaveCycle .. => .stopSlaveCycle
  | .printSlaveData .. => .printSlaveData
  | .printLogData => .printLogData
  | .automaticTest .. => .automaticTest
  | .unrecognized code => .other code

def execute (s : State) : Command → State
  | .startMaster fork signalled found => startMaster fork signalled found s
  | .stopMaster seg killed => stopMaster seg killed s
  | .createSlave named fork => createSlave named fork s
  | .deleteSlave inserted killed => deleteSlave inserted killed s
  | .connectSlave inserted killed answer => connectSlave inserted killed answer s
  | .disconnectSlave seg inserted answer => disconnectSlave seg inserted answer s
  | .startSlaveCycle seg inserted available wanted intervalMs =>
    startSlaveCycle seg inserted available wanted intervalMs s
  | .stopSlaveCycle seg inserted => stopSlaveCycle seg inserted s
  | .printSlaveData seg => printSlaveData seg s
  | .printLogData => s
  | .automaticTest forks killed answer seg => automaticTest forks killed answer seg s
  | .unrecognized _ => s

def step (s : State) (c : Command) : Option State :=
  if s.exited then none else some (execute { s with request := c.request } c)

end RealTimeCyclic.Configurator
