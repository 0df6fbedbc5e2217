import RealTimeCyclic.Library.CString
import Mathlib.Data.Rat.Init

namespace RealTimeCyclic.Shm

abbrev Pid := Int

abbrev maxSlaves : ℕ := 32
def slaveNameSize : ℕ := 128
def shmsegErrorSize : ℕ := 20

def noPid : Pid := -1

theorem ne_noPid_of_pos {pid : Pid} (h : 0 < pid) : pid ≠ noPid := by
  rintro rfl
  exact absurd h (by decide)

instance : NeZero maxSlaves := ⟨by decide⟩

abbrev Idx := Fin maxSlaves

/-- `pid % MAX_SLAVES`, for the pid of a process. -/
def homeIdx (pid : Pid) : Idx := ⟨(pid % maxSlaves).toNat, by
  have := Int.emod_lt_of_pos pid (show (0 : Int) < maxSlaves by decide)
  have := Int.emod_nonneg pid (show (maxSlaves : Int) ≠ 0 by decide)
  omega⟩

def stringParameterBit : ℕ := 1 <<< 0
def intParameterBit : ℕ := 1 <<< 1
def boolParameterBit : ℕ := 1 <<< 2

def stringValueUndefined : UInt8 := 0
def intValueUndefined : Int := -1
def boolValueUndefined : Int := -1

def errorNotSetCommunicationCycleMs : Int := -1

/-- `req_cycle_interval_ms * 1000`, a 64-bit `long`. -/
def communicationCycleUs (reqCycleIntervalMs : Int) : Int :=
  Int.bmod (reqCycleIntervalMs * 1000) (2 ^ 64)

/-- `request_t`. The configurator stores whatever number was typed, so codes
outside the enumeration occur. -/
inductive Request
  | startMaster
  | stopMaster
  | createSlave
  | deleteSlave
  | connectSlave
  | disconnectSlave
  | startSlaveCycle
  | stopSlaveCycle
  | printSlaveData
  | printLogData
  | automaticTest
  | changeSlaveName
  | signalMasterParameter
  | other (code : Int)
  deriving DecidableEq, Repr

/-- `response_t`. -/
inductive Response
  | nack
  | ack
  | other (code : Int)
  deriving DecidableEq, Repr

/-- One entry of the error buffer: the format of `set_error` and the argument
printed by it. -/
structure SlaveError where
  format : String
  argument : Option ℚ := none
  deriving DecidableEq

/-- `shmseg_t`. -/
structure Shmseg where
  name : CString.Mem
  reqSToM : Request
  resSToM : Response
  availableParameters : ℕ
  pid : Pid
  reqMToS : Request
  resMToS : Response
  isConnected : Bool
  lastKnownStringValue : List UInt8
  lastKnownIntValue : Int
  lastKnownBoolValue : UInt8
  requestedParameters : ℕ
  communicationCycleUs : Int
  semSToMRequest : ℕ
  semMToSRequest : ℕ
  cycleStarted : Bool
  shmsegError : List (Option SlaveError)
  shmsegErrorCurrentSize : ℕ
  stringValue : List UInt8
  intValue : Int
  boolValue : UInt8

/-- `memset(slave_shmseg, 0, sizeof(shmseg_t))`. -/
def Shmseg.zero : Shmseg where
  name := []
  reqSToM := .startMaster
  resSToM := .nack
  availableParameters := 0
  pid := 0
  reqMToS := .startMaster
  resMToS := .nack
  isConnected := false
  lastKnownStringValue := []
  lastKnownIntValue := 0
  lastKnownBoolValue := 0
  requestedParameters := 0
  communicationCycleUs := 0
  semSToMRequest := 0
  semMToSRequest := 0
  cycleStarted := false
  shmsegError := List.replicate shmsegErrorSize none
  shmsegErrorCurrentSize := 0
  stringValue := []
  intValue := 0
  boolValue := 0

/-- `init_slave_shmseg_shared_memory`. The undefined boolean is `-1` stored in
an unsigned byte. -/
def initSlaveShmsegSharedMemory (seg : Shmseg) : Shmseg :=
  { seg with
    pid := noPid
    communicationCycleUs := errorNotSetCommunicationCycleMs
    shmsegError := List.replicate shmsegErrorSize none
    stringValue := []
    lastKnownStringValue := []
    intValue := intValueUndefined
    lastKnownIntValue := intValueUndefined
    boolValue := 255
    lastKnownBoolValue := 255 }

@[simp] theorem init_semMToSRequest (seg : Shmseg) :
    (initSlaveShmsegSharedMemory seg).semMToSRequest = seg.semMToSRequest := rfl

@[simp] theorem init_semSToMRequest (seg : Shmseg) :
    (initSlaveShmsegSharedMemory seg).semSToMRequest = seg.semSToMRequest := rfl

/-- A slot after `init`: zeroed, initialised, both request semaphores at 1. -/
def Shmseg.initial : Shmseg :=
  { initSlaveShmsegSharedMemory Shmseg.zero with semSToMRequest := 1, semMToSRequest := 1 }

def slaveRequestHasErrors (seg : Shmseg) : Bool := seg.shmsegErrorCurrentSize ≠ 0

/-- `handle_slave_request_errors` run without interruption: every stored entry
is logged and cleared, then the size is reset. -/
def handleSlaveRequestErrors (seg : Shmseg) : Shmseg :=
  { seg with
    shmsegError := seg.shmsegError.mapIdx fun i e ↦
      if i < seg.shmsegErrorCurrentSize then none else e
    shmsegErrorCurrentSize := 0 }

/-- `set_error`. Errors stack up to the size of the buffer. -/
def setError (error : SlaveError) (seg : Shmseg) : Shmseg :=
  if seg.shmsegErrorCurrentSize < shmsegErrorSize then
    { seg with
      shmsegError := seg.shmsegError.set seg.shmsegErrorCurrentSize (some error)
      shmsegErrorCurrentSize := seg.shmsegErrorCurrentSize + 1 }
  else seg

/-- The fields through which the two processes address each other, as opposed
to the payload they exchange. -/
structure SameControl (a b : Shmseg) : Prop where
  reqSToM : a.reqSToM = b.reqSToM
  resSToM : a.resSToM = b.resSToM
  pid : a.pid = b.pid
  reqMToS : a.reqMToS = b.reqMToS
  resMToS : a.resMToS = b.resMToS
  isConnected : a.isConnected = b.isConnected
  semSToMRequest : a.semSToMRequest = b.semSToMRequest
  semMToSRequest : a.semMToSRequest = b.semMToSRequest
  cycleStarted : a.cycleStarted = b.cycleStarted

theorem SameControl.refl (seg : Shmseg) : SameControl seg seg :=
  ⟨rfl, rfl, rfl, rfl, rfl, rfl, rfl, rfl, rfl⟩

theorem SameControl.trans {a b c : Shmseg} (h : SameControl a b) (h' : SameControl b c) :
    SameControl a c :=
  ⟨h.reqSToM.trans h'.reqSToM, h.resSToM.trans h'.resSToM, h.pid.trans h'.pid,
    h.reqMToS.trans h'.reqMToS, h.resMToS.trans h'.resMToS,
    h.isConnected.trans h'.isConnected, h.semSToMRequest.trans h'.semSToMRequest,
    h.semMToSRequest.trans h'.semMToSRequest, h.cycleStarted.trans h'.cycleStarted⟩

theorem setError_sameControl (error : SlaveError) (seg : Shmseg) :
    SameControl (setError error seg) seg := by
  unfold setError
  split
  · exact ⟨rfl, rfl, rfl, rfl, rfl, rfl, rfl, rfl, rfl⟩
  · exact .refl seg

@[simp] theorem setError_name (error : SlaveError) (seg : Shmseg) :
    (setError error seg).name = seg.name := by
  unfold setError
  split <;> rfl

@[simp] theorem setError_communicationCycleUs (error : SlaveError) (seg : Shmseg) :
    (setError error seg).communicationCycleUs = seg.communicationCycleUs := by
  unfold setError
  split <;> rfl

theorem handleSlaveRequestErrors_sameControl (seg : Shmseg) :
    SameControl (handleSlaveRequestErrors seg) seg :=
  ⟨rfl, rfl, rfl, rfl, rfl, rfl, rfl, rfl, rfl⟩

theorem SameControl.of_errors {a b : Shmseg} (h : a = handleSlaveRequestErrors b ∨ a = b) :
    SameControl a b := by
  rcases h with rfl | rfl
  · exact handleSlaveRequestErrors_sameControl b
  · exact .refl a

/-- `control_shm_t`. -/
structure ControlShm where
  response : Response
  request : Request
  configuratorPid : Pid
  affectedSlavePid : Pid

end RealTimeCyclic.Shm
