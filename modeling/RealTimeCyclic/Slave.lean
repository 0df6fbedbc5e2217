import RealTimeCyclic.Shm
import Mathlib.Algebra.Field.Rat

namespace RealTimeCyclic.Slave

open Shm CString

def waitMasterResponseTimeoutSegments : ℕ := 20

/-- `struct timeval`. -/
structure Timeval where
  tvSec : Int
  tvUsec : Int
  deriving DecidableEq, Repr

/-- `slave_context_t`. The pointer `shmseg` is either `NULL` or points to the
segment the master assigned. -/
structure SlaveContext where
  name : Mem
  changeNameIdx : UInt32
  availableParameters : ℕ
  lastCommunicationTimeval : Timeval
  excessCommunicationCycleIntervalMs : ℚ
  allowCommunicationCycle : ℕ
  shmseg : Bool

/-- The context after `init` with the given command line. -/
def SlaveContext.initial (name : Mem) (availableParameters : ℕ) : SlaveContext where
  name := strcpy [] name
  changeNameIdx := 0
  availableParameters := availableParameters
  lastCommunicationTimeval := ⟨0, 0⟩
  excessCommunicationCycleIntervalMs := 0
  allowCommunicationCycle := 0
  shmseg := false

/-- A call of `usleep`: the number passed, and the `useconds_t` it becomes. -/
structure Usleep where
  us : Int
  usec : UInt32
  deriving DecidableEq, Repr

def Usleep.call (us : Int) : Usleep := ⟨us, .ofInt us⟩

theorem Usleep.call_usec {us : Int} (hnonneg : 0 ≤ us) (hlt : us < 2 ^ 32) :
    ((call us).usec.toNat : Int) = us := by
  have hmod : us % 2 ^ 32 = us := Int.emod_eq_of_lt hnonneg hlt
  have hword : (call us).usec.toNat = us.toNat := by
    rw [call, UInt32.ofInt, hmod, UInt32.toNat_ofNat_of_lt']
    exact (Int.toNat_lt hnonneg).mpr hlt
  rw [hword, Int.toNat_of_nonneg hnonneg]

/-- `calculate_parameter_communication_interval` at the clock reading
`current`. The interval is kept as an exact number of milliseconds. -/
def calculateParameterCommunicationInterval (current : Timeval)
    (self : SlaveContext) (seg : Shmseg) : SlaveContext × Shmseg :=
  let last := self.lastCommunicationTimeval
  if last.tvSec = 0 ∧ last.tvUsec = 0 then
    ({ self with lastCommunicationTimeval := current }, seg)
  else
    let elapsedSecondsInUs := (current.tvSec - last.tvSec) * 1000000
    let elapsedMicroseconds := elapsedSecondsInUs + current.tvUsec - last.tvUsec
    let communicationCycleUs := elapsedMicroseconds - seg.communicationCycleUs
    let excess : ℚ := (communicationCycleUs : ℚ) / 1000
    ({ self with
        excessCommunicationCycleIntervalMs := excess
        lastCommunicationTimeval := current },
      if excess > (seg.communicationCycleUs : ℚ) / 2000 then
        setError ⟨"Exceeded communication cycle set time by %lf miliseconds", some excess⟩ seg
      else seg)

/-- The values a round of the communication cycle stores, from one call of
`rand`. -/
def storeParameters (rand : ℕ) (seg : Shmseg) : Shmseg :=
  let chrRand : UInt8 := 65 + (rand % 26).toUInt8
  let seg := if seg.requestedParameters &&& stringParameterBit ≠ 0 then
      { seg with
        stringValue := chrRand :: (chrRand + 1) :: (chrRand + 2) :: seg.stringValue.drop 3 }
    else seg
  let seg := if seg.requestedParameters &&& intParameterBit ≠ 0 then
      { seg with intValue := rand }
    else seg
  if seg.requestedParameters &&& boolParameterBit ≠ 0 then
    { seg with boolValue := (rand % 2).toUInt8 }
  else seg

/-- `handle_connect_slave_request` up to its response. -/
def handleConnectSlaveRequest (self : SlaveContext) (seg : Shmseg) : Shmseg :=
  { seg with
    name := strcpy seg.name self.name
    availableParameters := self.availableParameters }

/-- The backward loop that erases the number added by an earlier rename, from
index `i` down to 1, in both copies of the name. -/
def eraseSuffix : ℕ → Mem → Mem → Mem × Mem
  | 0, name, shmName => (name, shmName)
  | i + 1, name, shmName =>
    if load name (i + 1) = 95 then (store name (i + 1) 0, store shmName (i + 1) 0)
    else eraseSuffix i (store name (i + 1) 0) (store shmName (i + 1) 0)

/-- `handle_change_name_slave_request` up to its response. -/
def handleChangeNameSlaveRequest (self : SlaveContext) (seg : Shmseg) :
    SlaveContext × Shmseg × Response :=
  let (name, shmName) := if self.changeNameIdx ≠ 0
    then eraseSuffix (slaveNameSize - 1) self.name seg.name
    else (self.name, seg.name)
  let self := { self with name := name }
  let seg := { seg with name := shmName }
  -- 32-bit wrap of the incremented copy of the index.
  if self.changeNameIdx + 1 < self.changeNameIdx then
    (self, setError ⟨"Change name index overflow!", none⟩ seg, .nack)
  else
    let changeNameIdx := self.changeNameIdx + 1
    let text := str seg.name ++ [95] ++ decimal changeNameIdx.toNat ++ [0]
    let name := storeAll self.name 0 text
    ({ self with name := name, changeNameIdx := changeNameIdx },
      { seg with name := strcpy seg.name name }, .ack)

/-- `handle_disconnect_slave_request` before its response. -/
def handleDisconnectSlaveRequest (self : SlaveContext) : SlaveContext :=
  { self with
    lastCommunicationTimeval := ⟨0, 0⟩
    excessCommunicationCycleIntervalMs := 0 }

theorem calculate_sameControl (current : Timeval) (self : SlaveContext) (seg : Shmseg) :
    SameControl (calculateParameterCommunicationInterval current self seg).2 seg := by
  unfold calculateParameterCommunicationInterval
  dsimp only
  split_ifs
  · exact .refl seg
  · exact setError_sameControl _ seg
  · exact .refl seg

theorem calculate_communicationCycleUs (current : Timeval) (self : SlaveContext) (seg : Shmseg) :
    (calculateParameterCommunicationInterval current self seg).2.communicationCycleUs =
      seg.communicationCycleUs := by
  unfold calculateParameterCommunicationInterval
  dsimp only
  split_ifs
  · rfl
  · exact setError_communicationCycleUs _ seg
  · rfl

theorem calculate_pointer (current : Timeval) (self : SlaveContext) (seg : Shmseg) :
    (calculateParameterCommunicationInterval current self seg).1.shmseg = self.shmseg := by
  unfold calculateParameterCommunicationInterval
  dsimp only
  split_ifs <;> rfl

theorem calculate_allow (current : Timeval) (self : SlaveContext) (seg : Shmseg) :
    (calculateParameterCommunicationInterval current self seg).1.allowCommunicationCycle =
      self.allowCommunicationCycle := by
  unfold calculateParameterCommunicationInterval
  dsimp only
  split_ifs <;> rfl

theorem storeParameters_sameControl (rand : ℕ) (seg : Shmseg) :
    SameControl (storeParameters rand seg) seg := by
  unfold storeParameters
  dsimp only
  split_ifs <;> exact ⟨rfl, rfl, rfl, rfl, rfl, rfl, rfl, rfl, rfl⟩

theorem storeParameters_communicationCycleUs (rand : ℕ) (seg : Shmseg) :
    (storeParameters rand seg).communicationCycleUs = seg.communicationCycleUs := by
  unfold storeParameters
  dsimp only
  split_ifs <;> rfl

theorem handleChangeName_sameControl (self : SlaveContext) (seg : Shmseg) :
    SameControl (handleChangeNameSlaveRequest self seg).2.1 seg := by
  unfold handleChangeNameSlaveRequest
  dsimp only
  split_ifs
  · exact (setError_sameControl _ _).trans ⟨rfl, rfl, rfl, rfl, rfl, rfl, rfl, rfl, rfl⟩
  · exact (setError_sameControl _ _).trans ⟨rfl, rfl, rfl, rfl, rfl, rfl, rfl, rfl, rfl⟩
  · exact ⟨rfl, rfl, rfl, rfl, rfl, rfl, rfl, rfl, rfl⟩
  · exact ⟨rfl, rfl, rfl, rfl, rfl, rfl, rfl, rfl, rfl⟩

theorem handleChangeName_communicationCycleUs (self : SlaveContext) (seg : Shmseg) :
    (handleChangeNameSlaveRequest self seg).2.1.communicationCycleUs =
      seg.communicationCycleUs := by
  unfold handleChangeNameSlaveRequest
  dsimp only
  split_ifs
  · exact setError_communicationCycleUs _ _
  · exact setError_communicationCycleUs _ _
  · rfl
  · rfl

theorem handleChangeName_response (self : SlaveContext) (seg : Shmseg) :
    (handleChangeNameSlaveRequest self seg).2.2 = .ack ∨
      (handleChangeNameSlaveRequest self seg).2.2 = .nack := by
  unfold handleChangeNameSlaveRequest
  dsimp only
  split_ifs <;> simp

theorem handleChangeName_pointer (self : SlaveContext) (seg : Shmseg) :
    (handleChangeNameSlaveRequest self seg).1.shmseg = self.shmseg := by
  unfold handleChangeNameSlaveRequest
  dsimp only
  split_ifs <;> rfl

theorem handleChangeName_last (self : SlaveContext) (seg : Shmseg) :
    (handleChangeNameSlaveRequest self seg).1.lastCommunicationTimeval =
      self.lastCommunicationTimeval := by
  unfold handleChangeNameSlaveRequest
  dsimp only
  split_ifs <;> rfl

theorem handleChangeName_allow (self : SlaveContext) (seg : Shmseg) :
    (handleChangeNameSlaveRequest self seg).1.allowCommunicationCycle =
      self.allowCommunicationCycle := by
  unfold handleChangeNameSlaveRequest
  dsimp only
  split_ifs <;> rfl

end RealTimeCyclic.Slave
