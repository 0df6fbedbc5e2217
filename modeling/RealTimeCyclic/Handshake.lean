import RealTimeCyclic.Library.Transition
import RealTimeCyclic.Slave
import RealTimeCyclic.SlotThread
import Mathlib.Logic.Function.Basic

namespace RealTimeCyclic.Handshake

open Shm CString Slave SlotThread Function

/-- `must_change_name`: the test of the pid of slot `j`, or the comparison of byte
`n` of the two names. -/
inductive Scan
  | slot (j : ℕ)
  | byte (j : Idx) (n : ℕ)
  deriving DecidableEq

/-- `send_disconnect_slave_request` after `sem_wait`. -/
inductive SyncPc
  | idle
  | write
  | kill
  deriving DecidableEq

/-- `signal_handler_thread` of the slave. The handlers that write the name carry the
stores that are left. -/
inductive HandlerPc
  | sigwaitinfo
  | firstSignalEverSetup
  | getvalueSToM
  | getvalueMToS
  | responsePost
  | requestSwitch
  | connect (stores : List (ℕ × UInt8))
  | changeName (stores : List (ℕ × UInt8)) (response : Response)
  | respond (request : Request) (response : Response)
  | kill (request : Request)
  | clearPointer
  deriving DecidableEq

/-- A slot, its thread in the master and the slave that has or had it. -/
structure Slot where
  seg : Shmseg
  thread : Pc
  scan : Scan
  wake : List Signal
  sync : SyncPc
  toMaster : ℕ
  toSlave : ℕ
  slavePid : Pid
  self : SlaveContext
  handler : HandlerPc

abbrev State := Idx → Slot

def initial : State := fun _ ↦ {
  seg := .initial
  thread := .exited
  scan := .slot 0
  wake := []
  sync := .idle
  toMaster := 0
  toSlave := 0
  slavePid := noPid
  self := .initial [] 0
  handler := .sigwaitinfo }

/-- The stores of `strcpy` to its destination. -/
def strcpyStores (src : Mem) : List (ℕ × UInt8) :=
  ((str src ++ [0]).zipIdx).map Prod.swap

/-- The stores to the shared name in the backward loop that erases the number. -/
def eraseStores : ℕ → Mem → List (ℕ × UInt8)
  | 0, _ => []
  | i + 1, name =>
    if load name (i + 1) = 95 then [(i + 1, 0)]
    else (i + 1, 0) :: eraseStores i (store name (i + 1) 0)

/-- All stores of `handle_change_name_slave_request` to the shared name. -/
def changeNameStores (self : SlaveContext) (seg : Shmseg) : List (ℕ × UInt8) :=
  let erase := if self.changeNameIdx ≠ 0 then eraseStores (slaveNameSize - 1) self.name else []
  let (self', _, response) := handleChangeNameSlaveRequest self seg
  if response = .ack then erase ++ strcpyStores self'.name else erase

def applyStores (m : Mem) (stores : List (ℕ × UInt8)) : Mem :=
  stores.foldl (fun m (k, b) ↦ store m k b) m

def handlerStep (t : Slot) : Option Slot :=
  match t.handler with
  | .sigwaitinfo =>
    if 0 < t.toSlave then
      some { t with toSlave := t.toSlave - 1, handler := .firstSignalEverSetup }
    else none
  | .firstSignalEverSetup =>
    if t.self.shmseg then some { t with handler := .getvalueSToM }
    else if t.seg.pid = t.slavePid then
      some { t with self.shmseg := true, handler := .getvalueSToM }
    else some { t with handler := .sigwaitinfo }
  | .getvalueSToM =>
    some { t with
      handler := if t.seg.semSToMRequest = 0 then .responsePost else .getvalueMToS }
  | .getvalueMToS =>
    some { t with
      handler := if t.seg.semMToSRequest = 0 then .requestSwitch else .sigwaitinfo }
  | .responsePost =>
    some { t with
      seg.semSToMRequest := t.seg.semSToMRequest + 1
      handler := .sigwaitinfo }
  | .requestSwitch =>
    match t.seg.reqMToS with
    | .connectSlave => some { t with handler := .connect (strcpyStores t.self.name) }
    | .changeSlaveName =>
      let (self, _, response) := handleChangeNameSlaveRequest t.self t.seg
      some { t with
        self := self
        handler := .changeName (changeNameStores t.self t.seg) response }
    | .disconnectSlave =>
      some { t with
        self := handleDisconnectSlaveRequest t.self
        handler := .respond .disconnectSlave .ack }
    | request =>
      some { t with
        seg := setError ⟨"Unrecognized request received!", none⟩ t.seg
        handler := .respond request .nack }
  | .connect ((k, b) :: stores) =>
    some { t with seg.name := store t.seg.name k b, handler := .connect stores }
  | .connect [] =>
    some { t with
      seg.availableParameters := t.self.availableParameters
      handler := .respond .connectSlave .ack }
  | .changeName ((k, b) :: stores) response =>
    some { t with seg.name := store t.seg.name k b, handler := .changeName stores response }
  | .changeName [] response =>
    some { t with
      seg := if response = .ack then t.seg
        else setError ⟨"Change name index overflow!", none⟩ t.seg
      handler := .respond .changeSlaveName response }
  | .respond request response =>
    some { t with seg.resSToM := response, handler := .kill request }
  | .kill request =>
    some { t with
      toMaster := t.toMaster + 1
      handler := if request = .disconnectSlave then .clearPointer else .sigwaitinfo }
  | .clearPointer => some { t with self.shmseg := false, handler := .sigwaitinfo }

/-- A step of the slot's thread outside `must_change_name`, or the one at the end
of it. -/
def Slot.threadStep (mustChange killed : Bool) (t : Slot) : Option Slot :=
  (SlotThread.step 0 mustChange killed ⟨t.seg, t.thread, t.wake⟩).map fun (v, effect) ↦
    { t with
      seg := v.seg
      thread := v.pc
      scan := .slot 0
      wake := v.wake
      toSlave := match effect with
        | .signalled _ => t.toSlave + 1
        | _ => t.toSlave }

/-- A step of `must_change_name` for slot `i`. Slots without owner are skipped, and
`strcmp` stops at the first difference or at the end of both names. -/
def scanStep (i : Idx) (s : State) : Option Slot :=
  match (s i).scan with
  | .slot j =>
    if hj : j < maxSlaves then
      if ⟨j, hj⟩ = i ∨ (s ⟨j, hj⟩).seg.pid = noPid then
        some { s i with scan := .slot (j + 1) }
      else some { s i with scan := .byte ⟨j, hj⟩ 0 }
    else (s i).threadStep false true
  | .byte j n =>
    if load (s i).seg.name n ≠ load (s j).seg.name n then
      some { s i with scan := .slot (j + 1) }
    else if load (s i).seg.name n = 0 then (s i).threadStep true true
    else some { s i with scan := .byte j (n + 1) }

def threadStep (i : Idx) (killed : Bool) (s : State) : Option Slot :=
  match (s i).thread with
  | .mustChangeName _ _ => scanStep i s
  | _ => (s i).threadStep false killed

def syncStep (t : Slot) : Option Slot :=
  match t.sync with
  | .idle => none
  | .write => some { t with seg.reqMToS := .disconnectSlave, sync := .kill }
  | .kill => some { t with toSlave := t.toSlave + 1, sync := .idle }

inductive Event
  | connect (i : Idx) (pid : Pid) (self : SlaveContext)
  | disconnect (i : Idx)
  | sync (i : Idx)
  | thread (i : Idx) (killed : Bool)
  | deliver (i : Idx)
  | handler (i : Idx)
  | request (i : Idx)

/-- What an event changes is the slot it names. A slot is assigned to one slave at a time, in
any context, once the thread of the slave before has returned, and only connected slaves are
disconnected. Of a parameter request only the store of its code is kept: the rest of that
exchange does not come near a name. -/
def slotStep (s : State) : Event → Option Slot
  | .connect i pid self =>
    if (s i).seg.pid = noPid ∧ (s i).thread = .exited ∧ 0 < pid then
      some { s i with
        seg.pid := pid
        thread := .sendSemWait .connectSlave
        slavePid := pid
        self := self
        handler := .sigwaitinfo }
    else none
  | .disconnect i =>
    if (s i).seg.isConnected ∧ (s i).sync = .idle ∧ 0 < (s i).seg.semMToSRequest then
      some { s i with
        seg.semMToSRequest := (s i).seg.semMToSRequest - 1
        sync := .write }
    else none
  | .sync i => syncStep (s i)
  | .thread i killed => threadStep i killed s
  | .deliver i =>
    if 0 < (s i).toMaster then
      some { s i with toMaster := (s i).toMaster - 1, wake := (s i).wake ++ [.response] }
    else none
  | .handler i => handlerStep (s i)
  | .request i =>
    if (s i).seg.isConnected ∧ (s i).self.shmseg then
      some { s i with seg.reqSToM := .signalMasterParameter }
    else none

def Event.idx : Event → Idx
  | .connect i _ _ | .disconnect i | .sync i | .thread i _ | .deliver i | .handler i
  | .request i => i

def step (s : State) (e : Event) : Option State :=
  (slotStep s e).map (update s e.idx)

theorem storeAll_eq_applyStores (m : Mem) (k : ℕ) (bs : List UInt8) :
    applyStores m ((bs.zipIdx k).map Prod.swap) = storeAll m k bs := by
  induction bs generalizing m k with
  | nil => rfl
  | cons b bs ih => exact ih (store m k b) (k + 1)

theorem applyStores_strcpy (dst src : Mem) :
    applyStores dst (strcpyStores src) = strcpy dst src :=
  storeAll_eq_applyStores dst 0 (str src ++ [0])

theorem applyStores_erase (i : ℕ) (name shmName : Mem) :
    applyStores shmName (eraseStores i name) = (eraseSuffix i name shmName).2 := by
  induction i generalizing name shmName with
  | zero => rfl
  | succ i ih =>
    unfold eraseStores eraseSuffix
    split_ifs
    · rfl
    · exact ih (store name (i + 1) 0) (store shmName (i + 1) 0)

theorem applyStores_append (m : Mem) (stores stores' : List (ℕ × UInt8)) :
    applyStores m (stores ++ stores') = applyStores (applyStores m stores) stores' :=
  List.foldl_append

/-- The stores one by one leave the name that the whole handler leaves. -/
theorem applyStores_changeName (self : SlaveContext) (seg : Shmseg) :
    applyStores seg.name (changeNameStores self seg) =
      (handleChangeNameSlaveRequest self seg).2.1.name := by
  unfold changeNameStores handleChangeNameSlaveRequest
  by_cases hidx : self.changeNameIdx = 0
  · simp [hidx, applyStores_strcpy]
  · by_cases hwrap : self.changeNameIdx + 1 < self.changeNameIdx
    · simp [hidx, hwrap, applyStores_erase]
    · simp [hidx, hwrap, applyStores_append, applyStores_erase, applyStores_strcpy]

end RealTimeCyclic.Handshake
