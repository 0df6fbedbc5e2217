import RealTimeCyclic.Library.Layout
import RealTimeCyclic.Slave

namespace RealTimeCyclic.NameBuffer

open Shm CString Slave Layout

def requestCode : Request → Int
  | .startMaster => 0
  | .stopMaster => 1
  | .createSlave => 2
  | .deleteSlave => 3
  | .connectSlave => 4
  | .disconnectSlave => 5
  | .startSlaveCycle => 6
  | .stopSlaveCycle => 7
  | .printSlaveData => 8
  | .printLogData => 9
  | .automaticTest => 10
  | .changeSlaveName => 11
  | .signalMasterParameter => 12
  | .other code => code

def requestOf (code : Int) : Request :=
  match code with
  | 0 => .startMaster
  | 1 => .stopMaster
  | 2 => .createSlave
  | 3 => .deleteSlave
  | 4 => .connectSlave
  | 5 => .disconnectSlave
  | 6 => .startSlaveCycle
  | 7 => .stopSlaveCycle
  | 8 => .printSlaveData
  | 9 => .printLogData
  | 10 => .automaticTest
  | 11 => .changeSlaveName
  | 12 => .signalMasterParameter
  | code => .other code

def responseCode : Response → Int
  | .nack => 0
  | .ack => 1
  | .other code => code

def responseOf (code : Int) : Response :=
  match code with
  | 0 => .nack
  | 1 => .ack
  | code => .other code

def toWord (n : Int) : ℕ := (n % 2 ^ 32).toNat

def ofWord (w : ℕ) : Int := Int.bmod w (2 ^ 32)

/-- The name in `shmseg_t`. A name of 127 bytes and its number end before `pid`. -/
def segment : Buffer Shmseg where
  size := slaveNameSize
  get seg := seg.name
  set seg name := { seg with name := name }
  fields := [
    ⟨fun seg ↦ toWord (requestCode seg.reqSToM),
      fun seg w ↦ { seg with reqSToM := requestOf (ofWord w) }⟩,
    ⟨fun seg ↦ toWord (responseCode seg.resSToM),
      fun seg w ↦ { seg with resSToM := responseOf (ofWord w) }⟩,
    ⟨fun seg ↦ seg.availableParameters, fun seg w ↦ { seg with availableParameters := w }⟩]
  get_set _ _ := rfl
  set_set _ _ _ := rfl
  set_get _ := rfl

/-- The name in `slave_context_t`. Its last field here is the lower half of `tv_sec`. -/
def context : Buffer SlaveContext where
  size := slaveNameSize
  get self := self.name
  set self name := { self with name := name }
  fields := [
    ⟨fun self ↦ self.changeNameIdx.toNat, fun self w ↦ { self with changeNameIdx := .ofNat w }⟩,
    ⟨fun self ↦ self.availableParameters, fun self w ↦ { self with availableParameters := w }⟩,
    ⟨fun self ↦ toWord self.lastCommunicationTimeval.tvSec, fun self w ↦
      { self with lastCommunicationTimeval.tvSec :=
          self.lastCommunicationTimeval.tvSec - toWord self.lastCommunicationTimeval.tvSec + w }⟩]
  get_set _ _ := rfl
  set_set _ _ _ := rfl
  set_get _ := rfl

def handleConnectSlaveRequest (self : SlaveContext) (seg : Shmseg) : Shmseg :=
  { segment.storeAll seg 0 (str (context.bytes self) ++ [0]) with
    availableParameters := self.availableParameters }

def erased (self : SlaveContext) (seg : Shmseg) : SlaveContext × Shmseg :=
  let names := if self.changeNameIdx ≠ 0
    then eraseSuffix (slaveNameSize - 1) self.name seg.name
    else (self.name, seg.name)
  ({ self with name := names.1 }, { seg with name := names.2 })

def newName (self : SlaveContext) (seg : Shmseg) : List UInt8 :=
  str (segment.bytes (erased self seg).2) ++ [95] ++ decimal (self.changeNameIdx + 1).toNat

def handleChangeNameSlaveRequest (self : SlaveContext) (seg : Shmseg) :
    SlaveContext × Shmseg × Response :=
  let (self', seg') := erased self seg
  if self.changeNameIdx + 1 < self.changeNameIdx then
    (self', setError ⟨"Change name index overflow!", none⟩ seg', .nack)
  else
    let self' := context.storeAll { self' with changeNameIdx := self.changeNameIdx + 1 } 0
      (newName self seg ++ [0])
    (self', segment.storeAll seg' 0 (str (context.bytes self') ++ [0]), .ack)

/-- The name a slave is given next has room for its terminator, or the index has come to its
end. -/
def renameFits (self : SlaveContext) (seg : Shmseg) : Bool :=
  self.changeNameIdx + 1 < self.changeNameIdx ∨ (newName self seg).length < slaveNameSize

def Ends (m : Mem) : Prop := ∀ k, slaveNameSize - 1 ≤ k → load m k = 0

section Ends

variable {m name shmName src : Mem} {s : List UInt8}

theorem Ends.last (h : Ends m) : load m (slaveNameSize - 1) = 0 := h _ le_rfl

theorem Ends.str_length (h : Ends m) : (str m).length < slaveNameSize := by
  by_contra hlong
  have hlt : slaveNameSize - 1 < (str m).length := by
    rw [slaveNameSize] at hlong ⊢
    omega
  have hmem := load_mem hlt
  rw [load_str hlt.le, h.last] at hmem
  exact zero_not_mem_str m hmem

theorem Ends.sameString_segment {seg : Shmseg} (h : Ends seg.name) :
    SameString (segment.bytes seg) seg.name :=
  Buffer.sameString_bytes (l := segment) (show slaveNameSize - 1 < slaveNameSize by decide) h.last

theorem Ends.sameString_context {self : SlaveContext} (h : Ends self.name) :
    SameString (context.bytes self) self.name :=
  Buffer.sameString_bytes (l := context) (show slaveNameSize - 1 < slaveNameSize by decide) h.last

theorem Ends.str_segment {seg : Shmseg} (h : Ends seg.name) :
    str (segment.bytes seg) = str seg.name :=
  str_eq_of_sameString h.sameString_segment

theorem Ends.str_context {self : SlaveContext} (h : Ends self.name) :
    str (context.bytes self) = str self.name :=
  str_eq_of_sameString h.sameString_context

theorem Ends.store (h : Ends m) {k : ℕ} {b : UInt8} (hb : slaveNameSize - 1 ≤ k → b = 0) :
    Ends (store m k b) := by
  intro j hj
  rw [load_store]
  split_ifs with heq
  · exact hb (heq ▸ hj)
  · exact h j hj

theorem Ends.eraseSuffix (h : Ends name) (h' : Ends shmName) (i : ℕ) :
    Ends (eraseSuffix i name shmName).1 ∧ Ends (eraseSuffix i name shmName).2 := by
  induction i generalizing name shmName with
  | zero => exact ⟨h, h'⟩
  | succ i ih =>
    have hname := h.store (k := i + 1) fun _ ↦ rfl
    have hshm := h'.store (k := i + 1) fun _ ↦ rfl
    unfold Slave.eraseSuffix
    split_ifs
    · exact ⟨hname, hshm⟩
    · exact ih hname hshm

theorem Ends.storeAll (h : Ends m) (hs : s.length < slaveNameSize) :
    Ends (storeAll m 0 (s ++ [0])) := by
  intro k hk
  rw [load_storeAll, List.length_append, List.length_singleton, Nat.sub_zero]
  split_ifs with hin
  · obtain rfl : k = s.length := by omega
    rw [load_append_right le_rfl, Nat.sub_self, load_cons_zero]
  · exact h k hk

theorem Ends.strcpy (h : Ends m) (hsrc : Ends src) : Ends (strcpy m src) :=
  h.storeAll hsrc.str_length

theorem storeAll_segment (seg : Shmseg) (hs : s.length < slaveNameSize) :
    segment.storeAll seg 0 (s ++ [0]) =
      { seg with name := CString.storeAll seg.name 0 (s ++ [0]) } :=
  Buffer.storeAll_of_le (by rw [Nat.zero_add, List.length_append]; exact hs)

theorem storeAll_context (self : SlaveContext) (hs : s.length < slaveNameSize) :
    context.storeAll self 0 (s ++ [0]) =
      { self with name := CString.storeAll self.name 0 (s ++ [0]) } :=
  Buffer.storeAll_of_le (by rw [Nat.zero_add, List.length_append]; exact hs)

theorem setError_ends (error : SlaveError) {seg : Shmseg} (h : Ends seg.name) :
    Ends (setError error seg).name := by
  unfold setError
  split
  · exact h
  · exact h

theorem initial_ends {availableParameters : ℕ} (h : (str name).length < slaveNameSize) :
    Ends (SlaveContext.initial name availableParameters).name := by
  have hbytes : SameBytes (CString.strcpy [] name) (str name) :=
    sameBytes_storeAll fun k _ ↦ load_nil k
  intro k hk
  rw [SlaveContext.initial, hbytes, load_eq_zero (hk.trans' (Nat.le_sub_one_of_lt h))]

end Ends

section Fits

variable {self : SlaveContext} {seg : Shmseg}

theorem erased_ends (hself : Ends self.name) (hseg : Ends seg.name) :
    Ends (erased self seg).1.name ∧ Ends (erased self seg).2.name := by
  unfold erased
  split_ifs
  · exact hself.eraseSuffix hseg _
  · exact ⟨hself, hseg⟩

theorem handleConnect_of_ends (hself : Ends self.name) :
    handleConnectSlaveRequest self seg = Slave.handleConnectSlaveRequest self seg := by
  unfold handleConnectSlaveRequest
  rw [hself.str_context, storeAll_segment seg hself.str_length]
  rfl

theorem newName_length (hwrap : ¬ self.changeNameIdx + 1 < self.changeNameIdx)
    (hfits : renameFits self seg = true) : (newName self seg).length < slaveNameSize := by
  simpa [renameFits, hwrap] using hfits

/-- A name that fits is given as in a buffer without end. -/
theorem handleChangeName_of_fits (hself : Ends self.name) (hseg : Ends seg.name)
    (hfits : renameFits self seg = true) :
    handleChangeNameSlaveRequest self seg = Slave.handleChangeNameSlaveRequest self seg := by
  obtain ⟨hself', hseg'⟩ := erased_ends hself hseg
  have hname : newName self seg =
      str (erased self seg).2.name ++ [95] ++ decimal (self.changeNameIdx + 1).toNat := by
    rw [newName, hseg'.str_segment]
  unfold handleChangeNameSlaveRequest Slave.handleChangeNameSlaveRequest
  by_cases hwrap : self.changeNameIdx + 1 < self.changeNameIdx
  · simp only [if_pos hwrap, erased]
  · have hlt := newName_length hwrap hfits
    let given : SlaveContext := { (erased self seg).1 with
      name := storeAll (erased self seg).1.name 0 (newName self seg ++ [0])
      changeNameIdx := self.changeNameIdx + 1 }
    have hgiven : Ends given.name := hself'.storeAll hlt
    have hstored : context.storeAll
        { (erased self seg).1 with changeNameIdx := self.changeNameIdx + 1 } 0
          (newName self seg ++ [0]) = given := storeAll_context _ hlt
    simp only [if_neg hwrap]
    rw [hstored, hgiven.str_context, storeAll_segment _ hgiven.str_length]
    simp only [given, hname, erased, strcpy]

theorem changeName_ends (hself : Ends self.name) (hseg : Ends seg.name)
    (hfits : renameFits self seg = true) :
    Ends (Slave.handleChangeNameSlaveRequest self seg).1.name ∧
      Ends (Slave.handleChangeNameSlaveRequest self seg).2.1.name := by
  obtain ⟨hself', hseg'⟩ := erased_ends hself hseg
  rw [← handleChangeName_of_fits hself hseg hfits]
  unfold handleChangeNameSlaveRequest
  by_cases hwrap : self.changeNameIdx + 1 < self.changeNameIdx
  · simp only [if_pos hwrap]
    exact ⟨hself', setError_ends _ hseg'⟩
  · have hlt := newName_length hwrap hfits
    have hgiven := hself'.storeAll hlt
    simp only [if_neg hwrap]
    rw [storeAll_context _ hlt, Ends.str_context hgiven, storeAll_segment _ hgiven.str_length]
    exact ⟨hgiven, hseg'.storeAll hgiven.str_length⟩

end Fits

end RealTimeCyclic.NameBuffer
