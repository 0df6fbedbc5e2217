import RealTimeCyclic.HandshakeBuffer

namespace RealTimeCyclic.HandshakeData

open Shm CString Slave SlotThread Function Handshake Transition HandshakeNames
open NameBuffer (segment context)
open HandshakeBuffer (namesFit)

def Offered (seg : Shmseg) (c : SlaveContext) : Prop :=
  seg.availableParameters = c.availableParameters

def Described (seg : Shmseg) (c : SlaveContext) : Prop :=
  SameString seg.name c.name ∧ Offered seg c

def naming (request : Request) : Prop := request = .connectSlave ∨ request = .changeSlaveName

def Acknowledged (seg : Shmseg) : Prop := seg.resSToM = .ack ∧ naming seg.reqMToS

def ThreadData (t : Slot) : Prop :=
  match t.thread with
  | .requestErrors _ | .getvalueSToM _ | .getvalueMToS _ | .responseConnected
  | .responseSwitch _ => Acknowledged t.seg → Described t.seg t.self
  | .responseValue isConnected _ =>
    (Acknowledged t.seg → Described t.seg t.self) ∧ (isConnected = false → naming t.seg.reqMToS)
  | .mustChangeName _ _ | .setConnected _ _ => Described t.seg t.self
  | .renamePost | .sendSemWait .changeSlaveName | .sendWrite .changeSlaveName => Offered t.seg t.self
  | .sendKill request => t.seg.reqMToS = request ∧ (request = .changeSlaveName → Offered t.seg t.self)
  | _ => True

def HandlerData (t : Slot) : Prop :=
  match t.handler with
  | .firstSignalEverSetup | .getvalueSToM | .getvalueMToS | .requestSwitch =>
    t.seg.reqMToS = .changeSlaveName → Offered t.seg t.self
  | .connect stores => SameString (applyStores t.seg.name stores) t.self.name
  | .changeName stores .ack => SameString (applyStores t.seg.name stores) t.self.name ∧ Offered t.seg t.self
  | .respond _ .ack => naming t.seg.reqMToS → Described t.seg t.self
  | .kill _ => Acknowledged t.seg → Described t.seg t.self
  | _ => True

structure DataOk (t : Slot) : Prop where
  connected : t.seg.isConnected = true → Described t.seg t.self
  thread : ThreadData t
  handler : HandlerData t
  toSlave : 0 < t.toSlave → t.seg.reqMToS = .changeSlaveName → Offered t.seg t.self
  answer : 0 < t.toMaster ∨ t.wake ≠ [] → Acknowledged t.seg → Described t.seg t.self
  sync : t.sync = .kill → t.seg.reqMToS = .disconnectSlave

/-- Nothing is under way. -/
structure Quiet (t : Slot) : Prop where
  handler : t.handler = .sigwaitinfo ∨ t.handler = .clearPointer
  toSlave : t.toSlave = 0
  toMaster : t.toMaster = 0
  wake : t.wake = []
  sync : t.sync = .idle

theorem Quiet.data {t : Slot} (h : Quiet t) (hconnected : t.seg.isConnected = true → Described t.seg t.self)
    (hthread : ThreadData t) : DataOk t := by
  refine ⟨hconnected, hthread, ?_, ?_, ?_, ?_⟩
  · unfold HandlerData
    rcases h.handler with hpc | hpc <;> simp [hpc]
  · simp [h.toSlave]
  · simp [h.toMaster, h.wake]
  · simp [h.sync]

variable {t t' : Slot}

theorem Described.congr {seg seg' : Shmseg} {c : SlaveContext} (h : Described seg c)
    (hname : seg'.name = seg.name) (hoffers : seg'.availableParameters = seg.availableParameters) :
    Described seg' c := by
  refine ⟨hname ▸ h.1, ?_⟩
  rw [Offered, hoffers]
  exact h.2

/-- What a slave that serves a request can rely on. -/
structure Served (t : Slot) : Prop where
  waits : t.thread = .sigSemWait
  quiet : t.toSlave = 0 ∧ t.toMaster = 0 ∧ t.wake = [] ∧ t.sync = .idle
  request : t.seg.isConnected = true → t.seg.reqMToS = .disconnectSlave
  storing : storing t.handler = true → t.seg.isConnected = false

theorem Served.data (h : Served t) {seg : Shmseg} {self : SlaveContext} {pc : HandlerPc}
    (hconnected : seg.isConnected = true → Described seg self)
    (hhandler : HandlerData { t with seg := seg, self := self, handler := pc }) :
    DataOk { t with seg := seg, self := self, handler := pc } := by
  obtain ⟨htoSlave, htoMaster, hwake, hsync⟩ := h.quiet
  refine ⟨hconnected, ?_, hhandler, ?_, ?_, ?_⟩
  · simp [ThreadData, h.waits]
  · simp [htoSlave]
  · simp [htoMaster, hwake]
  · simp [hsync]

end RealTimeCyclic.HandshakeData
