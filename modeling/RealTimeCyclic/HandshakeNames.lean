import RealTimeCyclic.Handshake

namespace RealTimeCyclic.HandshakeNames

open Shm CString Slave SlotThread Function Handshake Transition

def DistinctNames (s : State) : Prop :=
  ∀ i j, i ≠ j → (s i).seg.isConnected = true → (s j).seg.isConnected = true →
    ¬ SameString (s i).seg.name (s j).seg.name

def busyHandler : HandlerPc → ℕ
  | .sigwaitinfo | .clearPointer => 0
  | _ => 1

def busySync : SyncPc → ℕ
  | .idle => 0
  | _ => 1

def tokens (t : Slot) : ℕ :=
  t.wake.length + t.toMaster + t.toSlave + busyHandler t.handler + busySync t.sync

def storing : HandlerPc → Bool
  | .connect _ | .changeName _ _ => true
  | _ => false

def awaited (t : Slot) : Prop := t.sync = .kill ∨ 0 < t.toSlave ∨ busyHandler t.handler = 1

/-- What is left to the slave and the sync thread while the thread waits. -/
structure WaitingOk (t : Slot) : Prop where
  single : tokens t ≤ 1
  connected : t.seg.isConnected = true → t.seg.semMToSRequest = 0 ∨ tokens t = 0
  request : t.seg.isConnected = true → awaited t → t.seg.reqMToS = .disconnectSlave
  storing : storing t.handler = true → t.seg.isConnected = false

def ThreadOk (t : Slot) : Prop :=
  match t.thread with
  | .exited | .resetAnswer _ | .resetNotify _ =>
    tokens t = 0 ∧ t.seg.isConnected = false ∧ 0 < t.seg.semSToMRequest ∧
      t.seg.semMToSRequest ≤ 1
  | .sendSemWait _ | .sendWrite _ | .sendKill _ =>
    tokens t = 0 ∧ t.seg.isConnected = false ∧ 0 < t.seg.semSToMRequest ∧
      t.seg.semMToSRequest ≤ 1 ∧ t.seg.pid ≠ noPid
  | .sigSemWait =>
    WaitingOk t ∧ 0 < t.seg.semSToMRequest ∧ t.seg.semMToSRequest ≤ 1 ∧ t.seg.pid ≠ noPid
  | .requestErrors _ | .getvalueSToM _ | .getvalueMToS _ =>
    tokens t = 0 ∧ (t.seg.isConnected = true → t.seg.semMToSRequest = 0) ∧
      0 < t.seg.semSToMRequest ∧ t.seg.semMToSRequest ≤ 1 ∧ t.seg.pid ≠ noPid
  -- the slave sends no parameters
  | .requestConnected _ | .requestSwitch _ | .requestAck _ | .requestKill _ => False
  | .responseConnected | .forward _ _ _ | .notify _ | .post =>
    tokens t = 0 ∧ t.seg.semMToSRequest = 0 ∧ 0 < t.seg.semSToMRequest ∧ t.seg.pid ≠ noPid
  | .responseSwitch isConnected | .responseValue isConnected _ =>
    tokens t = 0 ∧ t.seg.semMToSRequest = 0 ∧ 0 < t.seg.semSToMRequest ∧ t.seg.pid ≠ noPid ∧
      t.seg.isConnected = isConnected
  | .mustChangeName _ _ | .renamePost | .setConnected _ _ =>
    tokens t = 0 ∧ t.seg.semMToSRequest = 0 ∧ 0 < t.seg.semSToMRequest ∧ t.seg.pid ≠ noPid ∧
      t.seg.isConnected = false
  | .resetMemset _ =>
    tokens t = 0 ∧ (t.seg.isConnected = true → t.seg.semMToSRequest = 0) ∧ t.seg.pid ≠ noPid
  | .resetInit _ | .resetDrainMToS _ =>
    tokens t = 0 ∧ t.seg.isConnected = false ∧ t.seg.semMToSRequest ≤ 1
  | .resetPostMToS _ =>
    tokens t = 0 ∧ t.seg.isConnected = false ∧ t.seg.semMToSRequest = 0
  | .resetDrainSToM _ | .resetPostSToM _ =>
    tokens t = 0 ∧ t.seg.isConnected = false ∧ t.seg.semMToSRequest ≤ 1

theorem not_awaited {t : Slot} (h : tokens t = 0) : ¬ awaited t := by
  unfold tokens at h
  rintro (hkill | hsent | hbusy)
  · simp [hkill, busySync] at h
  · omega
  · omega

theorem waitingOk_of_idle {t : Slot} (h : tokens t = 0) : WaitingOk t := by
  refine ⟨h.le.trans zero_le_one, fun _ ↦ .inr h, fun _ ha ↦ absurd ha (not_awaited h), ?_⟩
  intro hstoring
  have hbusy : busyHandler t.handler = 1 := by
    cases hh : t.handler <;> simp_all [storing, busyHandler]
  exact absurd (.inr (.inr hbusy)) (not_awaited h)

theorem waitingOk_of_not_connected {t : Slot} (h : tokens t ≤ 1)
    (hconnected : t.seg.isConnected = false) : WaitingOk t := by
  refine ⟨h, ?_, ?_, fun _ ↦ hconnected⟩
  · intro hc
    rw [hconnected] at hc
    cases hc
  · intro hc
    rw [hconnected] at hc
    cases hc

theorem WaitingOk.woken {t : Slot} {signal : Signal} {wake : List Signal} (h : WaitingOk t)
    (hwake : t.wake = signal :: wake) :
    tokens { t with wake := wake } = 0 ∧
      (t.seg.isConnected = true → t.seg.semMToSRequest = 0) := by
  have htokens := h.single
  simp only [tokens, hwake, List.length_cons] at htokens ⊢
  refine ⟨by omega, fun hc ↦ (h.connected hc).resolve_right ?_⟩
  simp only [tokens, hwake, List.length_cons]
  omega

theorem threadStep_move {t t' : Slot} {mustChange killed : Bool}
    (hs : t.threadStep mustChange killed = some t') :
    ∃ v effect, Move 0 mustChange killed t.seg t.thread t.wake v effect ∧
      t' = { t with
        seg := v.seg
        thread := v.pc
        scan := .slot 0
        wake := v.wake
        toSlave := match effect with
          | .signalled _ => t.toSlave + 1
          | _ => t.toSlave } := by
  obtain ⟨⟨v, effect⟩, hv, rfl⟩ := Option.map_eq_some_iff.mp hs
  exact ⟨v, effect, step_move hv, rfl⟩

theorem threadStep_ok {t t' : Slot} {mustChange killed : Bool} (h : ThreadOk t)
    (hs : t.threadStep mustChange killed = some t') : ThreadOk t' := by
  obtain ⟨v, effect, hmove, rfl⟩ := threadStep_move hs
  cases hmove with
  | jumped hjump =>
    cases hjump with
    | requestDecoded hpc hzero =>
      simp only [ThreadOk, hpc] at h
      exact absurd hzero h.2.2.1.ne'
    | requestAccepted hpc | requestRefused hpc | requestUnrecognized hpc =>
      simp [ThreadOk, hpc] at h
    | responseDecoded hpc hzero =>
      simp only [ThreadOk, hpc] at h
      exact ⟨h.1, hzero, h.2.2.1, h.2.2.2.2⟩
    | nothingUnhandled hpc | renameUnsent hpc =>
      simp only [ThreadOk, hpc] at h
      exact ⟨waitingOk_of_idle h.1, h.2.2⟩
    | _ hpc =>
      simp only [ThreadOk, hpc] at h ⊢
      simp_all [tokens]
  | woken hpc hwake =>
    simp only [ThreadOk, hpc] at h
    obtain ⟨htokens, hconnected⟩ := h.1.woken hwake
    exact ⟨htokens, hconnected, h.2⟩
  | sent hpc =>
    simp only [ThreadOk, hpc] at h
    obtain ⟨htokens, hconnected, hsem⟩ := h
    refine ⟨waitingOk_of_not_connected ?_ hconnected, hsem⟩
    simp only [tokens] at htokens ⊢
    omega
  | errorsHandled hpc herrors =>
    have hseg := SameControl.of_errors herrors
    simp only [ThreadOk, hpc] at h ⊢
    simpa only [tokens, hseg.isConnected, hseg.semMToSRequest, hseg.semSToMRequest, hseg.pid]
      using h
  | received hpc | acknowledged hpc | acknowledgeSent hpc => simp [ThreadOk, hpc] at h
  | posted hpc =>
    simp only [ThreadOk, hpc] at h
    obtain ⟨htokens, hzero, hsem, hpid⟩ := h
    exact ⟨waitingOk_of_idle htokens, hsem, by rw [hzero], hpid⟩
  | zeroed hpc =>
    simp only [ThreadOk, hpc] at h
    exact ⟨h.1, rfl, zero_le_one⟩
  | initialized hpc =>
    simp only [ThreadOk, hpc] at h
    exact h
  | _ hpc =>
    simp only [ThreadOk, hpc] at h ⊢
    simp_all [tokens]

/-- While anything is under way the thread waits. -/
theorem ThreadOk.waits {t : Slot} (h : ThreadOk t) (htokens : 0 < tokens t) :
    t.thread = .sigSemWait := by
  cases hpc : t.thread with
  | sigSemWait => rfl
  | requestConnected signal | requestSwitch signal | requestAck signal | requestKill signal =>
    simp [ThreadOk, hpc] at h
  | _ =>
    simp only [ThreadOk, hpc] at h
    exact absurd h.1 htokens.ne'

/-- The semaphore of a connected slot can only be taken between two commands. -/
theorem ThreadOk.idle_of_posted {t : Slot} (h : ThreadOk t) (hc : t.seg.isConnected = true)
    (hpos : 0 < t.seg.semMToSRequest) : t.thread = .sigSemWait ∧ tokens t = 0 := by
  have hne := hpos.ne'
  cases hpc : t.thread with
  | sigSemWait =>
    simp only [ThreadOk, hpc] at h
    exact ⟨rfl, (h.1.connected hc).resolve_left hne⟩
  | _ => simp_all [ThreadOk]

theorem ThreadOk.mono {t t' : Slot} (h : ThreadOk t) (hthread : t'.thread = t.thread)
    (hconnected : t'.seg.isConnected = t.seg.isConnected)
    (hsem : t'.seg.semMToSRequest = t.seg.semMToSRequest)
    (hsem' : t.seg.semSToMRequest ≤ t'.seg.semSToMRequest) (hpid : t'.seg.pid = t.seg.pid)
    (htokens : tokens t' ≤ tokens t) (hwaiting : WaitingOk t → WaitingOk t') : ThreadOk t' := by
  have hzero (h₀ : tokens t = 0) : tokens t' = 0 := Nat.le_zero.mp (h₀ ▸ htokens)
  have hpos (h₀ : 0 < t.seg.semSToMRequest) : 0 < t'.seg.semSToMRequest := h₀.trans_le hsem'
  cases hpc : t.thread with
  | sigSemWait =>
    simp only [ThreadOk, hthread, hpc, hsem, hpid] at h ⊢
    exact ⟨hwaiting h.1, hpos h.2.1, h.2.2⟩
  | requestConnected signal | requestSwitch signal | requestAck signal | requestKill signal =>
    simp [ThreadOk, hpc] at h
  | _ =>
    simp only [ThreadOk, hthread, hpc, hsem, hpid, hconnected] at h ⊢
    simp_all

/-- What the steps of the slave leave alone. -/
structure HandlerFrame (t t' : Slot) : Prop where
  thread : t'.thread = t.thread
  scan : t'.scan = t.scan
  isConnected : t'.seg.isConnected = t.seg.isConnected
  semMToSRequest : t'.seg.semMToSRequest = t.seg.semMToSRequest
  semSToMRequest : t.seg.semSToMRequest ≤ t'.seg.semSToMRequest
  pid : t'.seg.pid = t.seg.pid
  reqMToS : t'.seg.reqMToS = t.seg.reqMToS
  name : storing t.handler = false → t'.seg.name = t.seg.name
  tokens : HandshakeNames.tokens t' ≤ HandshakeNames.tokens t
  awaited : HandshakeNames.awaited t' → HandshakeNames.awaited t
  storing : HandshakeNames.storing t'.handler = true → HandshakeNames.storing t.handler = true ∨
    (t.handler = .requestSwitch ∧ t.seg.reqMToS ≠ .disconnectSlave)

theorem handlerStep_frame {t t' : Slot} (hs : handlerStep t = some t') : HandlerFrame t t' := by
  unfold handlerStep at hs
  cases hpc : t.handler with
  | sigwaitinfo =>
    simp only [hpc] at hs
    split_ifs at hs with hpos
    obtain rfl := Option.some.inj hs
    constructor <;> simp [tokens, awaited, hpc, busyHandler, storing]
    · omega
    · exact .inr hpos
  | clearPointer | firstSignalEverSetup | getvalueSToM | getvalueMToS | responsePost
  | respond request response | kill request =>
    simp only [hpc] at hs
    try split_ifs at hs
    all_goals
      obtain rfl := Option.some.inj hs
      constructor <;> simp [tokens, awaited, hpc, busyHandler, storing]
      try omega
  | connect stores =>
    cases stores
    all_goals
      simp only [hpc] at hs
      obtain rfl := Option.some.inj hs
      constructor <;> simp [tokens, awaited, hpc, busyHandler, storing]
  | changeName stores response =>
    cases stores with
    | cons store stores =>
      simp only [hpc] at hs
      obtain rfl := Option.some.inj hs
      constructor <;> simp [tokens, awaited, hpc, busyHandler, storing]
    | nil =>
      simp only [hpc] at hs
      obtain rfl := Option.some.inj hs
      have hseg : SameControl (if response = .ack then t.seg
          else setError ⟨"Change name index overflow!", none⟩ t.seg) t.seg := by
        split
        · exact .refl t.seg
        · exact setError_sameControl _ t.seg
      constructor <;> simp [tokens, awaited, hpc, busyHandler, storing, hseg.isConnected,
        hseg.semMToSRequest, hseg.semSToMRequest, hseg.pid, hseg.reqMToS]
  | requestSwitch =>
    simp only [hpc] at hs
    have hseg := setError_sameControl ⟨"Unrecognized request received!", none⟩ t.seg
    split at hs
    all_goals
      obtain rfl := Option.some.inj hs
      constructor <;> simp_all [tokens, awaited, busyHandler, storing, hseg.isConnected,
        hseg.semMToSRequest, hseg.semSToMRequest, hseg.pid, hseg.reqMToS]

theorem handlerStep_ok {t t' : Slot} (h : ThreadOk t) (hs : handlerStep t = some t') :
    ThreadOk t' := by
  have hf := handlerStep_frame hs
  refine h.mono hf.thread hf.isConnected hf.semMToSRequest hf.semSToMRequest hf.pid hf.tokens ?_
  intro hw
  refine ⟨hf.tokens.trans hw.single, ?_, ?_, ?_⟩
  · intro hc
    rw [hf.semMToSRequest]
    refine (hw.connected (hf.isConnected ▸ hc)).imp_right fun hzero ↦ ?_
    exact Nat.le_zero.mp (hf.tokens.trans hzero.le)
  · intro hc ha
    rw [hf.reqMToS]
    exact hw.request (hf.isConnected ▸ hc) (hf.awaited ha)
  · intro hstoring
    rw [hf.isConnected]
    rcases hf.storing hstoring with hold | ⟨hswitch, hne⟩
    · exact hw.storing hold
    · by_contra hc
      have ha : awaited t := .inr (.inr (by rw [hswitch]; rfl))
      exact hne (hw.request (Bool.not_eq_false _ ▸ hc) ha)

theorem syncStep_ok {t t' : Slot} (h : ThreadOk t) (hs : syncStep t = some t') : ThreadOk t' := by
  cases hsync : t.sync with
  | idle => simp [syncStep, hsync] at hs
  | write =>
    simp only [syncStep, hsync] at hs
    obtain rfl := Option.some.inj hs
    have htokens : tokens { t with
        seg.reqMToS := .disconnectSlave
        sync := .kill } = tokens t := by
      simp [tokens, hsync, busySync]
    refine h.mono rfl rfl rfl le_rfl rfl htokens.le ?_
    intro hw
    exact ⟨htokens ▸ hw.single, fun hc ↦ htokens ▸ hw.connected hc, fun _ _ ↦ rfl, hw.storing⟩
  | kill =>
    simp only [syncStep, hsync] at hs
    obtain rfl := Option.some.inj hs
    have htokens : tokens { t with toSlave := t.toSlave + 1, sync := .idle } = tokens t := by
      simp only [tokens, hsync, busySync]
      omega
    refine h.mono rfl rfl rfl le_rfl rfl htokens.le ?_
    intro hw
    exact ⟨htokens ▸ hw.single, fun hc ↦ htokens ▸ hw.connected hc,
      fun hc _ ↦ hw.request hc (.inl hsync), hw.storing⟩

theorem deliver_ok {t : Slot} (h : ThreadOk t) (hpos : 0 < t.toMaster) :
    ThreadOk { t with toMaster := t.toMaster - 1, wake := t.wake ++ [.response] } := by
  have htokens : tokens { t with toMaster := t.toMaster - 1, wake := t.wake ++ [.response] } =
      tokens t := by
    simp only [tokens, List.length_append, List.length_singleton]
    omega
  refine h.mono rfl rfl rfl le_rfl rfl htokens.le ?_
  intro hw
  exact ⟨htokens ▸ hw.single, fun hc ↦ htokens ▸ hw.connected hc, hw.request, hw.storing⟩

theorem disconnect_ok {t : Slot} (h : ThreadOk t) (hc : t.seg.isConnected = true)
    (hpos : 0 < t.seg.semMToSRequest) :
    ThreadOk { t with
      seg.semMToSRequest := t.seg.semMToSRequest - 1
      sync := .write } := by
  obtain ⟨hpc, hidle⟩ := h.idle_of_posted hc hpos
  simp only [ThreadOk, hpc] at h ⊢
  obtain ⟨hw, hsem, hle, hpid⟩ := h
  have hna := not_awaited hidle
  have htaken : t.seg.semMToSRequest - 1 = 0 := by omega
  refine ⟨⟨?_, fun _ ↦ .inl htaken, ?_, hw.storing⟩, hsem, htaken.le.trans zero_le_one, hpid⟩
  · simp only [tokens] at hidle ⊢
    have hbusy : busySync .write = 1 := rfl
    omega
  · rintro - (hkill | hsent | hbusy)
    · cases hkill
    · exact absurd (.inr (.inl hsent)) hna
    · exact absurd (.inr (.inr hbusy)) hna

theorem connect_ok {t : Slot} (h : ThreadOk t) (hpc : t.thread = .exited) {pid : Pid}
    (hpos : 0 < pid) (self : SlaveContext) :
    ThreadOk { t with
      seg.pid := pid
      thread := .sendSemWait .connectSlave
      slavePid := pid
      self := self
      handler := .sigwaitinfo } := by
  simp only [ThreadOk, hpc] at h ⊢
  obtain ⟨htokens, hconnected, hsem, hle⟩ := h
  refine ⟨?_, hconnected, hsem, hle, ?_⟩
  · simp only [tokens] at htokens ⊢
    have hbusy : busyHandler .sigwaitinfo = 0 := rfl
    omega
  · rintro rfl
    cases hpos

def scanIndex : Scan → ℕ
  | .slot j | .byte j _ => j

/-- `must_change_name` has told the name of the slot from the one in slot `j`, and
the name has not changed since. -/
def Passed (t : Slot) (j : Idx) : Prop :=
  t.seg.isConnected = true ∨
    match t.thread with
    | .setConnected _ _ => True
    | .mustChangeName _ _ => j.val < scanIndex t.scan
    | _ => False

def ScanOk (t : Slot) : Prop :=
  ∀ request k j n, t.thread = .mustChangeName request k → t.scan = .byte j n →
    ∀ m < n, load t.seg.name m ≠ 0

structure NamesInv (s : State) : Prop where
  thread : ∀ i, ThreadOk (s i)
  scan : ∀ i, ScanOk (s i)
  distinct : ∀ i j, i ≠ j → Passed (s i) j → Passed (s j) i →
    ¬ SameString (s i).seg.name (s j).seg.name

theorem ThreadOk.assigned {t : Slot} (h : ThreadOk t) {j : Idx} (hp : Passed t j) :
    t.seg.pid ≠ noPid := by
  cases hpc : t.thread <;> simp_all [ThreadOk, Passed]

/-- One slot changes. The slots it has newly passed have another name, or have not
passed it. -/
theorem NamesInv.update {s : State} (h : NamesInv s) {i : Idx} {t : Slot} (ht : ThreadOk t)
    (hscan : ScanOk t)
    (hpassed : ∀ j, j ≠ i → Passed t j → (Passed (s i) j ∧ t.seg.name = (s i).seg.name) ∨
      ¬ Passed (s j) i ∨ ¬ SameString t.seg.name (s j).seg.name) :
    NamesInv (update s i t) := by
  have hpair (j : Idx) (hj : j ≠ i) (hp : Passed t j) (hp' : Passed (s j) i) :
      ¬ SameString t.seg.name (s j).seg.name := by
    rcases hpassed j hj hp with ⟨hold, hname⟩ | hno | hdiffer
    · rw [hname]
      exact h.distinct i j hj.symm hold hp'
    · exact absurd hp' hno
    · exact hdiffer
  refine ⟨fun k ↦ ?_, fun k ↦ ?_, fun k l hkl hk hl ↦ ?_⟩
  · rcases eq_or_ne k i with rfl | hk
    · rwa [update_self]
    · rw [update_of_ne hk]
      exact h.thread k
  · rcases eq_or_ne k i with rfl | hk
    · rwa [update_self]
    · rw [update_of_ne hk]
      exact h.scan k
  · rcases eq_or_ne k i with rfl | hki
    · rw [update_self] at hk ⊢
      rw [update_of_ne hkl.symm] at hl ⊢
      exact hpair l hkl.symm hk hl
    · rw [update_of_ne hki] at hk ⊢
      rcases eq_or_ne l i with rfl | hli
      · rw [update_self] at hl ⊢
        exact fun hsame ↦ hpair k hki hl hk hsame.symm
      · rw [update_of_ne hli] at hl ⊢
        exact h.distinct k l hkl hk hl

/-- A slot passes others only in `must_change_name`, and keeps its name then. -/
theorem passed_of_threadStep {t t' : Slot} {mustChange killed : Bool} {j : Idx}
    (h : ThreadOk t) (hs : t.threadStep mustChange killed = some t') (hp : Passed t' j) :
    t'.seg.name = t.seg.name ∧
      (t.seg.isConnected = true ∨ (∃ request k, t.thread = .setConnected request k) ∨
        ∃ request k, t.thread = .mustChangeName request k ∧ mustChange = false) := by
  obtain ⟨v, effect, hmove, rfl⟩ := threadStep_move hs
  cases hmove with
  | jumped hjump => cases hjump <;> simp_all [Passed, scanIndex]
  | errorsHandled hpc herrors =>
    rcases herrors with rfl | rfl <;> simp_all [Passed, handleSlaveRequestErrors]
  | received hpc => simp [ThreadOk, hpc] at h
  | _ => simp_all [Passed, Shmseg.zero, initSlaveShmsegSharedMemory]

theorem threadStep_scan {t t' : Slot} {mustChange killed : Bool}
    (hs : t.threadStep mustChange killed = some t') : ScanOk t' := by
  obtain ⟨⟨v, effect⟩, -, rfl⟩ := Option.map_eq_some_iff.mp hs
  intro request k j n _ hscan
  cases hscan

theorem scanStep_inv {s : State} {i : Idx} {t : Slot} {request : Request} {k : ℕ}
    (h : NamesInv s) (hpc : (s i).thread = .mustChangeName request k)
    (hs : scanStep i s = some t) : NamesInv (update s i t) := by
  have hok := h.thread i
  have hmoved (scan : Scan) : ThreadOk { s i with scan := scan } := by
    simp only [ThreadOk, hpc] at hok ⊢
    exact hok
  have hpassed {j : Idx} (scan : Scan) (hp : Passed { s i with scan := scan } j) :
      j.val < scanIndex scan := by
    simp only [ThreadOk, hpc] at hok
    simpa [Passed, hpc, hok.2.2.2.2] using hp
  have hbefore {j : Idx} (hj : j.val < scanIndex (s i).scan) : Passed (s i) j := by
    simp [Passed, hpc, hj]
  unfold scanStep at hs
  cases hscan : (s i).scan with
  | slot j =>
    simp only [hscan] at hs
    split_ifs at hs with hj hskip
    · obtain rfl := Option.some.inj hs
      refine h.update (hmoved _) (fun _ _ j' n _ hbyte ↦ by cases hbyte) fun j' hj' hp ↦ ?_
      have hlt : j'.val < j + 1 := hpassed _ hp
      rcases Nat.lt_succ_iff_lt_or_eq.mp hlt with hold | hnew
      · exact .inl ⟨hbefore (hscan ▸ hold), rfl⟩
      · -- the slot was skipped because it has no owner
        have heq : (⟨j, hj⟩ : Idx) = j' := Fin.ext hnew.symm
        rw [heq] at hskip
        have hfree := hskip.resolve_left hj'
        exact .inr (.inl fun hp' ↦ (h.thread j').assigned hp' hfree)
    · obtain rfl := Option.some.inj hs
      refine h.update (hmoved _) (fun _ _ j' n _ hbyte m hm ↦ ?_) fun j' _ hp ↦ ?_
      · obtain ⟨-, rfl⟩ := Scan.byte.inj hbyte
        cases hm
      · exact .inl ⟨hbefore (hscan ▸ hpassed _ hp), rfl⟩
    · refine h.update (threadStep_ok hok hs) (threadStep_scan hs) fun j' _ hp ↦ .inl ⟨?_, ?_⟩
      · exact hbefore (hscan ▸ j'.isLt.trans_le (not_lt.mp hj))
      · exact (passed_of_threadStep hok hs hp).1
  | byte j n =>
    simp only [hscan] at hs
    have hprefix := h.scan i request k j n hpc hscan
    split_ifs at hs with hdiffer hend
    · obtain rfl := Option.some.inj hs
      refine h.update (hmoved _) (fun _ _ j' n' _ hbyte ↦ by cases hbyte) fun j' _ hp ↦ ?_
      have hlt : j'.val < j.val + 1 := hpassed _ hp
      rcases Nat.lt_succ_iff_lt_or_eq.mp hlt with hold | hnew
      · exact .inl ⟨hbefore (hscan ▸ hold), rfl⟩
      · obtain rfl : j' = j := Fin.ext hnew
        exact .inr (.inr (not_sameString_of_ne hprefix hdiffer))
    · refine h.update (threadStep_ok hok hs) (threadStep_scan hs) fun j' _ hp ↦ ?_
      have hconnected : (s i).seg.isConnected = false := by
        simp only [ThreadOk, hpc] at hok
        exact hok.2.2.2.2
      have hthree := (passed_of_threadStep hok hs hp).2
      simp [hconnected, hpc] at hthree
    · obtain rfl := Option.some.inj hs
      refine h.update (hmoved _) (fun _ _ j' n' _ hbyte m hm ↦ ?_) fun j' _ hp ↦ ?_
      · obtain ⟨-, rfl⟩ := Scan.byte.inj hbyte
        rcases Nat.lt_succ_iff_lt_or_eq.mp hm with hold | rfl
        · exact hprefix m hold
        · exact hend
      · exact .inl ⟨hbefore (hscan ▸ hpassed _ hp), rfl⟩

theorem threadStep_inv {s : State} {i : Idx} {killed : Bool} {t : Slot} (h : NamesInv s)
    (hs : threadStep i killed s = some t) : NamesInv (update s i t) := by
  unfold threadStep at hs
  split at hs
  · rename_i hpc
    exact scanStep_inv h hpc hs
  · rename_i hno
    have hok := h.thread i
    refine h.update (threadStep_ok hok hs) (threadStep_scan hs) fun j _ hp ↦ .inl ?_
    obtain ⟨hname, hconnected | ⟨request, k, hpc⟩ | ⟨request, k, hpc, -⟩⟩ :=
      passed_of_threadStep hok hs hp
    · exact ⟨.inl hconnected, hname⟩
    · exact ⟨.inr (by rw [hpc]; trivial), hname⟩
    · exact absurd hpc (hno request k)

theorem NamesInv.keep {s : State} (h : NamesInv s) {i : Idx} {t : Slot} (ht : ThreadOk t)
    (hthread : t.thread = (s i).thread) (hscan : t.scan = (s i).scan)
    (hconnected : t.seg.isConnected = (s i).seg.isConnected)
    (hname : storing (s i).handler = false → t.seg.name = (s i).seg.name) :
    NamesInv (Function.update s i t) := by
  have hok := h.thread i
  have hpassed (j : Idx) (hp : Passed t j) : Passed (s i) j := by
    unfold Passed at hp ⊢
    rwa [← hthread, ← hscan, ← hconnected]
  -- a slave that writes its name has not been checked
  have hidle (hstoring : storing (s i).handler = true) :
      (s i).thread = .sigSemWait ∧ (s i).seg.isConnected = false := by
    have hbusy : 0 < tokens (s i) := by
      cases hh : (s i).handler <;> simp_all [storing, tokens, busyHandler]
    have hpc := hok.waits hbusy
    simp only [ThreadOk, hpc] at hok
    exact ⟨hpc, hok.1.storing hstoring⟩
  cases hstoring : storing (s i).handler with
  | false =>
    refine h.update ht ?_ fun j _ hp ↦ .inl ⟨hpassed j hp, hname hstoring⟩
    intro request k j n hpc hbyte
    rw [hname hstoring]
    exact h.scan i request k j n (hthread ▸ hpc) (hscan ▸ hbyte)
  | true =>
    obtain ⟨hpc, hno⟩ := hidle hstoring
    refine h.update ht ?_ fun j _ hp ↦ ?_
    · intro request k j n hpc'
      rw [hthread, hpc] at hpc'
      cases hpc'
    · have hp' := hpassed j hp
      simp [Passed, hpc, hno] at hp'

theorem step_inv {s t : State} {e : Event} (h : NamesInv s) (hs : step s e = some t) :
    NamesInv t := by
  obtain ⟨u, hu, rfl⟩ := Option.map_eq_some_iff.mp hs
  cases e with
  | connect i pid self =>
    obtain ⟨⟨-, hpc, hpos⟩, hu⟩ := Option.ite_none_right_eq_some.mp hu
    obtain rfl := Option.some.inj hu
    have hok := h.thread i
    refine h.update (connect_ok hok hpc hpos self) ?_ fun j _ hp ↦ ?_
    · intro request k j n hscan
      cases hscan
    · simp only [ThreadOk, hpc] at hok
      simp [Passed, hok.2.1] at hp
  | disconnect i =>
    obtain ⟨⟨hc, -, hpos⟩, hu⟩ := Option.ite_none_right_eq_some.mp hu
    obtain rfl := Option.some.inj hu
    exact h.keep (disconnect_ok (h.thread i) hc hpos) rfl rfl rfl fun _ ↦ rfl
  | sync i =>
    have hok := syncStep_ok (h.thread i) hu
    cases hsync : (s i).sync with
    | idle => simp [slotStep, syncStep, hsync] at hu
    | write | kill =>
      simp only [slotStep, syncStep, hsync] at hu
      obtain rfl := Option.some.inj hu
      exact h.keep hok rfl rfl rfl fun _ ↦ rfl
  | thread i killed => exact threadStep_inv h hu
  | deliver i =>
    obtain ⟨hpos, hu⟩ := Option.ite_none_right_eq_some.mp hu
    obtain rfl := Option.some.inj hu
    exact h.keep (deliver_ok (h.thread i) hpos) rfl rfl rfl fun _ ↦ rfl
  | handler i =>
    have hf := handlerStep_frame hu
    exact h.keep (handlerStep_ok (h.thread i) hu) hf.thread hf.scan hf.isConnected hf.name
  | request i =>
    obtain ⟨-, hu⟩ := Option.ite_none_right_eq_some.mp hu
    obtain rfl := Option.some.inj hu
    have hok : ThreadOk { s i with seg.reqSToM := .signalMasterParameter } :=
      (h.thread i).mono rfl rfl rfl le_rfl rfl le_rfl fun hw ↦
        ⟨hw.single, hw.connected, hw.request, hw.storing⟩
    exact h.keep hok rfl rfl rfl fun _ ↦ rfl

theorem initial_inv : NamesInv initial := by
  refine ⟨?_, ?_, ?_⟩
  · intro i
    simp [ThreadOk, initial, tokens, busyHandler, busySync, Shmseg.initial,
      initSlaveShmsegSharedMemory, Shmseg.zero]
  · intro i request k j n hpc
    cases hpc
  · intro i j _ hp
    simp [Passed, initial, Shmseg.initial, initSlaveShmsegSharedMemory, Shmseg.zero] at hp

theorem distinctNames {s : State} (h : Reaches step unrestricted initial s) :
    DistinctNames s := by
  have hinv : NamesInv s := h.invariant initial_inv fun _ _ _ hinv _ ↦ step_inv hinv
  intro i j hij hi hj
  exact hinv.distinct i j hij (.inl hi) (.inl hj)

/-- Two slaves with the name `a` connect at the same time. The first is told to
change its name before the second one is checked. -/
def namesakesRun : List Event :=
  [Event.connect 4 100 (.initial [97] 7), Event.connect 5 101 (.initial [97] 7)] ++
    List.replicate 3 (Event.thread 4 true) ++ List.replicate 3 (Event.thread 5 true) ++
    List.replicate 10 (Event.handler 4) ++ List.replicate 10 (Event.handler 5) ++
    [Event.deliver 4, Event.deliver 5] ++ List.replicate 19 (Event.thread 4 true) ++
    List.replicate 12 (Event.handler 4) ++ List.replicate 46 (Event.thread 5 true) ++
    [Event.deliver 4] ++ List.replicate 46 (Event.thread 4 true)

def connectedNames (s : State) : List (Option (List UInt8)) :=
  [s 4, s 5].map fun t ↦ if t.seg.isConnected then some (str t.seg.name) else none

end RealTimeCyclic.HandshakeNames
