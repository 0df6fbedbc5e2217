import RealTimeCyclic.HandshakeBuffer
import RealTimeCyclic.SlaveName

namespace RealTimeCyclic.HandshakeLockstep

open Shm CString Slave SlotThread Function Handshake Transition
open SlaveName (Named renamed)
open NameBuffer (Ends segment renameFits)
open HandshakeBuffer (namesFit)

/-- No slave is connected and none comes. -/
def contending (s : State) (e : Event) : Prop :=
  namesFit s e = true ∧ (∀ k, (s k).seg.isConnected = false) ∧
    ∀ k pid self, e ≠ .connect k pid self

/-- A slot whose slave has just answered a naming request for the `n`-th time, that has not
been connected yet. -/
structure Answering (base : List UInt8) (n : ℕ) (t : Slot) : Prop where
  thread : t.thread = .sigSemWait
  scan : t.scan = .slot 0
  wake : t.wake = []
  toMaster : t.toMaster = 1
  toSlave : t.toSlave = 0
  handler : t.handler = .sigwaitinfo
  attached : t.self.shmseg = true
  connected : t.seg.isConnected = false
  semMToS : t.seg.semMToSRequest = 0
  semSToM : t.seg.semSToMRequest = 1
  request : t.seg.reqMToS = .connectSlave ∨ t.seg.reqMToS = .changeSlaveName
  response : t.seg.resSToM = .ack
  errors : t.seg.shmsegErrorCurrentSize = 0
  pid : t.seg.pid ≠ noPid
  named : Named base n t.self t.seg

/-- Two slaves that have been renamed `n` times, and nobody else. -/
structure Lockstep (base : List UInt8) (n : ℕ) (i j : Idx) (s : State) : Prop where
  first : Answering base n (s i)
  second : Answering base n (s j)
  others : ∀ k, k ≠ i → k ≠ j → (s k).seg.pid = noPid
  connected : ∀ k, (s k).seg.isConnected = false

section Slot

variable {s : State} {i : Idx} {t u v : Slot}

def Leads (s : State) (i : Idx) (t u : Slot) : Prop :=
  Reaches Handshake.step contending (update s i t) (update s i u)

theorem Leads.trans (h : Leads s i t u) (h' : Leads s i u v) : Leads s i t v := Reaches.trans h h'

theorem update_unconnected (hs : ∀ k, k ≠ i → (s k).seg.isConnected = false)
    (ht : t.seg.isConnected = false) (k : Idx) : (update s i t k).seg.isConnected = false := by
  rcases eq_or_ne k i with rfl | hk
  · rwa [update_self]
  · rw [update_of_ne hk]
    exact hs k hk

variable (hothers : ∀ k, k ≠ i → (s k).seg.isConnected = false)
  (ht : t.seg.isConnected = false)

include hothers ht

theorem leads_of_step (e : Event) (hi : e.idx = i) (hcome : ∀ k pid self, e ≠ .connect k pid self)
    (hfits : namesFit (update s i t) e = true) (hs : slotStep (update s i t) e = some u) :
    Leads s i t u := by
  have hstep : Handshake.step (update s i t) e = some (update s i u) := by
    rw [Handshake.step, hs, Option.map_some, hi, update_idem]
  exact .next .start ⟨hfits, update_unconnected hothers ht, hcome⟩ hstep

theorem leads_handler (hfits : t.handler = .requestSwitch → t.seg.reqMToS = .changeSlaveName →
    renameFits t.self t.seg = true) (hs : handlerStep t = some u) : Leads s i t u := by
  have hslot : slotStep (update s i t) (.handler i) = some u := by
    rw [slotStep, update_self, hs]
  refine leads_of_step hothers ht _ rfl (by rintro _ _ _ ⟨⟩) ?_ hslot
  simp only [namesFit, update_self]
  split
  · rename_i hpc hrequest
    exact hfits hpc hrequest
  · rfl

theorem leads_thread (hscan : ∀ request k, t.thread ≠ .mustChangeName request k)
    (hs : t.threadStep false true = some u) : Leads s i t u := by
  have hslot : slotStep (update s i t) (.thread i true) = some u := by
    rw [slotStep, threadStep, update_self]
    split
    · rename_i hpc
      exact absurd hpc (hscan _ _)
    · exact hs
  exact leads_of_step hothers ht _ rfl (by rintro _ _ _ ⟨⟩) rfl hslot

theorem leads_scan {scan : Scan} {request : Request} {k : ℕ}
    (hpc : t.thread = .mustChangeName request k)
    (hs : scanStep i (update s i { t with scan := scan }) = some u) :
    Leads s i { t with scan := scan } u := by
  have hslot : slotStep (update s i { t with scan := scan }) (.thread i true) = some u := by
    rw [slotStep, threadStep, update_self]
    split
    · exact hs
    · rename_i hno
      exact absurd hpc (hno request k)
  exact leads_of_step hothers ht _ rfl (by rintro _ _ _ ⟨⟩) rfl hslot

theorem leads_stores {response : Response} (stores : List (ℕ × UInt8))
    (hpc : t.handler = .changeName stores response) :
    Leads s i t { t with
      seg.name := applyStores t.seg.name stores
      handler := .changeName [] response } := by
  induction stores generalizing t with
  | nil =>
    have ht : t = { t with
        seg.name := applyStores t.seg.name []
        handler := .changeName [] response } := by
      rw [← hpc]
      rfl
    rw [← ht]
    exact .start
  | cons store stores ih =>
    obtain ⟨k, b⟩ := store
    have hs : handlerStep t = some { t with
        seg.name := CString.store t.seg.name k b
        handler := .changeName stores response } := by
      simp [handlerStep, hpc]
    exact (leads_handler hothers ht (by simp [hpc]) hs).trans (ih ht rfl)

theorem leads_rename (htoSlave : t.toSlave = 1) (hpc : t.handler = .sigwaitinfo)
    (hattached : t.self.shmseg = true) (hsemMToS : t.seg.semMToSRequest = 0)
    (hsemSToM : t.seg.semSToMRequest = 1) (hrequest : t.seg.reqMToS = .changeSlaveName)
    (hack : (handleChangeNameSlaveRequest t.self t.seg).2.2 = .ack)
    (hfits : renameFits t.self t.seg = true) :
    Leads s i t { t with
      seg.name := (handleChangeNameSlaveRequest t.self t.seg).2.1.name
      seg.resSToM := .ack
      self := (handleChangeNameSlaveRequest t.self t.seg).1
      toSlave := 0
      toMaster := t.toMaster + 1
      handler := .sigwaitinfo } := by
  have received : Leads s i t { t with toSlave := 0, handler := .firstSignalEverSetup } :=
    leads_handler hothers ht (by simp [hpc]) (by simp [handlerStep, hpc, htoSlave])
  refine received.trans ?_
  have setup : Leads s i { t with toSlave := 0, handler := .firstSignalEverSetup }
      { t with toSlave := 0, handler := .getvalueSToM } :=
    leads_handler hothers ht (by simp) (by simp [handlerStep, hattached])
  refine setup.trans ?_
  have excluded : Leads s i { t with toSlave := 0, handler := .getvalueSToM }
      { t with toSlave := 0, handler := .getvalueMToS } :=
    leads_handler hothers ht (by simp) (by simp [handlerStep, hsemSToM])
  refine excluded.trans ?_
  have decoded : Leads s i { t with toSlave := 0, handler := .getvalueMToS }
      { t with toSlave := 0, handler := .requestSwitch } :=
    leads_handler hothers ht (by simp) (by simp [handlerStep, hsemMToS])
  refine decoded.trans ?_
  have dispatched : Leads s i { t with toSlave := 0, handler := .requestSwitch }
      { t with
        self := (handleChangeNameSlaveRequest t.self t.seg).1
        toSlave := 0
        handler := .changeName (changeNameStores t.self t.seg) .ack } :=
    leads_handler hothers ht (fun _ _ ↦ hfits) (by simp [handlerStep, hrequest, hack])
  refine dispatched.trans ?_
  refine (leads_stores (t := { t with
    self := (handleChangeNameSlaveRequest t.self t.seg).1
    toSlave := 0
    handler := .changeName (changeNameStores t.self t.seg) .ack }) hothers ht _ rfl).trans ?_
  rw [applyStores_changeName]
  generalize handleChangeNameSlaveRequest t.self t.seg = r
  have renamed : Leads s i
      { t with
        seg.name := r.2.1.name
        self := r.1
        toSlave := 0
        handler := .changeName [] .ack }
      { t with
        seg.name := r.2.1.name
        self := r.1
        toSlave := 0
        handler := .respond .changeSlaveName .ack } :=
    leads_handler hothers ht (by simp) rfl
  refine renamed.trans ?_
  have responded : Leads s i
      { t with
        seg.name := r.2.1.name
        self := r.1
        toSlave := 0
        handler := .respond .changeSlaveName .ack }
      { t with
        seg.name := r.2.1.name
        seg.resSToM := .ack
        self := r.1
        toSlave := 0
        handler := .kill .changeSlaveName } :=
    leads_handler hothers ht (by simp) rfl
  exact responded.trans (leads_handler hothers ht (by simp) rfl)

theorem leads_skip {request : Request} {k m : ℕ} {j : Idx}
    (hpc : t.thread = .mustChangeName request k) (hm : m ≤ j)
    (hfree : ∀ l, l < j → l ≠ i → (s l).seg.pid = noPid) :
    Leads s i { t with scan := .slot m } { t with scan := .slot j } := by
  induction hm using Nat.decreasingInduction with
  | self => exact .start
  | of_succ m hm ih =>
    have hlt : m < maxSlaves := hm.trans j.isLt
    have hskip : scanStep i (update s i { t with scan := .slot m }) =
        some { t with scan := .slot (m + 1) } := by
      have hcond : (⟨m, hlt⟩ : Idx) = i ∨
          (update s i { t with scan := .slot m } ⟨m, hlt⟩).seg.pid = noPid := by
        by_cases hi : (⟨m, hlt⟩ : Idx) = i
        · exact .inl hi
        · rw [update_of_ne hi]
          exact .inr (hfree _ hm hi)
      simp only [scanStep, update_self, dif_pos hlt, if_pos hcond]
    exact (leads_scan hothers ht hpc hskip).trans ih

theorem leads_compare {request : Request} {k n : ℕ} {j : Idx} {name : List UInt8}
    (hpc : t.thread = .mustChangeName request k) (hij : j ≠ i) (h0 : (0 : UInt8) ∉ name)
    (hown : SameBytes t.seg.name name) (hother : SameBytes (s j).seg.name name)
    (hn : n ≤ name.length) :
    Leads s i { t with scan := .byte j n } { t with scan := .byte j name.length } := by
  induction hn using Nat.decreasingInduction with
  | self => exact .start
  | of_succ n hn ih =>
    have hne : load t.seg.name n ≠ 0 := by
      rw [hown n]
      exact fun he ↦ h0 (he ▸ load_mem hn)
    have hnext : scanStep i (update s i { t with scan := .byte j n }) =
        some { t with scan := .byte j (n + 1) } := by
      simp only [scanStep, update_self, update_of_ne hij]
      rw [if_neg (by rw [hown n, hother n]; simp), if_neg hne]
    exact (leads_scan hothers ht hpc hnext).trans ih

theorem leads_taken {request : Request} {k : ℕ} {j : Idx} {name : List UInt8}
    (hpc : t.thread = .mustChangeName request k) (hscan : t.scan = .slot 0) (hij : j ≠ i)
    (h0 : (0 : UInt8) ∉ name) (hown : SameBytes t.seg.name name)
    (hother : SameBytes (s j).seg.name name) (hpid : (s j).seg.pid ≠ noPid)
    (hfree : ∀ l, l ≠ i → l ≠ j → (s l).seg.pid = noPid) :
    Leads s i t { t with thread := .renamePost, scan := .slot 0 } := by
  have hstart : t = { t with scan := .slot (0 : ℕ) } := by
    rw [← hscan]
  rw [hstart]
  refine (leads_skip hothers ht hpc (Nat.zero_le j) fun l hl hi ↦ hfree l hi hl.ne).trans ?_
  have hentered : scanStep i (update s i { t with scan := .slot j }) =
      some { t with scan := .byte j 0 } := by
    have hcond : ¬ (j = i ∨ (update s i { t with scan := .slot j } j).seg.pid = noPid) := by
      rw [update_of_ne hij]
      exact not_or.mpr ⟨hij, hpid⟩
    simp only [scanStep, update_self, dif_pos j.isLt, Fin.eta, if_neg hcond]
  refine (leads_scan hothers ht hpc hentered).trans ?_
  refine (leads_compare hothers ht hpc hij h0 hown hother (Nat.zero_le _)).trans ?_
  apply leads_scan hothers ht hpc
  have hend : load t.seg.name name.length = 0 := by
    rw [hown, load_eq_zero le_rfl]
  have hend' : load (s j).seg.name name.length = 0 := by
    rw [hother, load_eq_zero le_rfl]
  simp only [scanStep, update_self, update_of_ne hij]
  rw [if_neg (by rw [hend, hend']; simp), if_pos hend]
  simp [Slot.threadStep, SlotThread.step, hpc]

def handling (t : Slot) (pc : Pc) : Slot :=
  { t with toMaster := 0, wake := [], thread := pc, scan := .slot 0 }

omit ht in
theorem leads_request {base : List UInt8} {n : ℕ} {j : Idx} {name : List UInt8}
    (h : Answering base n t) (hij : j ≠ i) (h0 : (0 : UInt8) ∉ name)
    (hown : SameBytes t.seg.name name) (hother : SameBytes (s j).seg.name name)
    (hpid : (s j).seg.pid ≠ noPid) (hfree : ∀ l, l ≠ i → l ≠ j → (s l).seg.pid = noPid) :
    Leads s i t { t with seg.reqMToS := .changeSlaveName, toMaster := 0, toSlave := 1 } := by
  have ht := h.connected
  obtain ⟨hpc, hscan, hwake, htoMaster, htoSlave, -, -, hconnected, hsemMToS, hsemSToM, hrequest,
    hresponse, herrors, -, -⟩ := h
  have delivered : Leads s i t { t with toMaster := 0, wake := [.response] } :=
    leads_of_step hothers ht (.deliver i) rfl (by rintro _ _ _ ⟨⟩) rfl (by simp [slotStep, htoMaster, hwake])
  refine delivered.trans ?_
  have woken : Leads s i { t with toMaster := 0, wake := [.response] }
      (handling t (.requestErrors .response)) :=
    leads_thread hothers ht (by simp [hpc]) (by simp [Slot.threadStep, SlotThread.step, hpc, handling])
  refine woken.trans ?_
  have hnone : slaveRequestHasErrors t.seg = false := by simp [slaveRequestHasErrors, herrors]
  have checked : Leads s i (handling t (.requestErrors .response))
      (handling t (.getvalueSToM .response)) :=
    leads_thread hothers ht (by simp [handling]) (by simp [Slot.threadStep, SlotThread.step, hnone, handling])
  refine checked.trans ?_
  have excluded : Leads s i (handling t (.getvalueSToM .response))
      (handling t (.getvalueMToS .response)) :=
    leads_thread hothers ht (by simp [handling])
      (by simp [Slot.threadStep, SlotThread.step, hsemSToM, handling])
  refine excluded.trans ?_
  have decoded : Leads s i (handling t (.getvalueMToS .response))
      (handling t .responseConnected) :=
    leads_thread hothers ht (by simp [handling])
      (by simp [Slot.threadStep, SlotThread.step, hsemMToS, handling])
  refine decoded.trans ?_
  have unconnected : Leads s i (handling t .responseConnected)
      (handling t (.responseSwitch false)) :=
    leads_thread hothers ht (by simp [handling])
      (by simp [Slot.threadStep, SlotThread.step, hconnected, handling])
  refine unconnected.trans ?_
  have recognized : Leads s i (handling t (.responseSwitch false))
      (handling t (.responseValue false t.seg.reqMToS)) := by
    refine leads_thread hothers ht (by simp [handling]) ?_
    rcases hrequest with hr | hr <;> simp [Slot.threadStep, SlotThread.step, hr, handling]
  refine recognized.trans ?_
  have acknowledged : Leads s i (handling t (.responseValue false t.seg.reqMToS))
      (handling t (.mustChangeName t.seg.reqMToS 0)) :=
    leads_thread hothers ht (by simp [handling])
      (by simp [Slot.threadStep, SlotThread.step, hresponse, handling])
  refine acknowledged.trans ?_
  have taken : Leads s i (handling t (.mustChangeName t.seg.reqMToS 0)) (handling t .renamePost) :=
    leads_taken hothers ht rfl rfl hij h0 hown hother hpid hfree
  refine taken.trans ?_
  have posted : Leads s i (handling t .renamePost)
      { handling t (.sendSemWait .changeSlaveName) with seg.semMToSRequest := 1 } :=
    leads_thread hothers ht (by simp [handling])
      (by simp [Slot.threadStep, SlotThread.step, hsemMToS, handling])
  refine posted.trans ?_
  have acquired : Leads s i
      { handling t (.sendSemWait .changeSlaveName) with seg.semMToSRequest := 1 }
      (handling t (.sendWrite .changeSlaveName)) :=
    leads_thread hothers ht (by simp [handling])
      (by simp [Slot.threadStep, SlotThread.step, ← hsemMToS, handling])
  refine acquired.trans ?_
  have requested : Leads s i (handling t (.sendWrite .changeSlaveName))
      { handling t (.sendKill .changeSlaveName) with seg.reqMToS := .changeSlaveName } :=
    leads_thread hothers ht (by simp [handling]) (by simp [Slot.threadStep, SlotThread.step, handling])
  refine requested.trans ?_
  refine leads_thread hothers ht (by simp [handling]) ?_
  simp [Slot.threadStep, SlotThread.step, handling, htoSlave, hpc, hscan, hwake]

end Slot

section Round

variable {base : List UInt8} {n : ℕ} {i j : Idx} {s : State} {t : Slot}

def asked (t : Slot) : Slot :=
  { t with seg.reqMToS := .changeSlaveName, toMaster := 0, toSlave := 1 }

def answered (t : Slot) : Slot :=
  { t with
    seg.name := (handleChangeNameSlaveRequest t.self t.seg).2.1.name
    seg.resSToM := .ack
    self := (handleChangeNameSlaveRequest t.self t.seg).1
    toSlave := 0
    toMaster := t.toMaster + 1
    handler := .sigwaitinfo }

theorem reaches_of_leads {u : Slot} (h : Leads s i (s i) u) :
    Reaches Handshake.step contending s (update s i u) := by
  unfold Leads at h
  rwa [update_eq_self] at h

theorem Answering.rename (h : Answering base n t) (hbase : base ≠ []) (h0 : (0 : UInt8) ∉ base)
    (hn : n + 1 < 4294967296) (hlen : (renamed base (n + 1)).length < slaveNameSize) :
    Named base (n + 1) (handleChangeNameSlaveRequest (asked t).self (asked t).seg).1
        (handleChangeNameSlaveRequest (asked t).self (asked t).seg).2.1 ∧
      (handleChangeNameSlaveRequest (asked t).self (asked t).seg).2.2 = .ack := by
  have hnamed : Named base n (asked t).self (asked t).seg :=
    ⟨h.named.index, h.named.context, h.named.segment⟩
  exact hnamed.rename hbase h0 hn hlen

theorem Answering.fits (h : Answering base n t) (hbase : base ≠ []) (h0 : (0 : UInt8) ∉ base)
    (hn : n + 1 < 4294967296) (hlen : (renamed base (n + 1)).length < slaveNameSize) :
    renameFits t.self t.seg = true := by
  have hshort : (renamed base n).length < slaveNameSize :=
    (SlaveName.length_renamed_mono n.le_succ).trans_lt hlen
  have hbaseShort : base.length < slaveNameSize := by
    have hmono : (renamed base 0).length ≤ (renamed base n).length :=
      SlaveName.length_renamed_mono (Nat.zero_le _)
    rw [SlaveName.renamed_zero] at hmono
    exact hmono.trans_lt hshort
  rcases herase : (if t.self.changeNameIdx ≠ 0
    then eraseSuffix (slaveNameSize - 1) t.self.name t.seg.name
    else (t.self.name, t.seg.name)) with ⟨name, shmName⟩
  obtain ⟨-, hsegment⟩ := h.named.erase hbase hshort herase
  have herased : (NameBuffer.erased t.self t.seg).2.name = shmName := by
    rw [NameBuffer.erased, herase]
  have hends : Ends (NameBuffer.erased t.self t.seg).2.name := by
    intro k hk
    rw [herased, hsegment, load_eq_zero (hk.trans' (Nat.le_sub_one_of_lt hbaseShort))]
  have hname : NameBuffer.newName t.self t.seg = renamed base (n + 1) := by
    have hsucc : (t.self.changeNameIdx + 1).toNat = n + 1 := by
      rw [SlaveName.toNat_succ (by rw [h.named.index]; exact hn), h.named.index]
    rw [NameBuffer.newName, hends.str_segment, herased, str_of_sameBytes hsegment h0, hsucc,
      SlaveName.renamed_text n.succ_ne_zero]
  simp [renameFits, hname, hlen]

theorem leads_answered (hothers : ∀ k, k ≠ i → (s k).seg.isConnected = false)
    (h : Answering base n t) (hbase : base ≠ []) (h0 : (0 : UInt8) ∉ base)
    (hn : n + 1 < 4294967296) (hlen : (renamed base (n + 1)).length < slaveNameSize) :
    Leads s i (asked t) (answered (asked t)) :=
  leads_rename hothers h.connected rfl h.handler h.attached h.semMToS h.semSToM rfl
    (h.rename hbase h0 hn hlen).2 (h.fits hbase h0 hn hlen)

theorem Answering.next (h : Answering base n t) (hbase : base ≠ []) (h0 : (0 : UInt8) ∉ base)
    (hn : n + 1 < 4294967296) (hlen : (renamed base (n + 1)).length < slaveNameSize) :
    Answering base (n + 1) (answered (asked t)) := by
  obtain ⟨hrenamed, -⟩ := h.rename hbase h0 hn hlen
  have hpointer := handleChangeName_pointer (asked t).self (asked t).seg
  exact ⟨h.thread, h.scan, h.wake, rfl, rfl, rfl, hpointer.trans h.attached, h.connected, h.semMToS,
    h.semSToM, .inr rfl, rfl, h.errors, h.pid, ⟨hrenamed.index, hrenamed.context, hrenamed.segment⟩⟩

/-- Both threads check their slave's name before either slave changes it. -/
theorem Lockstep.next (h : Lockstep base n i j s) (hij : i ≠ j) (hbase : base ≠ [])
    (h0 : (0 : UInt8) ∉ base) (hn : n + 1 < 4294967296)
    (hlen : (renamed base (n + 1)).length < slaveNameSize) :
    ∃ s', Reaches Handshake.step contending s s' ∧ Lockstep base (n + 1) i j s' := by
  have h0' := SlaveName.zero_not_mem_renamed h0 n
  have askedFirst : Reaches Handshake.step contending s (update s i (asked (s i))) :=
    reaches_of_leads (leads_request (fun k _ ↦ h.connected k) h.first hij.symm h0'
      h.first.named.segment h.second.named.segment h.second.pid h.others)
  have hc₁ := update_unconnected (i := i) (t := asked (s i)) (fun k _ ↦ h.connected k) h.first.connected
  generalize hs₁ : update s i (asked (s i)) = s₁ at askedFirst hc₁
  have hi₁ : s₁ i = asked (s i) := by rw [← hs₁, update_self]
  have hother₁ (k : Idx) (hk : k ≠ i) : s₁ k = s k := by rw [← hs₁, update_of_ne hk]
  have askedSecond : Reaches Handshake.step contending s₁ (update s₁ j (asked (s j))) := by
    apply reaches_of_leads
    rw [hother₁ j hij.symm]
    refine leads_request (fun k _ ↦ hc₁ k) h.second hij h0' h.second.named.segment ?_ ?_
      fun l hj hi ↦ ?_
    · rw [hi₁]
      exact h.first.named.segment
    · rw [hi₁]
      exact h.first.pid
    · rw [hother₁ l hi]
      exact h.others l hi hj
  have hc₂ := update_unconnected (i := j) (t := asked (s j)) (fun k _ ↦ hc₁ k) h.second.connected
  generalize hs₂ : update s₁ j (asked (s j)) = s₂ at askedSecond hc₂
  have hi₂ : s₂ i = asked (s i) := by rw [← hs₂, update_of_ne hij, hi₁]
  have hj₂ : s₂ j = asked (s j) := by rw [← hs₂, update_self]
  have hother₂ (k : Idx) (hi : k ≠ i) (hj : k ≠ j) : s₂ k = s k := by
    rw [← hs₂, update_of_ne hj, hother₁ k hi]
  have answeredFirst : Reaches Handshake.step contending s₂
      (update s₂ i (answered (asked (s i)))) := by
    apply reaches_of_leads
    rw [hi₂]
    exact leads_answered (fun k _ ↦ hc₂ k) h.first hbase h0 hn hlen
  have hc₃ := update_unconnected (i := i) (t := answered (asked (s i))) (fun k _ ↦ hc₂ k)
    h.first.connected
  generalize hs₃ : update s₂ i (answered (asked (s i))) = s₃ at answeredFirst hc₃
  have answeredSecond : Reaches Handshake.step contending s₃
      (update s₃ j (answered (asked (s j)))) := by
    apply reaches_of_leads
    have hj₃ : s₃ j = asked (s j) := by rw [← hs₃, update_of_ne hij.symm, hj₂]
    rw [hj₃]
    exact leads_answered (fun k _ ↦ hc₃ k) h.second hbase h0 hn hlen
  refine ⟨_, askedFirst.trans (askedSecond.trans (answeredFirst.trans answeredSecond)), ?_, ?_,
    fun k hi hj ↦ ?_, update_unconnected (fun k _ ↦ hc₃ k) h.second.connected⟩
  · rw [update_of_ne hij, ← hs₃, update_self]
    exact h.first.next hbase h0 hn hlen
  · rw [update_self]
    exact h.second.next hbase h0 hn hlen
  · rw [update_of_ne hj, ← hs₃, update_of_ne hi, hother₂ k hi hj]
    exact h.others k hi hj

end Round

section Start

variable {name : Mem} {availableParameters : ℕ} {pid : Pid} {s : State} {i j : Idx} {t : Slot}

/-- No slave is connected, the one name is all that slaves come with, and only two slots are
given away. -/
def namesakes (name : Mem) (i j : Idx) (s : State) (e : Event) : Prop :=
  namesFit s e = true ∧ (∀ k, (s k).seg.isConnected = false) ∧
    ∀ k pid self, e = .connect k pid self → (k = i ∨ k = j) ∧ self = .initial name 0

theorem namesakes_of_contending {e : Event} (h : contending s e) : namesakes name i j s e :=
  ⟨h.1, h.2.1, fun k pid self he ↦ absurd he (h.2.2 k pid self)⟩

theorem leads_connectStores (hothers : ∀ k, k ≠ i → (s k).seg.isConnected = false)
    (ht : t.seg.isConnected = false) (stores : List (ℕ × UInt8)) (hpc : t.handler = .connect stores) :
    Leads s i t { t with
      seg.name := applyStores t.seg.name stores
      handler := .connect [] } := by
  induction stores generalizing t with
  | nil =>
    have ht : t = { t with seg.name := applyStores t.seg.name [], handler := .connect [] } := by
      rw [← hpc]
      rfl
    rw [← ht]
    exact .start
  | cons store stores ih =>
    obtain ⟨k, b⟩ := store
    have hs : handlerStep t = some { t with
        seg.name := CString.store t.seg.name k b
        handler := .connect stores } := by
      simp [handlerStep, hpc]
    exact (leads_handler hothers ht (by simp [hpc]) hs).trans (ih ht rfl)

def assigned (self : SlaveContext) (pid : Pid) (thread : Pc) (toSlave : ℕ)
    (handler : HandlerPc) : Slot where
  seg := { Shmseg.initial with
    pid := pid
    reqMToS := .connectSlave
    semMToSRequest := 0 }
  thread := thread
  scan := .slot 0
  wake := []
  sync := .idle
  toMaster := 0
  toSlave := toSlave
  slavePid := pid
  self := self
  handler := handler

def connectAnswered (self : SlaveContext) (pid : Pid) : Slot :=
  let t := assigned { self with shmseg := true } pid .sigSemWait 0 .sigwaitinfo
  { t with
    seg.name := strcpy [] self.name
    seg.availableParameters := self.availableParameters
    seg.resSToM := .ack
    toMaster := 1 }

theorem reaches_connected {k : Idx} (hk : k = i ∨ k = j) (hs : s k = initial k) (hpos : 0 < pid)
    (hc : ∀ l, (s l).seg.isConnected = false) (hname : (str name).length < slaveNameSize) :
    Reaches Handshake.step (namesakes name i j) s
      (update s k (connectAnswered (.initial name 0) pid)) := by
  generalize hself : SlaveContext.initial name 0 = self
  have hfirst : self.shmseg = false := hself ▸ rfl
  have hothers (l : Idx) (_ : l ≠ k) : (s l).seg.isConnected = false := hc l
  have claimed : Reaches Handshake.step (namesakes name i j) s (update s k { initial k with
      seg.pid := pid
      thread := .sendSemWait .connectSlave
      slavePid := pid
      self := self }) := by
    refine .next (e := .connect k pid self) .start ⟨?_, hc, ?_⟩ ?_
    · exact HandshakeBuffer.all_drop_iff.mpr (hself ▸ NameBuffer.initial_ends hname)
    · rintro _ _ _ ⟨⟩
      exact ⟨hk, hself.symm⟩
    · simp [Handshake.step, slotStep, hs, initial, Shmseg.initial, initSlaveShmsegSharedMemory,
        hpos, Event.idx]
  have acquired : Leads s k
      { initial k with
        seg.pid := pid
        thread := .sendSemWait .connectSlave
        slavePid := pid
        self := self }
      { initial k with
        seg.pid := pid
        seg.semMToSRequest := 0
        thread := .sendWrite .connectSlave
        slavePid := pid
        self := self } :=
    leads_thread hothers rfl (by simp) rfl
  have requested : Leads s k
      { initial k with
        seg.pid := pid
        seg.semMToSRequest := 0
        thread := .sendWrite .connectSlave
        slavePid := pid
        self := self }
      (assigned self pid (.sendKill .connectSlave) 0 .sigwaitinfo) :=
    leads_thread hothers rfl (by simp) rfl
  have sent : Leads s k (assigned self pid (.sendKill .connectSlave) 0 .sigwaitinfo)
      (assigned self pid .sigSemWait 1 .sigwaitinfo) :=
    leads_thread hothers rfl (by simp [assigned]) rfl
  have received : Leads s k (assigned self pid .sigSemWait 1 .sigwaitinfo)
      (assigned self pid .sigSemWait 0 .firstSignalEverSetup) :=
    leads_handler hothers rfl (by simp [assigned]) rfl
  have found : Leads s k (assigned self pid .sigSemWait 0 .firstSignalEverSetup)
      (assigned { self with shmseg := true } pid .sigSemWait 0 .getvalueSToM) :=
    leads_handler hothers rfl (by simp [assigned]) (by simp [handlerStep, assigned, hfirst])
  have excluded : Leads s k (assigned { self with shmseg := true } pid .sigSemWait 0 .getvalueSToM)
      (assigned { self with shmseg := true } pid .sigSemWait 0 .getvalueMToS) :=
    leads_handler hothers rfl (by simp [assigned]) rfl
  have decoded : Leads s k (assigned { self with shmseg := true } pid .sigSemWait 0 .getvalueMToS)
      (assigned { self with shmseg := true } pid .sigSemWait 0 .requestSwitch) :=
    leads_handler hothers rfl (by simp [assigned]) rfl
  have dispatched : Leads s k
      (assigned { self with shmseg := true } pid .sigSemWait 0 .requestSwitch)
      (assigned { self with shmseg := true } pid .sigSemWait 0
        (.connect (strcpyStores self.name))) :=
    leads_handler hothers rfl (by simp [assigned]) rfl
  have stored : Leads s k
      (assigned { self with shmseg := true } pid .sigSemWait 0 (.connect (strcpyStores self.name)))
      { assigned { self with shmseg := true } pid .sigSemWait 0 (.connect []) with
        seg.name := strcpy [] self.name } := by
    have hstores := applyStores_strcpy [] self.name
    have hrun : Leads s k
        (assigned { self with shmseg := true } pid .sigSemWait 0
          (.connect (strcpyStores self.name)))
        { assigned { self with shmseg := true } pid .sigSemWait 0 (.connect []) with
          seg.name := applyStores [] (strcpyStores self.name) } :=
      leads_connectStores hothers rfl _ rfl
    rwa [hstores] at hrun
  have filled : Leads s k
      { assigned { self with shmseg := true } pid .sigSemWait 0 (.connect []) with
        seg.name := strcpy [] self.name }
      { connectAnswered self pid with
        seg.resSToM := .nack
        toMaster := 0
        handler := .respond .connectSlave .ack } :=
    leads_handler hothers rfl (by simp [assigned]) rfl
  have responded : Leads s k
      { connectAnswered self pid with
        seg.resSToM := .nack
        toMaster := 0
        handler := .respond .connectSlave .ack }
      { connectAnswered self pid with toMaster := 0, handler := .kill .connectSlave } :=
    leads_handler hothers rfl (by simp) rfl
  have killed : Leads s k
      { connectAnswered self pid with toMaster := 0, handler := .kill .connectSlave }
      (connectAnswered self pid) :=
    leads_handler hothers rfl (by simp) rfl
  have served := acquired.trans (requested.trans (sent.trans (received.trans (found.trans
    (excluded.trans (decoded.trans (dispatched.trans (stored.trans (filled.trans
      (responded.trans killed))))))))))
  exact claimed.trans (Reaches.mono served fun _ _ ↦ namesakes_of_contending)

theorem connectAnswered_answering (hpos : 0 < pid) :
    Answering (str name) 0 (connectAnswered (.initial name availableParameters) pid) := by
  have hcontext : SameBytes (strcpy [] name) (str name) :=
    sameBytes_storeAll fun k _ ↦ load_nil k
  have hsegment : SameBytes (strcpy [] (strcpy [] name)) (str name) :=
    sameBytes_strcpy hcontext (zero_not_mem_str name) fun k _ ↦ load_nil k
  refine ⟨rfl, rfl, rfl, rfl, rfl, rfl, rfl, rfl, rfl, rfl, .inl rfl, rfl, rfl,
    ne_noPid_of_pos hpos, rfl, ?_, ?_⟩
  · rw [SlaveName.renamed_zero]
    exact hcontext
  · rw [SlaveName.renamed_zero]
    exact hsegment

theorem reaches_lockstep {q : Pid} (hij : i ≠ j) (hpos : 0 < pid) (hpos' : 0 < q)
    (hlen : (str name).length < slaveNameSize) :
    ∃ s, Reaches Handshake.step (namesakes name i j) initial s ∧
      Lockstep (str name) 0 i j s := by
  have first : Reaches Handshake.step (namesakes name i j) initial
      (update initial i (connectAnswered (.initial name 0) pid)) :=
    reaches_connected (.inl rfl) rfl hpos (fun _ ↦ rfl) hlen
  have hc := update_unconnected (s := initial) (i := i)
    (t := connectAnswered (.initial name 0) pid) (fun _ _ ↦ rfl) rfl
  generalize hs : update initial i (connectAnswered (.initial name 0) pid) = s at first hc
  have hfree : s j = initial j := by rw [← hs, update_of_ne hij.symm]
  have second : Reaches Handshake.step (namesakes name i j) s
      (update s j (connectAnswered (.initial name 0) q)) :=
    reaches_connected (.inr rfl) hfree hpos' hc hlen
  refine ⟨_, first.trans second, ?_, ?_, fun k hi hj ↦ ?_,
    update_unconnected (fun k _ ↦ hc k) rfl⟩
  · rw [update_of_ne hij, ← hs, update_self]
    exact connectAnswered_answering hpos
  · rw [update_self]
    exact connectAnswered_answering hpos'
  · rw [update_of_ne hj, ← hs, update_of_ne hi]
    rfl

theorem reaches_renamed {q : Pid} (hij : i ≠ j) (hpos : 0 < pid) (hpos' : 0 < q)
    (hname : str name ≠ []) (n : ℕ) (hn : n < 4294967296)
    (hlen : (renamed (str name) n).length < slaveNameSize) :
    ∃ s, Reaches Handshake.step (namesakes name i j) initial s ∧
      Lockstep (str name) n i j s := by
  induction n with
  | zero =>
    rw [SlaveName.renamed_zero] at hlen
    exact reaches_lockstep hij hpos hpos' hlen
  | succ n ih =>
    have hshort : (renamed (str name) n).length < slaveNameSize :=
      (SlaveName.length_renamed_mono n.le_succ).trans_lt hlen
    obtain ⟨s, hs, hlock⟩ := ih (n.lt_succ_self.trans hn) hshort
    obtain ⟨s', hs', hlock'⟩ := hlock.next hij hname (zero_not_mem_str name) hn hlen
    exact ⟨s', hs.trans (hs'.mono fun _ _ ↦ namesakes_of_contending), hlock'⟩

end Start

section Count

variable {s : State} {e : Event} {t : Slot}

def renames (s : State) (i : Idx) : Prop :=
  (s i).handler = .requestSwitch ∧ (s i).seg.reqMToS = .changeSlaveName ∧
    (handleChangeNameSlaveRequest (s i).self (s i).seg).2.2 = .ack

instance (s : State) (i : Idx) : Decidable (renames s i) :=
  inferInstanceAs (Decidable (_ ∧ _ ∧ _))

/-- How often the slave of each slot has been renamed since its CONNECT. -/
def countRenames (s : State) (e : Event) (n : Idx → ℕ) : Idx → ℕ :=
  match e with
  | .connect i _ _ => update n i 0
  | .handler i => if renames s i then update n i (n i + 1) else n
  | _ => n

theorem changeName_index (self : SlaveContext) (seg : Shmseg) :
    (handleChangeNameSlaveRequest self seg).1.changeNameIdx.toNat =
      self.changeNameIdx.toNat +
        if (handleChangeNameSlaveRequest self seg).2.2 = .ack then 1 else 0 := by
  have hmax : (4294967295 : UInt32).toNat = 4294967295 := rfl
  have hlt := self.changeNameIdx.toNat_lt
  by_cases hidx : self.changeNameIdx = 4294967295
  · rw [SlaveRequest.handleChangeName_exhausted hidx, if_neg (by simp), add_zero]
  · rw [if_pos (SlaveRequest.handleChangeName_ack hidx)]
    rw [← UInt32.toNat_inj, hmax] at hidx
    have hsucc : (self.changeNameIdx + 1).toNat = self.changeNameIdx.toNat + 1 :=
      SlaveName.toNat_succ (by omega)
    have hwrap : ¬ self.changeNameIdx + 1 < self.changeNameIdx := by
      rw [UInt32.lt_iff_toNat_lt, hsucc]
      omega
    unfold handleChangeNameSlaveRequest
    simp only [if_neg hwrap, hsucc]

theorem handlerStep_index {i : Idx} (hs : handlerStep (s i) = some t) :
    t.self.changeNameIdx.toNat =
      (s i).self.changeNameIdx.toNat + if renames s i then 1 else 0 := by
  have kept (hsame : t.self.changeNameIdx = (s i).self.changeNameIdx) (hno : ¬ renames s i) :
      t.self.changeNameIdx.toNat =
        (s i).self.changeNameIdx.toNat + if renames s i then 1 else 0 := by
    rw [hsame, if_neg hno, add_zero]
  unfold handlerStep at hs
  cases hpc : (s i).handler with
  | requestSwitch =>
    simp only [hpc] at hs
    split at hs
    · rename_i hrequest
      exact kept (Option.some.inj hs ▸ rfl) (by simp [renames, hrequest])
    · rename_i hrequest
      obtain rfl := Option.some.inj hs
      simpa [renames, hpc, hrequest] using changeName_index (s i).self (s i).seg
    · rename_i hrequest
      exact kept (Option.some.inj hs ▸ rfl) (by simp [renames, hrequest])
    · rename_i hother _
      exact kept (Option.some.inj hs ▸ rfl) fun hr ↦ hother hr.2.1
  | connect stores | changeName stores response =>
    cases stores with
    | nil =>
      simp only [hpc] at hs
      exact kept (Option.some.inj hs ▸ rfl) (by simp [renames, hpc])
    | cons store stores =>
      simp only [hpc] at hs
      exact kept (Option.some.inj hs ▸ rfl) (by simp [renames, hpc])
  | sigwaitinfo | firstSignalEverSetup =>
    simp only [hpc] at hs
    split_ifs at hs
    all_goals exact kept (Option.some.inj hs ▸ rfl) (by simp [renames, hpc])
  | _ =>
    simp only [hpc] at hs
    exact kept (Option.some.inj hs ▸ rfl) (by simp [renames, hpc])

theorem threadStep_self {i : Idx} {killed : Bool} (hs : threadStep i killed s = some t) :
    t.self = (s i).self := by
  have moved {mustChange killed : Bool} (hs : (s i).threadStep mustChange killed = some t) :
      t.self = (s i).self := by
    obtain ⟨_, -, rfl⟩ := Option.map_eq_some_iff.mp hs
    rfl
  unfold threadStep at hs
  split at hs
  · unfold scanStep at hs
    split at hs
    · split_ifs at hs
      · exact Option.some.inj hs ▸ rfl
      · exact Option.some.inj hs ▸ rfl
      · exact moved hs
    · split_ifs at hs
      · exact Option.some.inj hs ▸ rfl
      · exact moved hs
      · exact Option.some.inj hs ▸ rfl
  · exact moved hs

abbrev Run := Observed State (Idx → ℕ)

def Counted (o : Run) : Prop := ∀ k, o.notes k = (o.state k).self.changeNameIdx.toNat

theorem slotStep_counted {name : Mem} {i j : Idx} {n : Idx → ℕ} (h : Counted ⟨s, n⟩)
    (hok : namesakes name i j s e) (hs : slotStep s e = some t) :
    countRenames s e n e.idx = t.self.changeNameIdx.toNat := by
  have hn : n e.idx = (s e.idx).self.changeNameIdx.toNat := h e.idx
  cases e with
  | connect k pid self =>
    obtain ⟨-, rfl⟩ := hok.2.2 k pid self rfl
    obtain ⟨-, hs⟩ := Option.ite_none_right_eq_some.mp hs
    rw [← Option.some.inj hs]
    exact update_self k 0 n
  | handler k =>
    have hn : n k = (s k).self.changeNameIdx.toNat := hn
    rw [handlerStep_index hs, countRenames, ← hn]
    split_ifs
    · exact update_self k _ n
    · rfl
  | thread k killed => exact hn.trans (congrArg (·.changeNameIdx.toNat) (threadStep_self hs).symm)
  | sync k =>
    cases hsync : (s k).sync with
    | idle => simp [slotStep, syncStep, hsync] at hs
    | write | kill =>
      simp only [slotStep, syncStep, hsync] at hs
      exact hn.trans (Option.some.inj hs ▸ rfl)
  | disconnect k | deliver k | request k =>
    obtain ⟨-, hs⟩ := Option.ite_none_right_eq_some.mp hs
    exact hn.trans (Option.some.inj hs ▸ rfl)

theorem countRenames_of_ne {n : Idx → ℕ} {k : Idx} (hk : k ≠ e.idx) :
    countRenames s e n k = n k := by
  cases e with
  | connect i pid self => exact update_of_ne hk _ _
  | handler i =>
    unfold countRenames
    dsimp only
    split_ifs
    · exact update_of_ne hk _ _
    · rfl
  | _ => rfl

theorem Counted.next {name : Mem} {i j : Idx} {o : Run} (h : Counted o)
    (hok : namesakes name i j o.state e) {s' : State} (hs : Handshake.step o.state e = some s') :
    Counted ⟨s', countRenames o.state e o.notes⟩ := by
  obtain ⟨u, hu, rfl⟩ := Option.map_eq_some_iff.mp hs
  intro k
  dsimp only
  rcases eq_or_ne k e.idx with rfl | hk
  · rw [update_self]
    exact slotStep_counted h hok hu
  · rw [update_of_ne hk, countRenames_of_ne hk]
    exact h k

structure CountInv (o : Run) : Prop where
  fitting : HandshakeBuffer.Fitting o.state
  counted : Counted o

theorem CountInv.next {name : Mem} {i j : Idx} {o o' : Run} (h : CountInv o)
    (hok : namesakes name i j o.state e)
    (hs : observe HandshakeBuffer.step countRenames o e = some o') : CountInv o' := by
  obtain ⟨t, ht, rfl⟩ := observe_eq_some hs
  rw [HandshakeBuffer.step_of_fits h.fitting hok.1] at ht
  exact ⟨h.fitting.next hok.1 ht, h.counted.next hok ht⟩

theorem initial_counted : CountInv ⟨initial, fun _ ↦ 0⟩ :=
  ⟨HandshakeBuffer.initial_fitting, fun _ ↦ rfl⟩

end Count

/-- Two slaves of one name that are checked in step are renamed as often as the index and the
name's size allow, and none is ever connected. -/
theorem namesakes_unbounded {name : Mem} {n : ℕ} {i j : Idx} (hij : i ≠ j) (hname : str name ≠ [])
    (hn : n < 4294967296) (hlen : (renamed (str name) n).length < slaveNameSize) :
    ∃ o : Run, Reaches (observe HandshakeBuffer.step countRenames)
        (fun o e ↦ namesakes name i j o.state e) ⟨initial, fun _ ↦ 0⟩ o ∧
      (∀ k, (o.state k).seg.isConnected = false) ∧
      ∀ k, k = i ∨ k = j →
        o.notes k = n ∧ str (segment.bytes (o.state k).seg) = renamed (str name) n := by
  have h0 := SlaveName.zero_not_mem_renamed (zero_not_mem_str name) n
  obtain ⟨s, hs, hlock⟩ := reaches_renamed hij (zero_lt_one : (0 : Pid) < 1)
    (zero_lt_two : (0 : Pid) < 2) hname n hn hlen
  have hfitting := HandshakeBuffer.fitting_of_reached hs fun _ _ hok ↦ hok.1
  obtain ⟨o, ho, rfl⟩ := (HandshakeBuffer.Reaches.bounded hs fun _ _ hok ↦ hok.1).observed
    countRenames fun _ ↦ 0
  have hcounted := ho.invariant initial_counted fun _ _ _ hinv hok hstep ↦ hinv.next hok hstep
  have renamed {k : Idx} (h : Answering (str name) n (o.state k)) :
      o.notes k = n ∧ str (segment.bytes (o.state k).seg) = renamed (str name) n := by
    rw [hcounted.counted k, h.named.index, (hfitting.ends k).segment.str_segment]
    exact ⟨rfl, str_of_sameBytes h.named.segment h0⟩
  refine ⟨o, ho, hlock.connected, ?_⟩
  rintro k (rfl | rfl)
  · exact renamed hlock.first
  · exact renamed hlock.second

theorem thousand_renames :
    ∃ o : Run, Reaches (observe HandshakeBuffer.step countRenames)
        (fun o e ↦ namesakes [97] 4 5 o.state e) ⟨initial, fun _ ↦ 0⟩ o ∧
      (∀ k, (o.state k).seg.isConnected = false) ∧
      ∀ k, k = 4 ∨ k = 5 →
        o.notes k = 1000 ∧ str (segment.bytes (o.state k).seg) = renamed (str [97]) 1000 := by
  have hlen : (renamed (str [97]) 1000).length < slaveNameSize :=
    (SlaveName.length_renamed_le (by decide) (by decide)).trans_lt (by decide)
  exact namesakes_unbounded (by decide) (by decide) (by decide) hlen

end RealTimeCyclic.HandshakeLockstep
