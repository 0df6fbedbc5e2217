import RealTimeCyclic.SlotCommand
import Mathlib.Data.List.Nodup

namespace RealTimeCyclic.SlotSemaphore

open Shm Slave SlotThread Slot Transition SlotCommand

def Open (h : History) : Prop := 0 < h.taken ∧ h.taken ∉ h.posted

instance (h : History) : Decidable (Open h) :=
  inferInstanceAs (Decidable (0 < h.taken ∧ h.taken ∉ h.posted))

def openRequests (h : History) : ℕ := if Open h then 1 else 0

def resetting : Pc → ℕ
  | .resetInit _ | .resetDrainMToS _ | .resetPostMToS _ | .resetDrainSToM _ | .resetPostSToM _ => 1
  | _ => 0

def releasing : HandlerPc → Bool
  | .responseSwitch _ | .responsePost _ => true
  | _ => false

def deciding : CyclePc → Bool
  | .getvalueAllow _ _ | .withdraw _ => true
  | _ => false

/-- What the slave takes for an answer is the acknowledgement of its open
request, and it gives up waiting only for a request that is still open. The two
threads of the slave do not both set out to post the semaphore. -/
def releasesMatched (s : State) : Event → Bool
  | .handler =>
    match s.handler with
    | .getvalueSToM signal =>
      s.seg.semSToMRequest ≠ 0 ∨
        signal = .acknowledge (some s.history.taken) ∧ Open s.history ∧ deciding s.cycle = false
    | _ => true
  | .cycle _ _ _ =>
    match s.cycle with
    | .trywait _ _ threshold =>
      s.seg.semSToMRequest ≠ 0 ∨ threshold < waitMasterResponseTimeoutSegments ∨
        Open s.history ∧ releasing s.handler = false
    | _ => true
  | _ => true

def SlotOk (h : History) : Pc → Prop
  | .requestAck signal | .requestKill signal => ∀ k, signal = .parameter k → k ∈ h.handled
  | _ => True

def HandlerOk (h : History) : HandlerPc → Prop
  | .firstSignalEverSetup signal | .getvalueSToM signal =>
    ∀ k, signal = .acknowledge (some k) → k ∈ h.handled
  | .responseSwitch _ | .responsePost _ => Open h ∧ h.taken ∈ h.handled
  | _ => True

structure SemaphoreInv (s : State) : Prop where
  budget : s.seg.semSToMRequest + openRequests s.history + resetting s.slot ≤ 1
  slot : SlotOk s.history s.slot
  toSlave : ∀ k, .acknowledge (some k) ∈ s.toSlave → k ∈ s.history.handled
  handler : HandlerOk s.history s.handler
  cycle : deciding s.cycle = true → Open s.history ∧ SlotSemaphore.releasing s.handler = false
  detaching : Detaching s.seg.reqMToS s.slot → ¬ Open s.history
  posted_nodup : s.history.posted.Nodup
  posted_le : ∀ k ∈ s.history.posted, k ≤ s.history.taken
  posted_for : ∀ k ∈ s.history.posted, k ∈ s.history.handled ∨ k ∈ s.history.withdrawn

theorem SemaphoreInv.not_open {s : State} (h : SemaphoreInv s)
    (hs : 0 < s.seg.semSToMRequest + resetting s.slot) : ¬ Open s.history := by
  intro hopen
  have hb := h.budget
  simp only [openRequests, if_pos hopen] at hb
  omega

/-- What a step of the slot thread does to the slave's semaphore and what it
acknowledges. -/
structure SlotFacts (v v' : View) (effect : Effect) : Prop where
  budget : v'.seg.semSToMRequest + resetting v'.pc ≤ v.seg.semSToMRequest + resetting v.pc ∨
    (∃ k, v.pc = .resetMemset k) ∧ v'.seg.semSToMRequest + resetting v'.pc ≤ 1
  detaching : Detaching v'.seg.reqMToS v'.pc →
    Detaching v.seg.reqMToS v.pc ∨ 0 < v.seg.semSToMRequest
  acknowledging : ∀ signal, v'.pc = .requestAck signal ∨ v'.pc = .requestKill signal →
    v.pc = .requestAck signal ∨ effect = .handled signal
  acknowledged : ∀ k, effect = .signalled (.acknowledge (some k)) →
    v.pc = .requestKill (.parameter k)

theorem slotFacts {current : ℕ} {mustChange : Bool} {v v' : View} {effect : Effect}
    (hdecoded : ∀ signal, v.pc = .getvalueMToS signal →
      v.seg.semMToSRequest ≠ 0 ∨ signal = .response)
    (hrequest : ∀ isConnected request, v.pc = .responseValue isConnected request →
      request = v.seg.reqMToS)
    (h : SlotThread.step current mustChange true v = some (v', effect)) :
    SlotFacts v v' effect := by
  cases step_move h with
  | jumped hjump =>
    cases hjump with
    | requestExcluded hpc hpos => constructor <;> simp [hpc, resetting, hpos]
    | responseDecoded hpc =>
      constructor <;> simp_all [resetting, Detaching]
    | disconnected hpc =>
      constructor <;> simp [hpc, resetting, Detaching, ← hrequest _ _ hpc]
    | connectUnsent hpc hkill => cases hkill
    | connectedRead hpc | responseRecognized hpc =>
      constructor <;> simp +contextual [hpc, resetting, Detaching]
    | _ hpc => constructor <;> simp [hpc, resetting, Detaching]
  | errorsHandled hpc hseg =>
    constructor <;> simp [hpc, resetting, Detaching, (SameControl.of_errors hseg).semSToMRequest]
  | received hpc =>
    constructor <;> simp [hpc, resetting, Detaching,
      (receiveParameters_sameControl v.seg).semSToMRequest]
  | acknowledgeSent hpc =>
    rename_i signal
    constructor <;> simp [hpc, resetting, Detaching]
    cases signal <;> simp [Signal.parameterRequest]
  | zeroed hpc => constructor <;> simp [hpc, resetting, Detaching, Shmseg.zero]
  | _ hpc => constructor <;> simp [hpc, resetting, Detaching]

theorem HandlerOk.mono {h h' : History} {pc : HandlerPc} (hok : HandlerOk h pc)
    (htaken : h'.taken = h.taken) (hposted : h'.posted = h.posted)
    (hhandled : h.handled ⊆ h'.handled) : HandlerOk h' pc := by
  cases pc with
  | firstSignalEverSetup signal | getvalueSToM signal => exact fun k hk ↦ hhandled (hok k hk)
  | responseSwitch signal | responsePost signal =>
    unfold HandlerOk Open at *
    rw [htaken, hposted]
    exact hok.imp_right fun hm ↦ hhandled hm
  | _ => trivial

theorem slotStep_inv {s t : State} {mustChange : Bool} (hc : CommandInv p q s)
    (h : SemaphoreInv s) (hok : commandsDecoded s (.slot mustChange) = true)
    (hs : slotStep mustChange s = some t) : SemaphoreInv t := by
  obtain ⟨v, effect, hstep, rfl⟩ := slotStep_eq_some hs
  have hdecoded (signal : Signal) (hpc : s.slot = .getvalueMToS signal) :
      s.seg.semMToSRequest ≠ 0 ∨ signal = .response := by
    simpa [commandsDecoded, hpc] using hok
  have hrequest (isConnected : Bool) (request : Request)
      (hpc : s.slot = .responseValue isConnected request) : request = s.seg.reqMToS := by
    have hslot := hc.slot
    simp only [hpc, SlotCommand.SlotOk] at hslot
    exact hslot.2.1
  have hfacts := slotFacts hdecoded hrequest hstep
  have hb := h.budget
  have hgrows := State.handled_subset_effect { s with seg := v.seg, slot := v.pc, wake := v.wake }
    effect
  have hopen : Open ({ s with seg := v.seg, slot := v.pc, wake := v.wake }.effect effect).history ↔
      Open s.history := by
    simp [Open]
  have hdetaching : Detaching v.seg.reqMToS v.pc → ¬ Open s.history := by
    intro hd
    rcases hfacts.detaching hd with hold | hpos
    · exact h.detaching hold
    · exact h.not_open (Nat.add_pos_left hpos _)
  have hacknowledging (signal : Signal)
      (hpc : v.pc = .requestAck signal ∨ v.pc = .requestKill signal) (k : ℕ)
      (hk : signal = .parameter k) :
      k ∈ ({ s with seg := v.seg, slot := v.pc, wake := v.wake }.effect
        effect).history.handled := by
    rcases hfacts.acknowledging signal hpc with hold | rfl
    · have hslot := h.slot
      rw [show s.slot = .requestAck signal from hold] at hslot
      exact hgrows (hslot k hk)
    · subst hk
      exact List.mem_cons_self
  refine ⟨?_, ?_, fun k hk ↦ ?_, ?_, ?_, ?_, ?_, ?_, ?_⟩
  · rw [openRequests, if_congr hopen rfl rfl, ← openRequests, State.effect_seg, State.effect_slot]
    rcases hfacts.budget with hle | ⟨⟨k, hpc⟩, hle⟩
    · dsimp only at hle ⊢
      omega
    · have hclosed := h.detaching (by rw [show s.slot = .resetMemset k from hpc]; trivial)
      rwa [openRequests, if_neg hclosed]
  · have hok (pc : Pc) (hpc : v.pc = pc) : SlotOk
        ({ s with seg := v.seg, slot := v.pc, wake := v.wake }.effect effect).history pc := by
      cases pc with
      | requestAck signal => exact hacknowledging signal (.inl hpc)
      | requestKill signal => exact hacknowledging signal (.inr hpc)
      | _ => trivial
    rw [State.effect_slot]
    exact hok v.pc rfl
  · rcases State.mem_toSlave_effect hk with hold | hnew
    · exact hgrows (h.toSlave k hold)
    · have hslot := h.slot
      rw [show s.slot = .requestKill (.parameter k) from hfacts.acknowledged k hnew] at hslot
      exact hgrows (hslot k rfl)
  · rw [State.effect_handler]
    exact h.handler.mono (State.effect_taken _ _) (State.effect_posted _ _) hgrows
  · simpa [hopen] using h.cycle
  · simpa [hopen] using hdetaching
  · simpa using h.posted_nodup
  · simpa using h.posted_le
  · simp only [State.effect_posted, State.effect_withdrawn]
    exact fun k hk ↦ (h.posted_for k hk).imp_left fun hm ↦ hgrows hm

theorem syncStep_inv {pid : Pid} {request : Request} {s t : State} (hc : CommandInv p q s)
    (h : SemaphoreInv s) (hs : syncStep pid request s = some t) : SemaphoreInv t := by
  cases syncStep_move hs with
  | claimed _ _ hexited =>
    have hb := h.budget
    simp only [hexited, resetting] at hb
    exact ⟨hb, trivial, h.toSlave, h.handler, h.cycle, False.elim, h.posted_nodup, h.posted_le,
      h.posted_for⟩
  | written hpc =>
    refine ⟨h.budget, h.slot, h.toSlave, h.handler, h.cycle, fun hd ↦ ?_, h.posted_nodup,
      h.posted_le, h.posted_for⟩
    have hb := hc.budget
    simp only [commands, hpc, syncCommands, slotCommands_of_detaching hd] at hb
    omega
  | killed hpc =>
    refine ⟨h.budget, h.slot, fun k hk ↦ h.toSlave k (by simpa using hk), h.handler, h.cycle,
      h.detaching, h.posted_nodup, h.posted_le, h.posted_for⟩
  | _ =>
    exact ⟨h.budget, h.slot, h.toSlave, h.handler, h.cycle, h.detaching, h.posted_nodup,
      h.posted_le, h.posted_for⟩

theorem deliverStep_inv {pid : Pid} {s t : State} (h : SemaphoreInv s)
    (hs : deliverStep pid s = some t) : SemaphoreInv t := by
  simp only [deliverStep] at hs
  split at hs
  · cases hs
  · split_ifs at hs
    all_goals
      rw [← Option.some.inj hs]
      exact ⟨h.budget, h.slot, h.toSlave, h.handler, h.cycle, h.detaching, h.posted_nodup,
        h.posted_le, h.posted_for⟩

theorem SemaphoreInv.handler_move {s : State} (h : SemaphoreInv s) (seg : Shmseg)
    (self : SlaveContext) (toMaster : List Signal) (runs : List (ℕ × Request × Response))
    (dispatched : List ℕ) (pc : HandlerPc) (hrequest : seg.reqMToS = s.seg.reqMToS)
    (hsem : seg.semSToMRequest = s.seg.semSToMRequest) (hidle : releasing pc = false)
    (hok : HandlerOk s.history pc) :
    SemaphoreInv { s with
      seg := seg
      self := self
      toMaster := toMaster
      history.runs := runs
      history.dispatched := dispatched
      handler := pc } := by
  refine ⟨hsem ▸ h.budget, h.slot, h.toSlave, hok, fun hd ↦ ⟨(h.cycle hd).1, hidle⟩, ?_,
    h.posted_nodup, h.posted_le, h.posted_for⟩
  rw [hrequest]
  exact h.detaching

theorem SemaphoreInv.dead {s : State} (h : SemaphoreInv s) :
    SemaphoreInv { s with alive := false } :=
  ⟨h.budget, h.slot, h.toSlave, h.handler, h.cycle, h.detaching, h.posted_nodup, h.posted_le,
    h.posted_for⟩

theorem handlerStep_inv {pid : Pid} {s t : State} (h : SemaphoreInv s)
    (hok : releasesMatched s .handler = true) (hs : handlerStep pid s = some t) :
    SemaphoreInv t := by
  have hb := h.budget
  have hh := h.handler
  cases handlerStep_move hs with
  | crashed => exact h.dead
  | received hpc hsignals =>
    have hsent := h.toSlave
    simp only [hsignals, List.mem_cons] at hsent
    exact ⟨h.budget, h.slot, fun k hk ↦ hsent k (.inr hk), fun k hk ↦ hsent k (.inl hk.symm),
      fun hd ↦ ⟨(h.cycle hd).1, rfl⟩, h.detaching, h.posted_nodup, h.posted_le, h.posted_for⟩
  | attached hpc | found hpc =>
    simp only [hpc, HandlerOk] at hh
    exact h.handler_move _ _ _ _ _ _ rfl rfl rfl hh
  | responseDecoded hpc hzero =>
    simp only [hpc, HandlerOk, releasesMatched, decide_eq_true_eq] at hh hok
    obtain ⟨hack, hopen, hdeciding⟩ := hok.resolve_left (not_not_intro hzero)
    refine ⟨h.budget, h.slot, h.toSlave, ⟨hopen, hh _ hack⟩, fun hd ↦ ?_, h.detaching,
      h.posted_nodup, h.posted_le, h.posted_for⟩
    exact absurd (hdeciding.symm.trans hd) Bool.false_ne_true
  | responseRead hpc =>
    simp only [hpc, HandlerOk] at hh
    refine ⟨h.budget, h.slot, h.toSlave, hh, fun hd ↦ ?_, h.detaching, h.posted_nodup,
      h.posted_le, h.posted_for⟩
    exact absurd (h.cycle hd).2 (by simp [hpc, releasing])
  | responsePosted hpc =>
    simp only [hpc, HandlerOk] at hh
    have hclosed : ¬ Open { s.history with posted := s.history.taken :: s.history.posted } :=
      fun hopen ↦ hopen.2 List.mem_cons_self
    simp only [openRequests, if_pos hh.1] at hb
    refine ⟨?_, h.slot, h.toSlave, trivial, fun hd ↦ ?_, fun _ ↦ hclosed,
      List.nodup_cons.mpr ⟨hh.1.2, h.posted_nodup⟩,
      List.forall_mem_cons.mpr ⟨le_rfl, h.posted_le⟩,
      List.forall_mem_cons.mpr ⟨.inl hh.2, h.posted_for⟩⟩
    · simp only [openRequests, if_neg hclosed]
      omega
    · exact absurd (h.cycle hd).2 (by simp [hpc, releasing])
  | dispatched hpc hdispatch =>
    refine h.handler_move _ _ _ _ _ _ rfl rfl ?_ ?_
    · cases hdispatch <;> rfl
    · cases hdispatch <;> trivial
  | served hserve =>
    refine h.handler_move _ _ _ _ _ _ hserve.frame.reqMToS hserve.frame.semSToMRequest ?_ ?_
    · cases hserve <;> rfl
    · cases hserve <;> trivial
  | answered hpc =>
    refine h.handler_move _ _ _ _ _ _ rfl rfl ?_ ?_
    · split <;> rfl
    · split <;> trivial
  | _ => exact h.handler_move _ _ _ _ _ _ rfl rfl rfl trivial

theorem SemaphoreInv.cycle_move {s : State} (h : SemaphoreInv s) (seg : Shmseg)
    (self : SlaveContext) (toMaster : List Signal) (pc : CyclePc) (sleepUs : Int)
    (slept : List Usleep)
    (hrequest : seg.reqMToS = s.seg.reqMToS) (hsem : seg.semSToMRequest = s.seg.semSToMRequest)
    (hok : deciding pc = true → Open s.history ∧ releasing s.handler = false) :
    SemaphoreInv { s with
      seg := seg
      self := self
      toMaster := toMaster
      cycle := pc
      sleepUs := sleepUs
      history.slept := slept } := by
  refine ⟨hsem ▸ h.budget, h.slot, h.toSlave, h.handler, hok, ?_, h.posted_nodup, h.posted_le,
    h.posted_for⟩
  rw [hrequest]
  exact h.detaching

theorem cycleStep_inv {usleep : Bool} {rand : ℕ} {now : Timeval} {s t : State}
    (hc : CommandInv True q s) (h : SemaphoreInv s)
    (hok : releasesMatched s (.cycle usleep rand now) = true)
    (hs : cycleStep usleep rand now s = some t) : SemaphoreInv t := by
  have hb := h.budget
  have hundetached : ¬ Detaching s.seg.reqMToS s.slot :=
    fun hd ↦ cycleStep_parked (hc.detaching_parked hd) hs
  cases cycleStep_move hs with
  | crashed =>
    exact ⟨h.budget, h.slot, h.toSlave, h.handler, h.cycle, h.detaching, h.posted_nodup,
      h.posted_le, h.posted_for⟩
  | usleepFailed =>
    exact h.cycle_move _ _ _ _ _ _ (setError_sameControl _ _).reqMToS
      (setError_sameControl _ _).semSToMRequest (by simp [deciding])
  | stored hpc =>
    have hseg := storeParameters_sameControl rand s.seg
    exact h.cycle_move _ _ _ _ _ _ hseg.reqMToS hseg.semSToMRequest (by simp [deciding])
  | calculated hpc =>
    have hseg := calculate_sameControl now s.self s.seg
    exact h.cycle_move _ _ _ _ _ _ hseg.reqMToS hseg.semSToMRequest (by simp [deciding])
  | requestTaken hpc hsem =>
    have hclosed := h.not_open (by omega)
    have hidle : releasing s.handler = false := by
      by_contra hne
      have hh := h.handler
      cases hhpc : s.handler <;> simp_all [releasing, HandlerOk]
    have hopen : Open { s.history with taken := s.history.taken + 1 } := by
      refine ⟨Nat.succ_pos _, fun hmem ↦ ?_⟩
      exact Nat.not_succ_le_self _ (h.posted_le _ hmem)
    refine ⟨?_, h.slot, h.toSlave, ?_, fun _ ↦ ⟨hopen, hidle⟩, fun hd ↦ absurd hd hundetached,
      h.posted_nodup, fun k hk ↦ (h.posted_le k hk).trans (Nat.le_succ _), h.posted_for⟩
    · simp only [openRequests, if_neg hclosed, if_pos hopen] at hb ⊢
      omega
    · have hh := h.handler
      cases hhpc : s.handler <;> simp_all [releasing, HandlerOk]
  | gaveUp hpc hzero hexpired =>
    simp only [hpc, releasesMatched, decide_eq_true_eq] at hok
    have hopen := (hok.resolve_left (not_not_intro hzero)).resolve_left (not_lt.mpr hexpired)
    have hseg := setError_sameControl ⟨"Master failed to respond to request!", none⟩ s.seg
    exact h.cycle_move _ _ _ _ _ _ hseg.reqMToS hseg.semSToMRequest fun _ ↦ hopen
  | stopFound hpc | permitFound hpc =>
    have hopen := h.cycle (by rw [hpc]; rfl)
    exact h.cycle_move _ _ _ _ _ _ rfl rfl fun _ ↦ hopen
  | withdrawn hpc =>
    obtain ⟨hopen, hidle⟩ := h.cycle (by rw [hpc]; rfl)
    have hclosed : ¬ Open { s.history with
        withdrawn := s.history.taken :: s.history.withdrawn
        posted := s.history.taken :: s.history.posted } :=
      fun hopen ↦ hopen.2 List.mem_cons_self
    simp only [openRequests, if_pos hopen] at hb
    refine ⟨?_, h.slot, h.toSlave, ?_, by simp [deciding], fun _ ↦ hclosed,
      List.nodup_cons.mpr ⟨hopen.2, h.posted_nodup⟩,
      List.forall_mem_cons.mpr ⟨le_rfl, h.posted_le⟩,
      List.forall_mem_cons.mpr ⟨.inr List.mem_cons_self, fun k hk ↦ ?_⟩⟩
    · simp only [openRequests, if_neg hclosed]
      omega
    · have hh := h.handler
      cases hhpc : s.handler <;> simp_all [releasing, HandlerOk]
    · exact (h.posted_for k hk).imp_right (List.mem_cons_of_mem _)
  | _ => exact h.cycle_move _ _ _ _ _ _ rfl rfl (by simp [deciding])

theorem initial_inv (name : CString.Mem) (availableParameters : ℕ) :
    SemaphoreInv (initial name availableParameters) := by
  refine ⟨?_, trivial, ?_, trivial, ?_, False.elim, List.nodup_nil, ?_, ?_⟩
  all_goals simp [initial, Shmseg.initial, deciding, openRequests, Open, resetting]

theorem step_inv {pid : Pid} {s t : State} {e : Event} (hc : CommandInv True q s)
    (h : SemaphoreInv s) (hdecoded : commandsDecoded s e = true)
    (hok : releasesMatched s e = true) (hs : step pid s e = some t) : SemaphoreInv t := by
  cases e with
  | configure requestedParameters communicationCycleUs =>
    rw [← Option.some.inj hs]
    exact ⟨h.budget, h.slot, h.toSlave, h.handler, h.cycle, h.detaching, h.posted_nodup,
      h.posted_le, h.posted_for⟩
  | sync request => exact syncStep_inv hc h hs
  | slot mustChange => exact slotStep_inv hc h hdecoded hs
  | deliver => exact deliverStep_inv h hs
  | handler =>
    obtain ⟨-, hs⟩ := Option.ite_none_right_eq_some.mp hs
    exact handlerStep_inv h hok hs
  | cycle usleep rand now =>
    obtain ⟨-, hs⟩ := Option.ite_none_right_eq_some.mp hs
    exact cycleStep_inv hc h hok hs

/-- Both request semaphores are binary, and the slave's is posted once for each
time it is taken, for a request that was served or withdrawn. -/
structure BinarySemaphores (s : State) : Prop where
  semMToSRequest : s.seg.semMToSRequest ≤ 1
  semSToMRequest : s.seg.semSToMRequest ≤ 1
  posted_once : ∀ k, s.history.posted.count k ≤ 1
  posted_for : ∀ k ∈ s.history.posted, k ∈ s.history.handled ∨ k ∈ s.history.withdrawn

def admitted (s : State) (e : Event) : Bool :=
  commandsDecoded s e && disconnectsParked s e && releasesMatched s e

theorem binarySemaphores_of_admitted {pid : Pid} {name : CString.Mem} {availableParameters : ℕ}
    {s : State} (h : Reaches (step pid) (fun s e ↦ admitted s e = true)
      (initial name availableParameters) s) : BinarySemaphores s := by
  have hadmitted (s : State) (e : Event) (hok : admitted s e = true) :
      Admitted True False pid s e ∧ releasesMatched s e = true := by
    simp only [admitted, Bool.and_eq_true] at hok
    exact ⟨⟨hok.1.1, fun _ ↦ hok.1.2, False.elim⟩, hok.2⟩
  have hinv : CommandInv True False s ∧ SemaphoreInv s := by
    refine h.layered (SlotCommand.initial_inv _ _) (initial_inv _ _) ?_ ?_
    · intro s e t hc hok hs
      exact SlotCommand.step_inv hc (hadmitted s e hok).1 hs
    · intro s e t hc hi hok hs
      obtain ⟨hcommand, hreleases⟩ := hadmitted s e hok
      exact step_inv hc hi hcommand.decoded hreleases hs
  have hcommand := hinv.1.budget
  have hsemaphore := hinv.2.budget
  refine ⟨by omega, by omega, fun k ↦ ?_, hinv.2.posted_for⟩
  exact List.nodup_iff_count_le_one.mp hinv.2.posted_nodup k

/-- The master is slow. The slave gives up waiting and sends its request once
more; both signals are served, and the second acknowledgement is ignored. -/
def patientRun : List Event :=
  startRun ++ List.replicate 45 (Event.cycle true 0 ⟨0, 0⟩) ++ [Event.deliver, Event.deliver] ++
    List.replicate 14 (Event.slot false) ++ List.replicate 9 Event.handler

theorem patient_binarySemaphores :
    ∃ s, s.history.taken = 1 ∧ s.history.posted = [1] ∧ s.history.handled = [1, 1] ∧
      BinarySemaphores s := by
  have hrun : (run (guarded (step 1000) fun s e ↦ admitted s e = true) (initial [97] 7)
      patientRun).map (fun s ↦ (s.history.taken, s.history.posted, s.history.handled)) =
      some (1, [1], [1, 1]) := by
    decide +kernel
  obtain ⟨s, hs, hview⟩ := Option.map_eq_some_iff.mp hrun
  simp only [Prod.mk.injEq] at hview
  exact ⟨s, hview.1, hview.2.1, hview.2.2, binarySemaphores_of_admitted (.of_run hs)⟩

/-- A STOP is taken for the answer to the open parameter request. The cycle
thread has given up waiting for that answer and withdraws its next request when
it finds itself stopped, so the semaphore is posted twice. -/
def doublePost : List Event :=
  startRun ++ List.replicate 5 (Event.sync .stopSlaveCycle) ++ List.replicate 2 Event.handler ++
    List.replicate 9 (Event.cycle true 0 ⟨0, 0⟩) ++ [Event.handler] ++
    List.replicate 3 (Event.cycle true 0 ⟨0, 0⟩) ++ [Event.deliver] ++
    List.replicate 7 (Event.slot false) ++ List.replicate 29 (Event.cycle true 0 ⟨0, 0⟩) ++
    List.replicate 10 Event.handler ++ List.replicate 2 (Event.cycle true 0 ⟨0, 0⟩)

theorem semSToMRequest_reaches_two :
    ¬ ∀ s, Reaches (step 1000) unrestricted (initial [97] 7) s → BinarySemaphores s := by
  intro hall
  have hrun : (run (step 1000) (initial [97] 7) doublePost).map
      (fun s ↦ (s.seg.semSToMRequest, s.history.posted)) = some (2, [1, 1]) := by
    decide +kernel
  obtain ⟨s, hs, hview⟩ := Option.map_eq_some_iff.mp hrun
  simp only [Prod.mk.injEq] at hview
  have hbinary := (hall s (.of_unrestricted_run hs)).semSToMRequest
  omega

end RealTimeCyclic.SlotSemaphore
