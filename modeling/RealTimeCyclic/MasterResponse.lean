import RealTimeCyclic.MasterMove

namespace RealTimeCyclic.MasterResponse

open Shm SlotThread Probing Function Master Transition

def active : Pc → Bool
  | .sendSemWait _ | .sendWrite _ | .sendKill _ | .responseConnected | .responseSwitch _
  | .responseValue _ _ | .mustChangeName _ _ | .renamePost | .setConnected _ _ | .forward _ _ _
  | .notify _ | .resetNotify _ => true
  | .resetMemset k | .resetInit k | .resetDrainMToS k | .resetPostMToS k | .resetDrainSToM k
  | .resetPostSToM k | .resetAnswer k => k.isSome
  | _ => false

def answers : Pc → Option ℕ
  | .mustChangeName _ k | .setConnected _ k | .forward _ _ k | .notify k | .resetNotify k => some k
  | .resetMemset k | .resetInit k | .resetDrainMToS k | .resetPostMToS k | .resetDrainSToM k
  | .resetPostSToM k | .resetAnswer k => k
  | _ => none

def responding : Pc → Bool
  | .responseConnected | .responseSwitch _ | .responseValue _ _ => true
  | _ => false

def announcing : Pc → Bool
  | .notify _ | .resetNotify _ => true
  | _ => false

def releasing : Pc → Bool
  | .post | .resetMemset _ | .resetInit _ | .resetDrainMToS _ | .resetPostMToS _ => true
  | _ => false

/-- What a step of the slot thread means for the commands. -/
structure StepFacts (current : ℕ) (v v' : View) (effect : Effect) : Prop where
  active : active v'.pc = true → active v.pc = true ∨ v'.pc = .responseConnected
  answers : ∀ k, answers v'.pc = some k → answers v.pc = some k ∨
    (responding v.pc = true ∧ k = current)
  responding : responding v'.pc = true → responding v.pc = true ∨ v'.pc = .responseConnected
  decoded : v'.pc = .responseConnected →
    (∃ signal, v.pc = .getvalueMToS signal) ∧ v.seg.semMToSRequest = 0
  announcing : announcing v'.pc = true → ∃ response k, effect = .answered response k
  acquired : effect = .acquired → MasterResponse.active v.pc = true
  requested : effect = .requested → MasterResponse.active v.pc = true
  answered : ∀ response k, effect = .answered response k → MasterResponse.answers v.pc = some k
  notified : effect = .notified → MasterResponse.announcing v.pc = true
  lowered : v'.seg.semMToSRequest = 0 →
    v.seg.semMToSRequest = 0 ∨ effect = .acquired ∨ releasing v'.pc = true
  released : releasing v.pc = true → releasing v'.pc = true ∨ 0 < v'.seg.semMToSRequest

theorem stepFacts {current : ℕ} {mustChange killed : Bool} {v v' : View} {effect : Effect}
    (h : SlotThread.step current mustChange killed v = some (v', effect)) :
    StepFacts current v v' effect := by
  cases step_move h with
  | jumped hjump =>
    cases hjump with
    | responseDecoded hpc hzero =>
      constructor <;> simp [hpc, hzero, active, answers, responding, announcing, releasing]
    | _ hpc => constructor <;> simp [hpc, active, answers, responding, announcing, releasing]
  | errorsHandled hpc hseg =>
    constructor <;> simp [hpc, active, answers, responding, announcing, releasing,
      (SameControl.of_errors hseg).semMToSRequest]
  | received hpc =>
    constructor <;> simp [hpc, active, answers, responding, announcing, releasing,
      (receiveParameters_sameControl v.seg).semMToSRequest]
  | acknowledgeSent hpc =>
    cases killed
    all_goals constructor <;> simp [hpc, active, answers, responding, announcing, releasing]
  | _ hpc => constructor <;> simp [hpc, active, answers, responding, announcing, releasing]

def inProgress : ThreadPc → Bool
  | .serve _ _ pc => active pc
  | .returned => false
  | _ => true

def threadAnswers : ThreadPc → Option ℕ
  | .serve _ _ pc => answers pc
  | _ => none

def threadAnnouncing : ThreadPc → Bool
  | .serve _ _ pc => announcing pc
  | _ => false

def releases (i : Idx) : ThreadPc → Bool
  | .serve _ i' pc => i' = i ∧ releasing pc
  | _ => false

def serves (i : Idx) : ThreadPc → Bool
  | .serve _ i' pc => i' = i ∧ pc ≠ .exited
  | _ => false

/-- The response that is read answers the command that was sent last, and that
command is still the one in the control memory. -/
structure ResponseFresh (s : State) : Prop where
  command : s.configurator = .reading → s.answerTo = s.latest.id
  request : s.configurator = .reading → s.control.request = s.latest.request
  pid : s.configurator = .reading → s.control.affectedSlavePid = s.latest.pid

/-- Nothing is under way for an earlier command. -/
structure Quiet (s : State) : Prop where
  master : s.pendingMaster = false
  configurator : s.pendingConfigurator = false
  sync : s.sync = .sigwaitinfo
  threads : ∀ t ∈ s.threads, inProgress t.pc = false
  slots : ∀ i, (s.slots i).seg.semMToSRequest = 0 → ∃ t ∈ s.threads, releases i t.pc = true

instance (s : State) : Decidable (Quiet s) :=
  decidable_of_iff (s.pendingMaster = false ∧ s.pendingConfigurator = false ∧
      s.sync = .sigwaitinfo ∧ (∀ t ∈ s.threads, inProgress t.pc = false) ∧
      ∀ i, (s.slots i).seg.semMToSRequest = 0 → ∃ t ∈ s.threads, releases i t.pc = true)
    ⟨fun ⟨h₁, h₂, h₃, h₄, h₅⟩ ↦ ⟨h₁, h₂, h₃, h₄, h₅⟩,
      fun ⟨h₁, h₂, h₃, h₄, h₅⟩ ↦ ⟨h₁, h₂, h₃, h₄, h₅⟩⟩

/-- A command is sent only when nothing is under way for an earlier one, and a
signal is taken for an answer only once the slot's command has been written and
by the only thread that serves the slot. -/
def sentWhenQuiet (s : State) : Event → Bool
  | .send => Quiet s
  | .thread j _ _ =>
    match s.threads[j]? with
    | some thread =>
      match thread.pc with
      | .serve _ i (.getvalueMToS _) =>
        (s.slots i).seg.semMToSRequest = 0 → (s.slots i).written = (s.slots i).acquired ∧
          ∀ t ∈ s.threads.eraseIdx j, serves i t.pc = false
      | _ => true
    | none => true
  | _ => true

structure ThreadFresh (s : State) (t : Thread) : Prop where
  acting : inProgress t.pc = true → t.acting = s.latest.id
  answers : ∀ k, threadAnswers t.pc = some k → k = s.latest.id
  written : ∀ pid i pc, t.pc = .serve pid i pc → responding pc = true →
    (s.slots i).written = s.latest.id
  announcing : threadAnnouncing t.pc = true → s.answerTo = s.latest.id

structure FreshInv (s : State) : Prop where
  sync : ∀ c, s.sync.command = some c → c.id = s.latest.id
  threads : ∀ t ∈ s.threads, ThreadFresh s t
  slots : ∀ i, (s.slots i).seg.semMToSRequest = 0 →
    (s.slots i).acquired = s.latest.id ∨ ∃ t ∈ s.threads, releases i t.pc = true
  notify : ∀ c, s.sync = .notify c → s.answerTo = s.latest.id
  pending : s.pendingConfigurator = true → s.answerTo = s.latest.id
  reading : s.configurator = .reading → s.answerTo = s.latest.id

theorem ThreadFresh.mono {s t : State} {u : Thread} (h : ThreadFresh s u)
    (hlatest : t.latest = s.latest)
    (hanswer : t.answerTo = s.answerTo ∨ t.answerTo = s.latest.id)
    (hwritten : ∀ i, (t.slots i).written = (s.slots i).written ∨
      (t.slots i).written = s.latest.id) : ThreadFresh t u := by
  refine ⟨hlatest ▸ h.acting, hlatest ▸ h.answers, fun pid i pc hpc hr ↦ ?_, fun ha ↦ ?_⟩
  · rw [hlatest]
    rcases hwritten i with hw | hw
    · exact hw.trans (h.written pid i pc hpc hr)
    · exact hw
  · rw [hlatest]
    rcases hanswer with hk | hk
    · exact hk.trans (h.announcing ha)
    · exact hk

theorem FreshInv.keep {s t : State} (h : FreshInv s) (hthreads : t.threads = s.threads)
    (hlatest : t.latest = s.latest) (hanswer : t.answerTo = s.answerTo)
    (hslots : ∀ i, (t.slots i).seg.semMToSRequest = (s.slots i).seg.semMToSRequest ∧
      (t.slots i).acquired = (s.slots i).acquired ∧ (t.slots i).written = (s.slots i).written)
    (hsync : ∀ c, t.sync.command = some c → c.id = s.latest.id)
    (hnotify : ∀ c, t.sync = .notify c → s.answerTo = s.latest.id)
    (hpending : t.pendingConfigurator = true → s.answerTo = s.latest.id)
    (hreading : t.configurator = .reading → s.answerTo = s.latest.id) : FreshInv t := by
  refine ⟨hlatest ▸ hsync, fun u hu ↦ ?_, fun i ↦ ?_, ?_, ?_, ?_⟩
  · exact (h.threads u (hthreads ▸ hu)).mono hlatest (.inl hanswer) fun i ↦ .inl (hslots i).2.2
  · rw [(hslots i).1, (hslots i).2.1, hlatest, hthreads]
    exact h.slots i
  · rw [hanswer, hlatest]
    exact hnotify
  · rw [hanswer, hlatest]
    exact hpending
  · rw [hanswer, hlatest]
    exact hreading

theorem FreshInv.create {s : State} (h : FreshInv s) {c : Command} (hc : c.id = s.latest.id)
    (cell : Pid) :
    FreshInv { s with
      cell := cell
      threads := s.threads ++ [⟨c, c.id, .readArgument⟩]
      sync := .sigwaitinfo } := by
  refine ⟨by simp [SyncPc.command], fun u hu ↦ ?_, fun i hi ↦ ?_, by simp, h.pending, h.reading⟩
  · rcases List.mem_append.mp hu with hold | hnew
    · exact (h.threads u hold).mono rfl (.inl rfl) fun _ ↦ .inl rfl
    · rw [List.mem_singleton.mp hnew]
      exact ⟨fun _ ↦ hc, by simp [threadAnswers], by simp, by simp [threadAnnouncing]⟩
  · rcases h.slots i hi with ha | ⟨u, hu, hr⟩
    · exact .inl ha
    · exact .inr ⟨u, List.mem_append_left _ hu, hr⟩

theorem FreshInv.nack {s : State} (h : FreshInv s) {c : Command} (hc : c.id = s.latest.id) :
    FreshInv { s with control.response := .nack, answerTo := c.id, sync := .notify c } := by
  refine ⟨fun c' hc' ↦ ?_, fun u hu ↦ ?_, h.slots, fun _ _ ↦ hc, fun _ ↦ hc, fun _ ↦ hc⟩
  · exact Option.some.inj hc' ▸ hc
  · exact (h.threads u hu).mono rfl (.inr hc) fun _ ↦ .inl rfl

theorem FreshInv.sync_slot {s : State} (h : FreshInv s) {c : Command} {i : Idx} {slot : Slot}
    {pc : SyncPc} (hc : c.id = s.latest.id) (hpc : pc.command = some c)
    (hnotify : ∀ c, pc ≠ .notify c)
    (hacquired : slot.seg.semMToSRequest = 0 → slot.acquired = c.id ∨
      slot.acquired = (s.slots i).acquired ∧ (s.slots i).seg.semMToSRequest = 0)
    (hwritten : slot.written = c.id ∨ slot.written = (s.slots i).written) :
    FreshInv { s with slots := update s.slots i slot, sync := pc } := by
  refine ⟨fun c' hc' ↦ ?_, fun u hu ↦ ?_, fun k hk ↦ ?_, fun c' hc' ↦ absurd hc' (hnotify c'),
    h.pending, h.reading⟩
  · exact (Option.some.inj (hpc.symm.trans hc')) ▸ hc
  · refine (h.threads u hu).mono rfl (.inl rfl) fun k ↦ ?_
    dsimp only
    rcases eq_or_ne k i with rfl | hne
    · rw [update_self]
      rcases hwritten with hw | hw
      · exact .inr (hw.trans hc)
      · exact .inl hw
    · rw [update_of_ne hne]
      exact .inl rfl
  · dsimp only at hk ⊢
    rcases eq_or_ne k i with rfl | hne
    · rw [update_self] at hk ⊢
      rcases hacquired hk with ha | ⟨ha, hzero⟩
      · exact .inl (ha.trans hc)
      · rw [ha]
        exact h.slots k hzero
    · rw [update_of_ne hne] at hk ⊢
      exact h.slots k hk

theorem syncStep_inv {created killed : Bool} {s t : State} (h : FreshInv s)
    (hs : syncStep created killed s = some t) : FreshInv t := by
  have hmove (pc : SyncPc) (cell : Pid)
      (hcommand : ∀ c, pc.command = some c → c.id = s.latest.id)
      (hnotify : ∀ c, pc ≠ .notify c) : FreshInv { s with cell := cell, sync := pc } :=
    h.keep rfl rfl rfl (fun _ ↦ ⟨rfl, rfl, rfl⟩) hcommand (fun c hc ↦ absurd hc (hnotify c))
      h.pending h.reading
  have hid {c : Command} (hc : s.sync.command = some c) : c.id = s.latest.id := h.sync c hc
  cases syncStep_move hs with
  | received hpc =>
    refine h.keep rfl rfl rfl (fun _ ↦ ⟨rfl, rfl, rfl⟩) (fun c hc ↦ ?_) (by simp) h.pending
      h.reading
    exact (Option.some.inj hc) ▸ rfl
  | threadCreated hpc => exact h.create (hid (by rw [hpc]; rfl)) _
  | acquired hpc hpos =>
    exact h.sync_slot (hid (by rw [hpc]; rfl)) rfl (by simp) (fun _ ↦ .inl rfl) (.inr rfl)
  | written hpc =>
    exact h.sync_slot (hid (by rw [hpc]; rfl)) rfl (by simp) (fun hz ↦ .inr ⟨rfl, hz⟩) (.inl rfl)
  | refused hpc => exact h.nack (hid (by rw [hpc]; rfl))
  | notified hpc =>
    exact h.keep rfl rfl rfl (fun _ ↦ ⟨rfl, rfl, rfl⟩) (by simp [SyncPc.command]) (by simp)
      (fun _ ↦ h.notify _ hpc) h.reading
  | ignored | sent => exact hmove _ s.cell (by simp [SyncPc.command]) (by simp)
  | connectRead hpc | requestRead hpc | startFound hpc | slaveFound hpc | slaveUnknown hpc
  | outOfTable hpc | cycleUnset hpc | cycleSet hpc | unsent hpc =>
    have hc := hid (by rw [hpc]; rfl)
    exact hmove _ s.cell (by simp [SyncPc.command, hc]) (by simp)
  | threadFailed hpc =>
    have hc := hid (by rw [hpc]; rfl)
    exact hmove _ _ (by simp [SyncPc.command, hc]) (by simp)

theorem FreshInv.of_thread {s t : State} (h : FreshInv s) {j : ℕ} {thread u : Thread}
    (ht : s.threads[j]? = some thread) (hf : ThreadFrame s t)
    (hthreads : t.threads = s.threads.set j u) (hu : ThreadFresh t u)
    (hanswer : t.answerTo = s.answerTo ∨ t.answerTo = s.latest.id)
    (hwritten : ∀ i, (t.slots i).written = (s.slots i).written ∨
      (t.slots i).written = s.latest.id)
    (hlowered : ∀ i, (t.slots i).seg.semMToSRequest = 0 →
      (t.slots i).acquired = s.latest.id ∨ releases i u.pc = true ∨
        ((s.slots i).seg.semMToSRequest = 0 ∧ (t.slots i).acquired = (s.slots i).acquired ∧
          releases i thread.pc = false))
    (hpending : t.pendingConfigurator = true →
      s.pendingConfigurator = true ∨ threadAnnouncing thread.pc = true) : FreshInv t := by
  have hlt : j < s.threads.length := (List.getElem?_eq_some_iff.mp ht).1
  have hmem : thread ∈ s.threads := List.mem_of_getElem? ht
  have hkeep (hk : s.answerTo = s.latest.id) : t.answerTo = t.latest.id := by
    rw [hf.latest]
    rcases hanswer with ha | ha
    · exact ha.trans hk
    · exact ha
  refine ⟨?_, fun w hw ↦ ?_, fun i hi ↦ ?_, fun c hc ↦ ?_, fun hp ↦ ?_, fun hr ↦ ?_⟩
  · rw [hf.sync, hf.latest]
    exact h.sync
  · rw [hthreads] at hw
    rcases List.mem_or_eq_of_mem_set hw with hold | rfl
    · exact (h.threads w hold).mono hf.latest hanswer hwritten
    · exact hu
  · rw [hf.latest, hthreads]
    rcases hlowered i hi with ha | hr | ⟨hzero, ha, hno⟩
    · exact .inl ha
    · exact .inr ⟨u, List.mem_set hlt u, hr⟩
    · rcases h.slots i hzero with hold | ⟨w, hw, hr⟩
      · exact .inl (ha.trans hold)
      · obtain ⟨k, hk⟩ := List.getElem?_of_mem hw
        have hne : j ≠ k := by
          rintro rfl
          rw [Option.some.inj (ht.symm.trans hk), hr] at hno
          cases hno
        refine .inr ⟨w, List.mem_of_getElem? (i := k) ?_, hr⟩
        rwa [List.getElem?_set_ne hne]
  · exact hkeep (h.notify c (hf.sync ▸ hc))
  · rcases hpending hp with hold | ha
    · exact hkeep (h.pending hold)
    · exact hkeep ((h.threads thread hmem).announcing ha)
  · exact hkeep (h.reading (hf.configurator ▸ hr))

theorem active_of_answers {pc : Pc} {k : ℕ} (h : answers pc = some k) : active pc = true := by
  cases pc <;> simp_all [answers, active]

theorem active_of_responding {pc : Pc} (h : responding pc = true) : active pc = true := by
  cases pc <;> simp_all [responding, active]

theorem active_of_announcing {pc : Pc} (h : announcing pc = true) : active pc = true := by
  cases pc <;> simp_all [announcing, active]

theorem serves_of_releases {i : Idx} {pc : ThreadPc} (h : releases i pc = true) :
    serves i pc = true := by
  cases pc with
  | serve pid i' pc =>
    obtain ⟨hi, hr⟩ := of_decide_eq_true h
    refine decide_eq_true ⟨hi, ?_⟩
    rintro rfl
    cases hr
  | _ => cases h

def DecodedAlone (s : State) (j : ℕ) (i : Idx) : Prop :=
  (s.slots i).seg.semMToSRequest = 0 → (s.slots i).written = (s.slots i).acquired ∧
    ∀ t ∈ s.threads.eraseIdx j, serves i t.pc = false

/-- The answer that is taken is the one to the last command. -/
theorem FreshInv.written_of_decoded {s : State} (h : FreshInv s) {j : ℕ} {thread : Thread}
    {i : Idx} (ht : s.threads[j]? = some thread) (hno : releases i thread.pc = false)
    (hzero : (s.slots i).seg.semMToSRequest = 0) (halone : DecodedAlone s j i) :
    (s.slots i).written = s.latest.id := by
  obtain ⟨hwritten, hothers⟩ := halone hzero
  rw [hwritten]
  rcases h.slots i hzero with ha | ⟨w, hw, hr⟩
  · exact ha
  · obtain ⟨k, hk⟩ := List.getElem?_of_mem hw
    have hne : k ≠ j := by
      rintro rfl
      rw [Option.some.inj (ht.symm.trans hk), hr] at hno
      cases hno
    have hmem : w ∈ s.threads.eraseIdx j := List.mem_eraseIdx_iff_getElem?.mpr ⟨k, hne, hk⟩
    have hserves := serves_of_releases hr
    rw [hothers w hmem] at hserves
    cases hserves

theorem FreshInv.served {s t : State} (h : FreshInv s) {j : ℕ} {thread : Thread} {pid : Pid}
    {i : Idx} {pc : Pc} {v : View} {effect : Effect} {mustChange killed : Bool}
    (ht : s.threads[j]? = some thread) (hpc : thread.pc = .serve pid i pc)
    (halone : ∀ signal, pc = .getvalueMToS signal → DecodedAlone s j i)
    (hv : SlotThread.step (s.slots i).written mustChange killed
      ⟨(s.slots i).seg, pc, (s.slots i).wake⟩ = some (v, effect)) (hf : ThreadFrame s t)
    (heq : t = { s with
      slots := update s.slots i ((s.slots i).stepped thread.acting v effect)
      threads := s.threads.set j (thread.stepped (s.slots i) pid i v) }.answer effect) :
    FreshInv t := by
  have facts := stepFacts hv
  have hok := h.threads thread (List.mem_of_getElem? ht)
  have hslots : t.slots = update s.slots i ((s.slots i).stepped thread.acting v effect) := by
    rw [heq, answer_slots]
  have hthreads : t.threads = s.threads.set j (thread.stepped (s.slots i) pid i v) := by
    rw [heq, answer_threads]
  have hacting (ha : active pc = true) : thread.acting = s.latest.id :=
    hok.acting (by rw [hpc]; exact ha)
  have hanswers {k : ℕ} (ha : answers pc = some k) : k = s.latest.id :=
    hok.answers k (by rw [hpc]; exact ha)
  have hresponding (hr : responding pc = true) : (s.slots i).written = s.latest.id :=
    hok.written pid i pc hpc hr
  have hdecoded (hr : v.pc = .responseConnected) : (s.slots i).written = s.latest.id := by
    obtain ⟨⟨signal, hsignal⟩, hzero⟩ := facts.decoded hr
    refine h.written_of_decoded ht ?_ hzero (halone signal hsignal)
    rw [hpc, show pc = .getvalueMToS signal from hsignal]
    exact decide_eq_false fun hand ↦ by cases hand.2
  have hwritten (k : Idx) :
      (t.slots k).written = (s.slots k).written ∨ (t.slots k).written = s.latest.id := by
    rw [hslots]
    rcases eq_or_ne k i with rfl | hne
    · rw [update_self]
      simp only [Slot.stepped]
      split_ifs with he
      · exact .inr (hacting (facts.requested he))
      · exact .inl rfl
    · rw [update_of_ne hne]
      exact .inl rfl
  refine h.of_thread ht hf hthreads ⟨?_, ?_, ?_, ?_⟩ ?_ hwritten ?_ ?_
  · intro ha
    rw [hf.latest]
    simp only [Thread.stepped]
    split_ifs with hr
    · exact hdecoded hr
    · exact hacting ((facts.active ha).resolve_right hr)
  · intro k hk
    rw [hf.latest]
    rcases facts.answers k hk with hold | ⟨hr, rfl⟩
    · exact hanswers hold
    · exact hresponding hr
  · intro pid' i' pc' hpc' hr
    obtain ⟨-, hi, rfl⟩ := ThreadPc.serve.inj hpc'
    rw [hf.latest, ← hi]
    rcases hwritten i with hw | hw
    · rcases facts.responding hr with hold | hnew
      · exact hw.trans (hresponding hold)
      · exact hw.trans (hdecoded hnew)
    · exact hw
  · intro ha
    obtain ⟨response, k, rfl⟩ := facts.announcing ha
    rw [hf.latest, heq]
    exact hanswers (facts.answered response k rfl)
  · rw [heq]
    rcases answer_answerTo _ effect with ha | ⟨response, ha⟩
    · exact .inl ha
    · exact .inr (hanswers (facts.answered response _ ha))
  · intro k hk
    rw [hslots] at hk ⊢
    rcases eq_or_ne k i with rfl | hne
    · rw [update_self] at hk ⊢
      by_cases he : effect = .acquired
      · subst he
        exact .inl (hacting (facts.acquired rfl))
      · rcases facts.lowered hk with hzero | hno | hr
        · by_cases hr : releasing pc = true
          · refine .inr (.inl (decide_eq_true ⟨rfl, ?_⟩))
            rcases facts.released hr with hstill | hpos
            · exact hstill
            · exact absurd hk hpos.ne'
          · refine .inr (.inr ⟨hzero, if_neg he, ?_⟩)
            rw [hpc]
            exact decide_eq_false fun hand ↦ hr hand.2
        · exact absurd hno he
        · exact .inr (.inl (decide_eq_true ⟨rfl, hr⟩))
    · rw [update_of_ne hne] at hk ⊢
      refine .inr (.inr ⟨hk, rfl, ?_⟩)
      rw [hpc]
      exact decide_eq_false fun hand ↦ hne hand.1.symm
  · intro hp
    rw [heq] at hp
    rcases answer_pendingConfigurator hp with hold | rfl
    · exact .inl hold
    · refine .inr ?_
      rw [hpc]
      exact facts.notified rfl

theorem FreshInv.moved {s t : State} (h : FreshInv s) {j : ℕ} {thread : Thread} {pc : ThreadPc}
    (ht : s.threads[j]? = some thread) (hf : ThreadFrame s t)
    (hthreads : t.threads = s.threads.set j { thread with pc := pc })
    (hactive : inProgress thread.pc = true) (hno : ∀ i, releases i thread.pc = false)
    (hanswers : threadAnswers pc = none) (hannouncing : threadAnnouncing pc = false)
    (hresponding : ∀ pid i pc', pc = .serve pid i pc' → responding pc' = false)
    (hanswer : t.answerTo = s.answerTo) (hpending : t.pendingConfigurator = s.pendingConfigurator)
    (hslots : ∀ i, (t.slots i).seg.semMToSRequest = (s.slots i).seg.semMToSRequest ∧
      (t.slots i).acquired = (s.slots i).acquired ∧ (t.slots i).written = (s.slots i).written) :
    FreshInv t := by
  have hok := h.threads thread (List.mem_of_getElem? ht)
  refine h.of_thread ht hf hthreads ⟨fun _ ↦ ?_, ?_, ?_, ?_⟩ (.inl hanswer)
    (fun i ↦ .inl (hslots i).2.2) ?_ ?_
  · rw [hf.latest]
    exact hok.acting hactive
  · intro k hk
    rw [hanswers] at hk
    cases hk
  · intro pid i pc' hpc hr
    rw [hresponding pid i pc' hpc] at hr
    cases hr
  · intro ha
    rw [hannouncing] at ha
    cases ha
  · intro i hi
    rw [(hslots i).1] at hi
    exact .inr (.inr ⟨hi, (hslots i).2.1, hno i⟩)
  · intro hp
    exact .inl (hpending ▸ hp)

theorem threadStep_inv {j : ℕ} {mustChange killed : Bool} {s t : State} (h : FreshInv s)
    (hok : sentWhenQuiet s (.thread j mustChange killed) = true)
    (hs : threadStep j mustChange killed s = some t) : FreshInv t := by
  have hf := threadStep_frame hs
  obtain ⟨thread, ht, hmove⟩ := threadStep_move hs
  simp only [sentWhenQuiet, ht] at hok
  cases hmove with
  | argumentRead hpc | alreadyConnected hpc | unassigned hpc | placed hpc | outOfMemory hpc =>
    apply h.moved ht hf rfl <;> simp [hpc, inProgress, releases, threadAnswers, threadAnnouncing,
      State.setPc]
  | claimed hpc =>
    rename_i pid i
    have hslots (k : Idx) :
        (update s.slots i { s.slots i with seg.pid := pid } k).seg.semMToSRequest =
          (s.slots k).seg.semMToSRequest ∧
        (update s.slots i { s.slots i with seg.pid := pid } k).acquired =
          (s.slots k).acquired ∧
        (update s.slots i { s.slots i with seg.pid := pid } k).written =
          (s.slots k).written :=
      ⟨update_kept (·.seg.semMToSRequest : Slot → ℕ) (by rfl) k,
        update_kept Slot.acquired (by rfl) k, update_kept Slot.written (by rfl) k⟩
    apply h.moved ht hf rfl <;> simp [hpc, inProgress, releases, threadAnswers, answers,
      threadAnnouncing, announcing, responding, State.setPc, State.setSeg]
    exact hslots
  | served hpc hstep =>
    simp only [hpc] at hok
    refine h.served ht hpc (fun signal hsignal ↦ ?_) hstep hf rfl
    subst hsignal
    have halone := of_decide_eq_true hok
    exact halone

theorem FreshInv.sent {s : State} (hquiet : Quiet s) (c : Command) :
    FreshInv { s with pendingMaster := true, latest := c, configurator := .waiting } := by
  refine ⟨?_, ?_, ?_, ?_, ?_, by simp⟩
  · simp [hquiet.sync, SyncPc.command]
  · intro u hu
    have hidle := hquiet.threads u hu
    have hnone {pc : Pc} {pid : Pid} {i : Idx} (hpc : u.pc = .serve pid i pc)
        (ha : active pc = true) : False := by
      rw [hpc] at hidle
      exact absurd ha (Bool.eq_false_iff.mp hidle)
    refine ⟨?_, ?_, ?_, ?_⟩
    · intro ha
      rw [hidle] at ha
      cases ha
    · intro k hk
      cases hpc : u.pc with
      | serve pid i pc =>
        rw [hpc] at hk
        exact (hnone hpc (active_of_answers hk)).elim
      | _ =>
        rw [hpc] at hk
        cases hk
    · intro pid i pc hpc hr
      exact (hnone hpc (active_of_responding hr)).elim
    · intro ha
      cases hpc : u.pc with
      | serve pid i pc =>
        rw [hpc] at ha
        exact (hnone hpc (active_of_announcing ha)).elim
      | _ =>
        rw [hpc] at ha
        cases ha
  · intro i hi
    exact .inr (hquiet.slots i hi)
  · intro c' hc
    rw [hquiet.sync] at hc
    cases hc
  · intro hp
    rw [hquiet.configurator] at hp
    cases hp

theorem FreshInv.keep_slot {s : State} (h : FreshInv s) {i : Idx} {slot : Slot}
    (hsem : slot.seg.semMToSRequest = (s.slots i).seg.semMToSRequest)
    (hacquired : slot.acquired = (s.slots i).acquired)
    (hwritten : slot.written = (s.slots i).written) :
    FreshInv { s with slots := update s.slots i slot } := by
  refine h.keep rfl rfl rfl (fun k ↦ ?_) h.sync h.notify h.pending h.reading
  dsimp only
  rcases eq_or_ne k i with rfl | hne
  · rw [update_self]
    exact ⟨hsem, hacquired, hwritten⟩
  · rw [update_of_ne hne]
    exact ⟨rfl, rfl, rfl⟩

theorem step_inv {s t : State} {e : Event} (h : FreshInv s) (hok : sentWhenQuiet s e = true)
    (hs : step s e = some t) : FreshInv t := by
  have hconfigurator {configurator : ConfiguratorPc} {control : ControlShm}
      {pendingConfigurator : Bool}
      (hp : pendingConfigurator = true → s.pendingConfigurator = true)
      (hr : configurator = .reading → s.answerTo = s.latest.id) :
      FreshInv { s with
        control := control
        pendingConfigurator := pendingConfigurator
        configurator := configurator } :=
    h.keep rfl rfl rfl (fun _ ↦ ⟨rfl, rfl, rfl⟩) h.sync h.notify (fun ht ↦ h.pending (hp ht)) hr
  cases e with
  | sync created killed => exact syncStep_inv h hs
  | thread j mustChange killed => exact threadStep_inv h hok hs
  | deliver pid signal =>
    rw [← Option.some.inj hs]
    unfold deliverStep
    split
    · exact h.keep_slot rfl rfl rfl
    · exact h
  | slave i w | configure i requestedParameters communicationCycleUs =>
    exact Option.some.inj hs ▸ h.keep_slot rfl rfl rfl
  | send =>
    obtain ⟨-, hs⟩ := Option.ite_none_right_eq_some.mp hs
    exact Option.some.inj hs ▸ .sent (of_decide_eq_true hok) _
  | take =>
    obtain ⟨⟨-, hp⟩, hs⟩ := Option.ite_none_right_eq_some.mp hs
    exact Option.some.inj hs ▸ hconfigurator (by simp) fun _ ↦ h.pending hp
  | _ =>
    obtain ⟨-, hs⟩ := Option.ite_none_right_eq_some.mp hs
    exact Option.some.inj hs ▸ hconfigurator id (by simp)

theorem initial_inv : FreshInv initial := by
  refine ⟨?_, ?_, ?_, ?_, ?_, ?_⟩
  · simp [initial, SyncPc.command]
  · simp [initial]
  · intro i hi
    simp [initial, Shmseg.initial] at hi
  · simp [initial]
  · simp [initial]
  · simp [initial]

/-- The control memory keeps the command the configurator waits for. -/
structure ControlKept (s : State) : Prop where
  waiting : s.configurator = .waiting → s.control.request = s.latest.request ∧
    s.control.affectedSlavePid = s.latest.pid
  reading : s.configurator = .reading → s.control.request = s.latest.request ∧
    s.control.affectedSlavePid = s.latest.pid

theorem ControlKept.keep {s t : State} (h : ControlKept s)
    (hrequest : t.control.request = s.control.request)
    (haffected : t.control.affectedSlavePid = s.control.affectedSlavePid)
    (hlatest : t.latest = s.latest) (hconfigurator : t.configurator = s.configurator) :
    ControlKept t := by
  refine ⟨?_, ?_⟩
  · rw [hrequest, haffected, hlatest, hconfigurator]
    exact h.waiting
  · rw [hrequest, haffected, hlatest, hconfigurator]
    exact h.reading

theorem step_controlKept {s t : State} {e : Event} (h : ControlKept s)
    (hs : step s e = some t) : ControlKept t := by
  cases e with
  | sync created killed =>
    have hf := syncStep_frame hs
    exact h.keep hf.request hf.affected hf.latest hf.configurator
  | thread j mustChange killed =>
    have hf := threadStep_frame hs
    exact h.keep hf.request hf.affected hf.latest hf.configurator
  | deliver pid signal =>
    have hf := deliverStep_frame pid signal s
    exact Option.some.inj hs ▸ h.keep hf.request hf.affected hf.latest hf.configurator
  | slave i w | configure i requestedParameters communicationCycleUs =>
    exact Option.some.inj hs ▸ h.keep rfl rfl rfl rfl
  | send =>
    obtain ⟨-, hs⟩ := Option.ite_none_right_eq_some.mp hs
    exact Option.some.inj hs ▸ ⟨fun _ ↦ ⟨rfl, rfl⟩, by simp⟩
  | take =>
    obtain ⟨⟨hwaiting, -⟩, hs⟩ := Option.ite_none_right_eq_some.mp hs
    exact Option.some.inj hs ▸ ⟨by simp, fun _ ↦ h.waiting hwaiting⟩
  | _ =>
    obtain ⟨-, hs⟩ := Option.ite_none_right_eq_some.mp hs
    exact Option.some.inj hs ▸ ⟨by simp, by simp⟩

theorem responseFresh_of_quiet {s : State}
    (h : Reaches step (fun s e ↦ sentWhenQuiet s e = true) initial s) : ResponseFresh s := by
  have hkept : ControlKept s :=
    h.invariant ⟨by simp [initial], by simp [initial]⟩ fun _ _ _ hinv _ ↦ step_controlKept hinv
  have hfresh : FreshInv s := h.invariant initial_inv fun _ _ _ ↦ step_inv
  exact ⟨hfresh.reading, fun hr ↦ (hkept.reading hr).1, fun hr ↦ (hkept.reading hr).2⟩

def disconnectedRun : List Event :=
  connectedRun ++ [Event.type .disconnectSlave, Event.name 100, Event.send] ++
    List.replicate 6 (Event.sync true true) ++
    [Event.slave 4 acknowledged, Event.deliver 100 .response] ++
    List.replicate 15 (Event.thread 0 false true) ++ [Event.take]

theorem disconnect_responseFresh :
    ∃ s, s.configurator = .reading ∧ s.control.response = .ack ∧ ResponseFresh s := by
  have hrun : (run (guarded step fun s e ↦ sentWhenQuiet s e = true) initial disconnectedRun).map
      (fun s ↦ (s.configurator, s.control.response)) = some (.reading, .ack) := by
    decide +kernel
  obtain ⟨s, hs, hview⟩ := Option.map_eq_some_iff.mp hrun
  simp only [Prod.mk.injEq] at hview
  exact ⟨s, hview.1, hview.2, responseFresh_of_quiet (.of_run hs)⟩

/-- The answer of slave 100 comes after the configurator gave up on it. The
configurator takes it for the answer of slave 132. -/
def lateAnswer : List Event :=
  [Event.type .connectSlave, Event.name 100, Event.send] ++
    List.replicate 3 (Event.sync true true) ++ List.replicate 7 (Event.thread 0 false true) ++
    [Event.timeout] ++ [Event.slave 4 acknowledged, Event.deliver 100 .response] ++
    List.replicate 12 (Event.thread 0 false true) ++
    [Event.type .connectSlave, Event.name 132, Event.send, Event.take]

theorem lateAnswer_taken : ¬ ∀ s, Reaches step unrestricted initial s → ResponseFresh s := by
  intro hall
  have hrun : (run step initial lateAnswer).map
      (fun s ↦ (s.configurator, s.answerTo, s.latest.id)) = some (.reading, 1, 2) := by
    decide +kernel
  obtain ⟨s, hs, hview⟩ := Option.map_eq_some_iff.mp hrun
  simp only [Prod.mk.injEq] at hview
  have hcommand := (hall s (.of_unrestricted_run hs)).command hview.1
  rw [hview.2.1, hview.2.2] at hcommand
  cases hcommand

end RealTimeCyclic.MasterResponse
