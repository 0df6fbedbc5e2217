import RealTimeCyclic.MasterAnswer

namespace RealTimeCyclic.MasterPatient

open Shm SlotThread Function Master Transition Tally MasterAnswer

/-- The configurator waits until it is answered. -/
def patient : Event → Bool
  | .timeout => false
  | _ => true

def patiently (t : Traced) (e : Event) : Bool := patient e && obligationsKept t e

section Processing

variable {t : Traced} {k : ℕ}

theorem processed_iff_pos : Processed t k ↔ 0 < obligations t k := by
  have hthreads : 0 < (t.state.threads.map threadHolds).count (some k) ↔
      ∃ u ∈ t.state.threads, threadHolds u = some k := by
    rw [List.count_pos_iff, List.mem_map]
  have hsync : 0 < tally (syncHolds t.state.sync) k ↔ syncHolds t.state.sync = some k := by
    unfold tally
    split_ifs with hk <;> simp [hk]
  unfold Processed obligations
  rw [← hsync, ← hthreads, ← entered_pos]
  omega

/-- The commands in processing are those that have been taken and not answered. -/
theorem processed_iff (h : AnswerInv True t) :
    Processed t k ↔ k ∈ t.taken ∧ k ∉ t.answers := by
  obtain ⟨drops, hcounts, hdrops⟩ := h.counts k
  have hdrops := hdrops trivial
  have htaken := List.nodup_iff_count_le_one.mp h.nodup k
  rw [processed_iff_pos, ← List.count_pos_iff, ← List.count_eq_zero]
  omega

end Processing

section Turn

/-- Every command that was taken is answered, and no other is on its way. -/
structure Rest (t : Traced) : Prop where
  answered : ∀ k, ¬ Processed t k
  unsent : t.state.pendingMaster = false
  unread : ∀ c, t.state.sync ≠ .readRequest c

/-- A command is only on its way or in processing while the configurator waits for the answer
to it. -/
structure TurnInv (t : Traced) : Prop where
  processed : ∀ k, Processed t k →
    k = t.state.latest.id ∧ t.state.configurator = .waiting
  pending : t.state.pendingMaster = true → t.state.configurator = .waiting
  reading : ∀ c, t.state.sync = .readRequest c →
    c.id = t.state.latest.id ∧ t.state.configurator = .waiting
  answer : t.state.pendingConfigurator = true → t.state.configurator = .waiting ∧ Rest t
  fault : ∀ c, t.state.sync ≠ .fault c

variable {t u : Traced} {s : State} {e : Event}

theorem TurnInv.rest (h : TurnInv t) (hpc : t.state.configurator ≠ .waiting) : Rest t where
  answered k hk := hpc (h.processed k hk).2
  unsent := by
    by_contra hpending
    exact hpc (h.pending (by simpa using hpending))
  unread c hc := hpc (h.reading c hc).2

theorem TurnInv.unanswered (h : TurnInv t) (hpc : t.state.configurator ≠ .waiting) :
    t.state.pendingConfigurator = false := by
  by_contra hanswer
  exact hpc (h.answer (by simpa using hanswer)).1

theorem TurnInv.of_rest (h : Rest t) (hanswer : t.state.pendingConfigurator = false)
    (hfault : ∀ c, t.state.sync ≠ .fault c) : TurnInv t where
  processed k hk := absurd hk (h.answered k)
  pending hpending := by simp [h.unsent] at hpending
  reading c hc := absurd hc (h.unread c)
  answer h := by simp [hanswer] at h
  fault := hfault

theorem TurnInv.of_step {answered : Option ℕ} (h : TurnInv t) (ha : AnswerInv True t)
    (ha' : AnswerInv True u) (htaken : u.taken = t.taken)
    (hanswers : u.answers = t.answers ++ answered.toList)
    (hanswered : ∀ k, answered = some k → Processed t k)
    (hlatest : u.state.latest = t.state.latest)
    (hconfigurator : u.state.configurator = t.state.configurator)
    (hpending : u.state.pendingMaster = t.state.pendingMaster)
    (hreading : ∀ c, u.state.sync = .readRequest c → t.state.sync = .readRequest c)
    (hfault : ∀ c, u.state.sync ≠ .fault c)
    (hanswer : u.state.pendingConfigurator = true →
      t.state.pendingConfigurator = true ∨ ∃ k, answered = some k) : TurnInv u := by
  have hprocessed {k : ℕ} (hk : Processed u k) : Processed t k ∧ answered ≠ some k := by
    obtain ⟨hmem, hnot⟩ := (processed_iff ha').mp hk
    rw [htaken] at hmem
    rw [hanswers, List.mem_append, not_or] at hnot
    refine ⟨(processed_iff ha).mpr ⟨hmem, hnot.1⟩, ?_⟩
    rintro rfl
    exact hnot.2 (by simp)
  refine ⟨fun k hk ↦ ?_, ?_, fun c hc ↦ ?_, fun hp ↦ ?_, hfault⟩
  · rw [hlatest, hconfigurator]
    exact h.processed k (hprocessed hk).1
  · rw [hpending, hconfigurator]
    exact h.pending
  · rw [hlatest, hconfigurator]
    exact h.reading c (hreading c hc)
  · rw [hconfigurator]
    rcases hanswer hp with hold | ⟨k, rfl⟩
    · obtain ⟨hwaiting, hrest⟩ := h.answer hold
      refine ⟨hwaiting, fun k hk ↦ hrest.answered k (hprocessed hk).1, ?_, fun c hc ↦ ?_⟩
      · rw [hpending]
        exact hrest.unsent
      · exact hrest.unread c (hreading c hc)
    · -- the command that is answered is the latest, so no other is on its way
      have hk := hanswered k rfl
      obtain ⟨hid, hwaiting⟩ := h.processed k hk
      have hmem := ((processed_iff ha).mp hk).1
      refine ⟨hwaiting, fun l hl ↦ ?_, ?_, fun c hc ↦ ?_⟩
      · obtain ⟨hlk, hne⟩ := hprocessed hl
        exact hne (congrArg some (hid.trans (h.processed l hlk).1.symm))
      · rw [hpending]
        by_contra hsent
        exact ha.pending (by simpa using hsent) (hid ▸ hmem)
      · have hc := hreading c hc
        exact (ha.reading c hc).1 ((h.reading c hc).1 ▸ hid ▸ hmem)

theorem answeredBy_processed {j k : ℕ} {mustChange killed : Bool}
    (h : answeredBy t.state (.thread j mustChange killed) = some k) : Processed t k := by
  simp only [answeredBy] at h
  split at h
  · rename_i thread hj
    split at h
    · rename_i pid i pc hpc
      refine .inr (.inl ⟨thread, List.mem_of_getElem? hj, ?_⟩)
      rw [threadHolds, hpc]
      cases pc <;> simp_all [announced, slotHolds]
    · cases h
  · cases h

theorem threadStep_answers {j : ℕ} {mustChange killed : Bool} {s s' : State}
    (hs : threadStep j mustChange killed s = some s') (hanswer : s'.pendingConfigurator = true) :
    s.pendingConfigurator = true ∨
      ∃ k, answeredBy s (.thread j mustChange killed) = some k := by
  obtain ⟨thread, hj, hmove⟩ := threadStep_move hs
  cases hmove with
  | @served pid i pc v effect hpc hstep =>
    rcases answer_pendingConfigurator hanswer with hold | hnotified
    · exact .inl hold
    · refine .inr ?_
      simp only [answeredBy, hj, hpc]
      subst hnotified
      have hmove := step_move hstep
      generalize hnotified : Effect.notified = effect at hmove
      cases hmove with
      | notified hpc | resetNotified hpc => exact ⟨_, congrArg announced hpc⟩
      | acknowledgeSent hpc => cases killed <;> cases hnotified
      | _ => cases hnotified
  | _ => exact .inl hanswer

theorem TurnInv.dispatched {c : Command} (h : TurnInv t) (ha : AnswerInv True t)
    (ha' : AnswerInv True u) (hpc : t.state.sync = .readRequest c)
    (htaken : u.taken = t.taken ++ [c.id]) (hanswers : u.answers = t.answers)
    (hlatest : u.state.latest = t.state.latest)
    (hconfigurator : u.state.configurator = t.state.configurator)
    (hpending : u.state.pendingMaster = t.state.pendingMaster)
    (hanswer : u.state.pendingConfigurator = t.state.pendingConfigurator)
    (hreading : ∀ c, u.state.sync ≠ .readRequest c) (hfault : ∀ c, u.state.sync ≠ .fault c) :
    TurnInv u := by
  refine ⟨fun k hk ↦ ?_, ?_, fun c hc ↦ absurd hc (hreading c), fun hp ↦ ?_, hfault⟩
  · obtain ⟨hmem, hnot⟩ := (processed_iff ha').mp hk
    rw [htaken] at hmem
    rw [hanswers] at hnot
    rw [hlatest, hconfigurator]
    rcases List.mem_append.mp hmem with hold | hnew
    · exact h.processed k ((processed_iff ha).mpr ⟨hold, hnot⟩)
    · rw [List.mem_singleton.mp hnew]
      exact h.reading c hpc
  · rw [hpending, hconfigurator]
    exact h.pending
  · rw [hanswer] at hp
    exact absurd hpc ((h.answer hp).2.unread c)

theorem syncStep_turn {created killed : Bool} (h : TurnInv t) (ha : AnswerInv True t)
    (ha' : AnswerInv True u) (hok : obligationsKept t (.sync created killed) = true)
    (hstep : step t (.sync created killed) = some u) : TurnInv u := by
  obtain ⟨s, hs, rfl⟩ := Option.map_eq_some_iff.mp hstep
  cases syncStep_move hs with
  | received hpc hpending =>
    refine ⟨fun k hk ↦ ?_, by simp, fun c hc ↦ ?_, fun hp ↦ ?_, by simp⟩
    · obtain ⟨hmem, hnot⟩ := (processed_iff ha').mp hk
      simp only [takenBy, answeredBy, hpc, Option.toList_none, List.append_nil] at hmem hnot
      exact h.processed k ((processed_iff ha).mpr ⟨hmem, hnot⟩)
    · rw [← SyncPc.readRequest.inj hc]
      exact ⟨rfl, h.pending hpending⟩
    · have hunsent := (h.answer hp).2.unsent
      simp [hpending] at hunsent
  | connectRead hpc hrequest =>
    refine h.dispatched ha ha' hpc ?_ ?_ rfl rfl rfl rfl (by simp) (by simp)
    · simp [takenBy, hpc, hrequest, sendable]
    · simp [answeredBy, hpc]
  | requestRead hpc hrequest hsendable =>
    refine h.dispatched ha ha' hpc ?_ ?_ rfl rfl rfl rfl (by simp) (by simp)
    · simp [takenBy, hpc, hsendable]
    · simp [answeredBy, hpc]
  | ignored hpc hsendable =>
    refine h.of_step ha ha' ?_ rfl ?_ rfl rfl rfl (by simp) (by simp) .inl
    · simp [takenBy, hpc, hsendable]
    · simp [answeredBy, hpc]
  | outOfTable hpc hnone => simp [obligationsKept, hpc, hnone] at hok
  | @notified c hpc =>
    refine h.of_step ha ha' ?_ rfl ?_ rfl rfl rfl (by simp) (by simp) fun _ ↦ .inr ?_
    · simp [takenBy, hpc]
    · simp only [answeredBy, hpc]
      rintro k ⟨⟩
      exact .inl (by rw [hpc]; rfl)
    · simp [answeredBy, hpc]
  | _ hpc =>
    refine h.of_step ha ha' ?_ rfl ?_ rfl rfl rfl (by simp) (by simp) .inl
    · simp [takenBy, hpc]
    · simp [answeredBy, hpc]

theorem TurnInv.other (h : TurnInv t) (ha : AnswerInv True t) (ha' : AnswerInv True u)
    (htaken : u.taken = t.taken) (hanswers : u.answers = t.answers)
    (hf : ThreadFrame t.state u.state)
    (hanswer : u.state.pendingConfigurator = t.state.pendingConfigurator) : TurnInv u := by
  have hnone : u.answers = t.answers ++ (none : Option ℕ).toList := by simpa using hanswers
  refine h.of_step ha ha' htaken hnone (by simp) hf.latest hf.configurator hf.pendingMaster ?_ ?_
    fun hp ↦ .inl (hanswer ▸ hp)
  · rw [hf.sync]
    exact fun _ ↦ id
  · rw [hf.sync]
    exact h.fault

theorem processed_of_same {k : ℕ} (ha : AnswerInv True t) (ha' : AnswerInv True u)
    (htaken : u.taken = t.taken) (hanswers : u.answers = t.answers) (hk : Processed u k) :
    Processed t k := by
  rw [processed_iff ha, ← htaken, ← hanswers]
  exact (processed_iff ha').mp hk

theorem Rest.step (h : Rest t) (ha : AnswerInv True t) (ha' : AnswerInv True u)
    (htaken : u.taken = t.taken) (hanswers : u.answers = t.answers)
    (hsync : u.state.sync = t.state.sync)
    (hpending : u.state.pendingMaster = t.state.pendingMaster) : Rest u where
  answered k hk := h.answered k (processed_of_same ha ha' htaken hanswers hk)
  unsent := hpending.trans h.unsent
  unread := hsync ▸ h.unread

theorem step_turn (h : TurnInv t) (ha : AnswerInv True t) (hok : patiently t e = true)
    (hstep : step t e = some u) : TurnInv u := by
  obtain ⟨hpatient, hkept⟩ := Bool.and_eq_true_iff.mp hok
  have ha' := step_inv ha (responsesSent_of_kept hkept) (fun _ ↦ hkept) hstep
  have hstep' := hstep
  obtain ⟨s, hs, rfl⟩ := Option.map_eq_some_iff.mp hstep
  cases e with
  | sync created killed => exact syncStep_turn h ha ha' hkept hstep'
  | thread j mustChange killed =>
    have hf := threadStep_frame hs
    refine h.of_step ha ha' (by simp [takenBy]) rfl (fun k ↦ answeredBy_processed) hf.latest
      hf.configurator hf.pendingMaster ?_ ?_ (threadStep_answers hs)
    · rw [hf.sync]
      exact fun _ ↦ id
    · rw [hf.sync]
      exact h.fault
  | deliver pid signal =>
    obtain rfl := Option.some.inj hs
    refine h.other ha ha' (by simp [takenBy]) (by simp [answeredBy])
      (deliverStep_frame pid signal t.state) ?_
    unfold deliverStep
    split <;> rfl
  | slave i w | configure i requestedParameters communicationCycleUs =>
    obtain rfl := Option.some.inj hs
    exact h.other ha ha' (by simp [takenBy]) (by simp [answeredBy])
      ⟨rfl, rfl, rfl, rfl, rfl, rfl, rfl⟩ rfl
  | timeout => cases hpatient
  | send =>
    obtain ⟨hpc, hs⟩ := Option.ite_none_right_eq_some.mp hs
    obtain rfl := Option.some.inj hs
    have hnot : t.state.configurator ≠ .waiting := by simp [hpc]
    have hrest := h.rest hnot
    refine ⟨fun k hk ↦ absurd ?_ (hrest.answered k), fun _ ↦ rfl,
      fun c hc ↦ absurd hc (hrest.unread c), fun hp ↦ ?_, h.fault⟩
    · exact processed_of_same ha ha' (by simp [takenBy]) (by simp [answeredBy]) hk
    · exact absurd hp (by simp [h.unanswered hnot])
  | take =>
    obtain ⟨⟨-, hanswer⟩, hs⟩ := Option.ite_none_right_eq_some.mp hs
    obtain rfl := Option.some.inj hs
    have hrest := (h.answer hanswer).2
    exact .of_rest (hrest.step ha ha' (by simp [takenBy]) (by simp [answeredBy]) rfl rfl) rfl
      h.fault
  | type request | name pid | abandon | report =>
    obtain ⟨hpc, hs⟩ := Option.ite_none_right_eq_some.mp hs
    obtain rfl := Option.some.inj hs
    have hnot : t.state.configurator ≠ .waiting := by simp [hpc]
    have hrest := h.rest hnot
    exact .of_rest (hrest.step ha ha' (by simp [takenBy]) (by simp [answeredBy]) rfl rfl)
      (h.unanswered hnot) h.fault

end Turn

section Exclusive

variable {t : Traced} {j k l : ℕ} {i : Idx} {thread other : Thread}

/-- The latest command is the only one in processing, and only one party has it. At the prompt
of the configurator the master is at rest and has answered every command it took. -/
structure OneAtATime (t : Traced) : Prop where
  processed : ∀ k, Processed t k →
    k = t.state.latest.id ∧ t.state.configurator = .waiting
  sync : syncHolds t.state.sync ≠ none →
    (∀ thread ∈ t.state.threads, threadHolds thread = none) ∧ ∀ i, t.outstanding i = none
  thread : ∀ (j k : ℕ) (thread other : Thread), t.state.threads[j]? = some thread →
    t.state.threads[k]? = some other → threadHolds thread ≠ none →
      syncHolds t.state.sync = none ∧ (∀ i, t.outstanding i = none) ∧
        (k ≠ j → threadHolds other = none)
  slave : ∀ i j, t.outstanding i ≠ none → t.outstanding j ≠ none → i = j
  prompt : t.state.configurator ≠ .waiting ∨ t.state.pendingConfigurator = true →
    t.state.sync = .sigwaitinfo ∧ t.state.pendingMaster = false ∧ (∀ k, ¬ Processed t k) ∧
      ∀ k ∈ t.taken, k ∈ t.answers

theorem obligations_le (ha : AnswerInv True t) (k : ℕ) : obligations t k ≤ 1 := by
  obtain ⟨drops, hcounts, -⟩ := ha.counts k
  have htaken := List.nodup_iff_count_le_one.mp ha.nodup k
  omega

theorem count_threads (hjk : j ≠ k) (hj : t.state.threads[j]? = some thread)
    (hk : t.state.threads[k]? = some other) (hthread : threadHolds thread = some l)
    (hother : threadHolds other = some l) :
    2 ≤ (t.state.threads.map threadHolds).count (some l) := by
  rw [List.count, List.countP_map]
  exact two_le_countP hjk hj hk (by simp [hthread]) (by simp [hother])

theorem TurnInv.oneAtATime (h : TurnInv t) (ha : AnswerInv True t) : OneAtATime t := by
  have hle := obligations_le ha t.state.latest.id
  have hlatest {held : Option ℕ} (hheld : held ≠ none)
      (hprocessed : ∀ k, held = some k → Processed t k) : held = some t.state.latest.id := by
    obtain ⟨k, rfl⟩ := Option.ne_none_iff_exists'.mp hheld
    rw [(h.processed k (hprocessed k rfl)).1]
  have hsync (hheld : syncHolds t.state.sync ≠ none) :
      tally (syncHolds t.state.sync) t.state.latest.id = 1 :=
    if_pos (hlatest hheld fun k ↦ .inl)
  have hthread {thread : Thread} (hmem : thread ∈ t.state.threads)
      (hheld : threadHolds thread ≠ none) : threadHolds thread = some t.state.latest.id :=
    hlatest hheld fun k hk ↦ .inr (.inl ⟨thread, hmem, hk⟩)
  have hthreads {thread : Thread} (hmem : thread ∈ t.state.threads)
      (hheld : threadHolds thread ≠ none) :
      0 < (t.state.threads.map threadHolds).count (some t.state.latest.id) :=
    List.count_pos_iff.mpr (List.mem_map.mpr ⟨thread, hmem, hthread hmem hheld⟩)
  have hslave {i : Idx} (hheld : t.outstanding i ≠ none) :
      t.outstanding i = some t.state.latest.id := hlatest hheld fun k hk ↦ .inr (.inr ⟨i, hk⟩)
  have hslaves {i : Idx} (hheld : t.outstanding i ≠ none) :
      0 < entered t.outstanding (some t.state.latest.id) := entered_pos.mpr ⟨i, hslave hheld⟩
  unfold obligations at hle
  refine ⟨h.processed, fun hheld ↦ ⟨fun thread hmem ↦ ?_, fun i ↦ ?_⟩,
    fun j k thread other hj hk hheld ↦ ⟨?_, fun i ↦ ?_, fun hkj ↦ ?_⟩, fun i j hi hj ↦ ?_, ?_⟩
  · by_contra hother
    have hone := hsync hheld
    have hpos := hthreads hmem hother
    omega
  · by_contra hother
    have hone := hsync hheld
    have hpos := hslaves hother
    omega
  · by_contra hother
    have hone := hsync hother
    have hpos := hthreads (List.mem_of_getElem? hj) hheld
    omega
  · by_contra hother
    have hpos := hthreads (List.mem_of_getElem? hj) hheld
    have hpos' := hslaves hother
    omega
  · by_contra hother
    have htwo := count_threads (Ne.symm hkj) hj hk (hthread (List.mem_of_getElem? hj) hheld)
      (hthread (List.mem_of_getElem? hk) hother)
    omega
  · by_contra hij
    have htwo := two_le_entered hij (hslave hi) (hslave hj)
    omega
  · intro hprompt
    have hrest : Rest t := by
      rcases hprompt with hnot | hanswer
      · exact h.rest hnot
      · exact (h.answer hanswer).2
    refine ⟨?_, hrest.unsent, hrest.answered, fun k hk ↦ ?_⟩
    · cases hpc : t.state.sync with
      | sigwaitinfo => rfl
      | readRequest c => exact absurd hpc (hrest.unread c)
      | fault c => exact absurd hpc (h.fault c)
      | _ => exact absurd (.inl (by rw [hpc]; rfl)) (hrest.answered _)
    · by_contra hnot
      exact hrest.answered k ((processed_iff ha).mpr ⟨hk, hnot⟩)

theorem initial_turn : TurnInv MasterAnswer.initial := by
  refine .of_rest ⟨fun k hk ↦ ?_, rfl, ?_⟩ rfl ?_
  · have hmem := ((processed_iff (initial_inv True)).mp hk).1
    cases hmem
  · rintro c ⟨⟩
  · rintro c ⟨⟩

/-- A configurator that waits for its answers has its commands processed one at a time. -/
theorem oneAtATime_of_patient {t : Traced}
    (h : Reaches MasterAnswer.step (fun t e ↦ patiently t e = true) MasterAnswer.initial t) : OneAtATime t := by
  have hinv := h.layered (initial_inv True) initial_turn
    (fun _ _ _ ha hok hs ↦ step_inv ha
      (responsesSent_of_kept (Bool.and_eq_true_iff.mp hok).2)
      (fun _ ↦ (Bool.and_eq_true_iff.mp hok).2) hs)
    (fun _ _ _ ha hturn hok hs ↦ step_turn hturn ha hok hs)
  exact hinv.2.oneAtATime hinv.1

theorem fourCommands_oneAtATime : ∃ t, t.taken = [1, 2, 3, 4] ∧ t.outstanding 4 = some 4 ∧
    OneAtATime t := by
  have hrun : (run (guarded MasterAnswer.step fun t e ↦ patiently t e = true) MasterAnswer.initial
      fourCommands).map
      (fun t ↦ (t.taken, t.outstanding 4)) = some ([1, 2, 3, 4], some 4) := by
    decide +kernel
  obtain ⟨t, ht, hview⟩ := Option.map_eq_some_iff.mp hrun
  simp only [Prod.mk.injEq] at hview
  exact ⟨t, hview.1, hview.2, oneAtATime_of_patient (.of_run ht)⟩

end Exclusive

end RealTimeCyclic.MasterPatient
