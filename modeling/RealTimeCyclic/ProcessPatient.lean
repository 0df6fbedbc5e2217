import RealTimeCyclic.MasterPatient
import RealTimeCyclic.ProcessSafety

namespace RealTimeCyclic.ProcessSlots

open Shm Slave SlotThread Probing Function Transition Processes
open MasterAnswer (Traced AnswerInv threadHolds syncHolds slotHolds)
open MasterPatient (TurnInv OneAtATime patiently)

section Order

def unasked : Pc → Bool
  | .resetMemset k | .resetInit k | .resetDrainMToS k | .resetPostMToS k | .resetDrainSToM k
  | .resetPostSToM k | .resetAnswer k => k.isNone
  | _ => false

def target : Master.SyncPc → Option Idx
  | .checkCycle _ _ i | .semWait _ _ _ i | .write _ _ _ i | .kill _ _ _ i => some i
  | _ => none

/-- What the command in processing relies on. -/
structure OrderInv (pids : Idx → Pid) (m : Master.State) : Prop where
  claims : ∀ thread ∈ m.threads, ∀ pid i, thread.pc = .claim pid i →
    (m.slots i).seg.pid = noPid
  found : ∀ i, target m.sync = some i → (m.slots i).seg.pid = pids i
  asked : ∀ thread ∈ m.threads, ∀ pid i pc, thread.pc = .serve pid i pc → unasked pc = false

variable {pids : Idx → Pid} {m m' : Master.State} {t : Traced} {n : ℕ} {thread : Master.Thread}
  {i : Idx} {pc : Pc}

theorem step_unasked {current : ℕ} {mustChange : Bool} {v v' : View} {effect : Effect}
    (h : SlotThread.step current mustChange true v = some (v', effect))
    (hasked : unasked v.pc = false) : unasked v'.pc = false := by
  cases step_move h with
  | jumped hjump => cases hjump <;> simp_all [unasked]
  | _ => simp_all [unasked]

theorem holds_of_clearing (acting : ℕ) (hasked : unasked pc = false)
    (hpc : pc.cleared = true ∨ ∃ k, pc = .resetMemset k) : slotHolds acting pc ≠ none := by
  have hsome {k : Option ℕ} (hk : k.isNone = false) : k ≠ none := by
    rintro rfl
    cases hk
  rcases hpc with hcleared | ⟨k, rfl⟩
  · cases pc with
    | resetInit k | resetDrainMToS k | resetPostMToS k | resetDrainSToM k | resetPostSToM k
    | resetAnswer k => exact hsome hasked
    | resetNotify k => simp [slotHolds]
    | _ => cases hcleared
  · exact hsome hasked

theorem OrderInv.keep (h : OrderInv pids m)
    (hpid : ∀ i, (m'.slots i).seg.pid = (m.slots i).seg.pid)
    (hthreads : ∀ thread ∈ m'.threads, thread ∈ m.threads ∨ thread.pc = .readArgument)
    (hsync : ∀ i, target m'.sync = some i → (m.slots i).seg.pid = pids i) : OrderInv pids m' := by
  refine ⟨fun thread hmem pid i hpc ↦ ?_, fun i hi ↦ (hpid i).trans (hsync i hi),
    fun thread hmem pid i pc hpc ↦ ?_⟩
  · rw [hpid]
    rcases hthreads thread hmem with hold | hnew
    · exact h.claims thread hold pid i hpc
    · rw [hnew] at hpc
      cases hpc
  · rcases hthreads thread hmem with hold | hnew
    · exact h.asked thread hold pid i pc hpc
    · rw [hnew] at hpc
      cases hpc

theorem OrderInv.of_thread {thread' : Master.Thread} (h : OrderInv pids m)
    (hone : OneAtATime t) (ht : t.state = m) (hn : m.threads[n]? = some thread)
    (hthreads : m'.threads = m.threads.set n thread') (hsync : m'.sync = m.sync)
    (hpid : (∀ i, (m'.slots i).seg.pid = (m.slots i).seg.pid) ∨ threadHolds thread ≠ none)
    (hclaim : ∀ pid i, thread'.pc = .claim pid i → (m'.slots i).seg.pid = noPid)
    (hasked : ∀ pid i pc, thread'.pc = .serve pid i pc → unasked pc = false) :
    OrderInv pids m' := by
  subst ht
  refine ⟨fun other hmem pid i hpc ↦ ?_, fun i hi ↦ ?_, fun other hmem pid i pc hpc ↦ ?_⟩
  · rw [hthreads] at hmem
    obtain ⟨k, hk⟩ := List.getElem?_of_mem hmem
    rcases Master.getElem?_set_cases hk with ⟨-, rfl⟩ | ⟨hkn, hk⟩
    · exact hclaim pid i hpc
    · rcases hpid with hsame | hholds
      · rw [hsame]
        exact h.claims other (List.mem_of_getElem? hk) pid i hpc
      · -- two threads cannot have the command
        have hnone := (hone.thread n k thread other hn hk hholds).2.2 hkn
        rw [threadHolds, hpc] at hnone
        cases hnone
  · rw [hsync] at hi
    rcases hpid with hsame | hholds
    · rw [hsame]
      exact h.found i hi
    · have hnone := (hone.thread n n thread thread hn hn hholds).1
      cases hpc : t.state.sync <;> simp_all [target, syncHolds]
  · rw [hthreads] at hmem
    rcases List.mem_or_eq_of_mem_set hmem with hold | rfl
    · exact h.asked other hold pid i pc hpc
    · exact hasked pid i pc hpc

theorem threadStep_order {mustChange : Bool} (h : OrderInv pids m) (hone : OneAtATime t)
    (ht : t.state = m) (hs : Master.threadStep n mustChange true m = some m') :
    OrderInv pids m' := by
  have hf := Master.threadStep_frame hs
  obtain ⟨thread, hn, hmove⟩ := Master.threadStep_move hs
  have hmem := List.mem_of_getElem? hn
  cases hmove with
  | @placed pid i hpc hfree =>
    refine h.of_thread hone ht hn rfl rfl (.inl fun _ ↦ rfl) ?_ (by rintro _ _ _ ⟨⟩)
    rintro _ _ ⟨⟩
    have hpid : (m.slots i).seg.pid = noPid := by simpa using probe_some hfree
    exact hpid
  | claimed hpc =>
    refine h.of_thread hone ht hn rfl rfl (.inr ?_) (by rintro _ _ ⟨⟩) ?_
    · rw [threadHolds, hpc]
      exact Option.some_ne_none _
    · rintro pid i pc ⟨⟩
      rfl
  | @served pid i pc v effect hpc hstep =>
    have hasked := h.asked thread hmem pid i pc hpc
    refine h.of_thread hone ht hn (Master.answer_threads _ _) hf.sync ?_ (by rintro _ _ ⟨⟩) ?_
    · rw [Master.answer_slots]
      rcases step_pid hstep with ⟨hpid, -⟩ | hzeroed | hinitialized
      · exact .inl (Master.update_kept (fun slot : Master.Slot ↦ slot.seg.pid) hpid)
      · obtain ⟨k, hk, -⟩ := hzeroed
        refine .inr ?_
        rw [threadHolds, hpc]
        exact holds_of_clearing _ hasked (.inr ⟨k, hk⟩)
      · obtain ⟨k, hk, -⟩ := hinitialized
        refine .inr ?_
        rw [threadHolds, hpc]
        refine holds_of_clearing _ hasked (.inl ?_)
        rw [show pc = .resetInit k from hk]
        rfl
    · rintro pid i pc' ⟨⟩
      exact step_unasked hstep hasked
  | _ hpc =>
    exact h.of_thread hone ht hn rfl rfl (.inl fun _ ↦ rfl) (by rintro _ _ ⟨⟩) (by rintro _ _ _ ⟨⟩)

theorem syncStep_order {created : Bool} (hhome : HomeInv pids m) (h : OrderInv pids m)
    (hs : Master.syncStep created true m = some m') : OrderInv pids m' := by
  have hfound := h.found
  cases Master.syncStep_move hs with
  | threadCreated hpc =>
    refine h.keep (fun _ ↦ rfl) (fun thread hmem ↦ ?_) (by rintro _ ⟨⟩)
    rcases List.mem_append.mp hmem with hold | hnew
    · exact .inl hold
    · rw [List.mem_singleton.mp hnew]
      exact .inr rfl
  | startFound hpc hslot | slaveFound hpc hrequest hslot =>
    refine h.keep (fun _ ↦ rfl) (fun _ ↦ .inl) ?_
    rintro i ⟨⟩
    exact found_pid hhome hpc hslot
  | cycleSet hpc =>
    rw [hpc] at hfound
    exact h.keep (fun _ ↦ rfl) (fun _ ↦ .inl) hfound
  | acquired hpc hpos | written hpc =>
    rw [hpc] at hfound
    exact h.keep (Master.update_kept (fun slot : Master.Slot ↦ slot.seg.pid) (by rfl))
      (fun _ ↦ .inl) hfound
  | _ hpc => exact h.keep (fun _ ↦ rfl) (fun _ ↦ .inl) (by rintro _ ⟨⟩)

end Order

section Patient

variable {pids : Idx → Pid} {s t : State} {e : Event} {tr : Traced}

def note (pids : Idx → Pid) (s : State) (e : Event) (tr : Traced) : Traced :=
  (MasterAnswer.step tr (masterEvent pids s e)).getD tr

/-- The configurator waits until it is answered, and the obligations are met. -/
def orderly (pids : Idx → Pid) (o : Observed State Traced) (e : Event) : Bool :=
  patiently o.notes (masterEvent pids o.state e)

theorem step_order (hhome : HomeInv pids s.master) (h : OrderInv pids s.master)
    (hone : OneAtATime tr) (htr : tr.state = s.master) (hs : step pids s e = some t) :
    OrderInv pids t.master := by
  have hslave {i : Idx} {threadStep : Slot.State → Option Slot.State}
      (hframe : ∀ u v, threadStep u = some v → SlaveFrame u v)
      (hs : slaveStep i threadStep s = some t) : OrderInv pids t.master := by
    obtain ⟨u, hu, rfl⟩ := slaveStep_eq_some hs
    refine h.keep (Master.update_kept (fun slot : Master.Slot ↦ slot.seg.pid) ?_) (fun _ ↦ .inl)
      h.found
    exact (hframe _ _ hu).pid
  cases e with
  | sync created => exact syncStep_order hhome h (masterStep_eq_some hs).1
  | thread n mustChange =>
    obtain ⟨-, hs⟩ := Option.ite_none_right_eq_some.mp hs
    exact threadStep_order h hone htr (masterStep_eq_some hs).1
  | deliver i =>
    obtain ⟨signal, toMaster, -, hm, -⟩ := deliver_eq_some hs
    rw [hm]
    refine h.keep (fun k ↦ ?_) (fun thread hmem ↦ .inl ?_) ?_
    · rw [Master.deliverStep_seg]
    · rwa [Master.deliverStep_threads] at hmem
    · rw [(Master.deliverStep_frame (pids i) signal s.master).sync]
      exact h.found
  | handler i =>
    obtain ⟨-, hs⟩ := Option.ite_none_right_eq_some.mp hs
    exact hslave (fun _ _ ↦ handlerStep_frame) hs
  | cycle i usleep rand now =>
    obtain ⟨-, hs⟩ := Option.ite_none_right_eq_some.mp hs
    exact hslave (fun _ _ ↦ cycleStep_frame) hs
  | configure i requestedParameters communicationCycleUs =>
    rw [← Option.some.inj (masterStep_eq_some hs).1]
    exact h.keep (Master.update_kept (fun slot : Master.Slot ↦ slot.seg.pid) (by rfl))
      (fun _ ↦ .inl) h.found
  | _ =>
    obtain ⟨-, hm⟩ := Option.ite_none_right_eq_some.mp (masterStep_eq_some hs).1
    rw [← Option.some.inj hm]
    exact h.keep (fun _ ↦ rfl) (fun _ ↦ .inl) h.found

theorem claim_unserved {n : ℕ} {thread : Master.Thread} {pid : Pid} {i : Idx}
    (hpids : Homes pids) (hhome : HomeInv pids s.master) (h : OrderInv pids s.master)
    (hone : OneAtATime tr) (htr : tr.state = s.master) (hn : s.master.threads[n]? = some thread)
    (hpc : thread.pc = .claim pid i) (hfree : (s.master.slots i).seg.pid = noPid) :
    unserved s.master.threads i = true := by
  refine List.all_eq_true.mpr fun other hmem ↦ ?_
  obtain ⟨k, hk⟩ := List.getElem?_of_mem hmem
  split
  · rename_i pid' j pc hserve
    refine decide_eq_true ?_
    by_contra hserves
    obtain ⟨rfl, hne⟩ := not_or.mp hserves |>.imp_left not_not.mp
    by_cases hcleared : pc.cleared = true
    · -- the thread that clears the slot has the command, which the claiming thread has
      have hholds := holds_of_clearing other.acting (h.asked other hmem pid' j pc hserve)
        (.inl hcleared)
      have hnk : n ≠ k := by
        rintro rfl
        obtain rfl := Option.some.inj (hn.symm.trans hk)
        rw [hpc] at hserve
        cases hserve
      rw [← htr] at hn hk
      have hnone := (hone.thread k n other thread hk hn (by rwa [threadHolds, hserve])).2.2 hnk
      rw [threadHolds, hpc] at hnone
      cases hnone
    · have hpid := hhome.serving j k pc ⟨other, pid', hk, hserve, hne⟩ (by simpa using hcleared)
      exact ne_noPid_of_pos (hpids.positive j) (hpid.symm.trans hfree)
  · rfl

theorem apart_of_order (hpids : Homes pids) (hhome : HomeInv pids s.master)
    (h : OrderInv pids s.master) (hone : OneAtATime tr) (htr : tr.state = s.master) (e : Event) :
    apart pids s e = true := by
  cases e with
  | sync created =>
    simp only [apart]
    split
    · rename_i c request pid i hpc
      exact decide_eq_true fun _ ↦ h.found i (by rw [hpc]; rfl)
    · rfl
  | thread n mustChange =>
    simp only [apart]
    split
    · rename_i thread hn
      split
      · rename_i pid i hpc
        have hfree := h.claims thread (List.mem_of_getElem? hn) pid i hpc
        have hunserved := claim_unserved hpids hhome h hone htr hn hpc hfree
        rw [← htr] at hn
        have hnone := (hone.thread n n thread thread hn hn (by simp [threadHolds, hpc])).1
        rw [htr] at hnone
        have hsync : syncAt i s.master.sync = .sigwaitinfo := by
          cases hat : s.master.sync <;> simp_all [syncAt, syncHolds]
        simp [hfree, hunserved, hsync]
      · rfl
    · rfl
  | _ => rfl

/-- What holds in orderly runs. -/
structure PatientInv (pids : Idx → Pid) (s₀ : State) (o : Observed State Traced) : Prop where
  notes : o.notes.state = o.state.master
  answers : AnswerInv True o.notes
  turn : TurnInv o.notes
  home : HomeInv pids o.state.master
  order : OrderInv pids o.state.master
  apart : Reaches (step pids) (fun s e ↦ apart pids s e = true) s₀ o.state

theorem PatientInv.next {s₀ : State} {o o' : Observed State Traced} (hpids : Homes pids)
    (h : PatientInv pids s₀ o) (hok : orderly pids o e = true)
    (hs : observe (step pids) (note pids) o e = some o') : PatientInv pids s₀ o' := by
  obtain ⟨t, ht, rfl⟩ := observe_eq_some hs
  have hone := h.turn.oneAtATime h.answers
  have happart := apart_of_order hpids h.home h.order hone h.notes e
  have hkept := (Bool.and_eq_true_iff.mp hok).2
  obtain ⟨tr, htr⟩ : ∃ tr, MasterAnswer.step o.notes (masterEvent pids o.state e) = some tr ∧
      tr.state = t.master := by
    refine ⟨_, Option.map_eq_some_iff.mpr ⟨t.master, ?_, rfl⟩, rfl⟩
    rw [h.notes]
    exact step_master ht
  have hnote : note pids o.state e o.notes = tr := by
    rw [note, htr.1, Option.getD_some]
  rw [hnote]
  exact ⟨htr.2, MasterAnswer.step_inv h.answers (MasterAnswer.responsesSent_of_kept hkept)
    (fun _ ↦ hkept) htr.1, MasterPatient.step_turn h.turn h.answers hok htr.1,
    home_step h.home happart ht, step_order h.home h.order hone h.notes ht,
    h.apart.next happart ht⟩

theorem initial_patient (pids : Idx → Pid) (name : Idx → CString.Mem)
    (availableParameters : Idx → ℕ) : PatientInv pids (initial name availableParameters)
      ⟨initial name availableParameters, MasterAnswer.initial⟩ := by
  refine ⟨rfl, MasterAnswer.initial_inv True, MasterPatient.initial_turn, initial_home pids,
    ⟨?_, ?_, ?_⟩, .start⟩
  · rintro thread ⟨⟩
  · rintro i ⟨⟩
  · rintro thread ⟨⟩

/-- With a configurator that waits for its answers, slots are claimed apart and each of them goes
through a run of its own. -/
theorem apart_of_orderly (hpids : Homes pids) {name : Idx → CString.Mem}
    {availableParameters : Idx → ℕ} {o : Observed State Traced}
    (h : Reaches (observe (step pids) (note pids)) (fun o e ↦ orderly pids o e = true)
      ⟨initial name availableParameters, MasterAnswer.initial⟩ o) :
    OneAtATime o.notes ∧
      Reaches (step pids) (fun s e ↦ apart pids s e = true) (initial name availableParameters)
        o.state := by
  have hinv := h.invariant (initial_patient pids name availableParameters)
    fun _ _ _ hinv ↦ hinv.next hpids
  exact ⟨hinv.turn.oneAtATime hinv.answers, hinv.apart⟩

theorem twoSlaves_orderly : ∃ o : Observed State Traced,
    (o.state.master.slots 4).seg.cycleStarted = true ∧
      (o.state.master.slots 7).seg.isConnected = true ∧ OneAtATime o.notes ∧
        Reaches (step slavePid) (fun s e ↦ apart slavePid s e = true)
          (initial (fun _ ↦ [97]) fun _ ↦ 7) o.state := by
  have hrun : (run (guarded (observe (step slavePid) (note slavePid))
      fun o e ↦ orderly slavePid o e = true)
      ⟨initial (fun _ ↦ [97]) fun _ ↦ 7, MasterAnswer.initial⟩ twoSlaves).map
      (fun o ↦ ((o.state.master.slots 4).seg.cycleStarted,
        (o.state.master.slots 7).seg.isConnected)) = some (true, true) := by
    decide +kernel
  obtain ⟨o, ho, hview⟩ := Option.map_eq_some_iff.mp hrun
  simp only [Prod.mk.injEq] at hview
  exact ⟨o, hview.1, hview.2, apart_of_orderly slavePid_homes (.of_run ho)⟩

end Patient

end RealTimeCyclic.ProcessSlots
