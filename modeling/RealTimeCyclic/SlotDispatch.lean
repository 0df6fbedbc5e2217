import RealTimeCyclic.SlotParameter

namespace RealTimeCyclic.SlotDispatch

open Shm Slave SlotThread Slot Transition SlotCommand SlotParameter

def handlerAnswering : HandlerPc → Bool
  | .getvalueMToS _ | .requestSwitch _ | .connect _ | .disconnect _ | .changeName _
  | .startRead _ | .startWrite _ | .startPost _ | .stopRead _ | .stopWrite _ | .stopWait _
  | .unrecognized _ _ | .respond _ _ _ | .kill _ _ _ => true
  | _ => false

def slotAnswering : Pc → Bool
  | .requestErrors signal | .getvalueSToM signal => signal = .response
  | _ => false

def answering (s : State) : Bool :=
  handlerAnswering s.handler ∨ .response ∈ s.toMaster ∨ .response ∈ s.wake ∨
    slotAnswering s.slot

/-- No command is decoded while a parameter request is open, none is opened
while a command is being answered, and the slave does not give up waiting. -/
def kindsSeparate (s : State) : Event → Bool
  | .handler =>
    match s.handler with
    | .getvalueSToM signal => s.seg.semSToMRequest ≠ 0 ∨ signal ≠ .command
    | _ => true
  | .cycle _ _ _ =>
    match s.cycle with
    | .trywait _ _ threshold =>
      if s.seg.semSToMRequest ≠ 0 then ¬ answering s
      else threshold < waitMasterResponseTimeoutSegments
    | _ => true
  | _ => true

/-- The slave dispatches every command at most once and no acknowledgement, and
the master serves every parameter request at most once and nothing else. -/
structure AtMostOnce (s : State) : Prop where
  dispatched : ∀ k, s.history.dispatched.count k ≤ 1
  command : ∀ signal, s.handler = .requestSwitch signal → signal = .command
  handled : ∀ k, s.history.handled.count k ≤ 1
  parameter : ∀ signal,
    s.slot = .requestConnected signal ∨ s.slot = .requestSwitch signal ∨
      s.slot = .requestAck signal ∨ s.slot = .requestKill signal → ∃ k, signal = .parameter k

def AnswerInv (s : State) : Prop := answering s = true → 0 < s.seg.semSToMRequest

theorem answering_iff {s : State} : answering s = true ↔
    handlerAnswering s.handler = true ∨ .response ∈ s.toMaster ∨ .response ∈ s.wake ∨
      slotAnswering s.slot = true := by
  simp [answering]

theorem handlerCommands_of_answering {pc : HandlerPc} (ha : handlerAnswering pc = true)
    (hok : SlotParameter.HandlerOk pc) :
    handlerCommands pc = 1 := by
  cases pc <;> simp_all [handlerAnswering, handlerCommands, SlotParameter.HandlerOk]

/-- The slot thread takes an answer only from what woke it, and lowers the
slave's semaphore only while it resets the slot. -/
theorem slotThread_step {current : ℕ} {mustChange killed : Bool} {v v' : View} {effect : Effect}
    (h : SlotThread.step current mustChange killed v = some (v', effect)) :
    (slotAnswering v'.pc = true → slotAnswering v.pc = true ∨ .response ∈ v.wake) ∧
      v'.wake ⊆ v.wake ∧
      (v.seg.semSToMRequest ≤ v'.seg.semSToMRequest ∨ (∃ k, v.pc = .resetMemset k) ∨
        ∃ k, v.pc = .resetDrainSToM k ∧ 0 < v.seg.semSToMRequest) := by
  cases step_move h with
  | jumped hjump => cases hjump <;> simp [slotAnswering]
  | woken hpc hwake =>
    rename_i signal wake
    rw [hwake]
    refine ⟨fun hd ↦ .inr ?_, List.subset_cons_self _ _, .inl le_rfl⟩
    have hresponse : signal = .response := by simpa [slotAnswering] using hd
    exact hresponse ▸ List.mem_cons_self
  | errorsHandled hpc hseg =>
    exact ⟨fun hd ↦ .inl (by simpa [hpc, slotAnswering] using hd), List.Subset.refl _,
      .inl (SameControl.of_errors hseg).semSToMRequest.ge⟩
  | received hpc =>
    simp [slotAnswering, (receiveParameters_sameControl v.seg).semSToMRequest]
  | zeroed hpc => simp [hpc, slotAnswering]
  | loweredSToM hpc hpos => simp [hpc, hpos, slotAnswering]
  | _ => simp_all [slotAnswering]

theorem slotStep_inv {s t : State} {mustChange : Bool} (hc : CommandInv p q s)
    (hp : ParameterInv s) (h : AnswerInv s) (hs : slotStep mustChange s = some t) :
    AnswerInv t := by
  obtain ⟨v, effect, hstep, rfl⟩ := slotStep_eq_some hs
  obtain ⟨hslot, hwake, hsem⟩ := slotThread_step hstep
  intro ht
  have hs : answering s = true := by
    rw [answering_iff] at ht ⊢
    simp only [State.effect_handler, State.effect_toMaster, State.effect_wake,
      State.effect_slot] at ht
    rcases ht with hhandler | hmaster | hwoken | hanswer
    · exact .inl hhandler
    · exact .inr (.inl hmaster)
    · exact .inr (.inr (.inl (hwake hwoken)))
    · rcases hslot hanswer with hold | hold
      · exact .inr (.inr (.inr hold))
      · exact .inr (.inr (.inl hold))
  have hpos := h hs
  rw [State.effect_seg]
  rcases hsem with hle | ⟨k, hpc⟩ | ⟨k, hpc, -⟩
  · exact hpos.trans_le hle
  · replace hpc : s.slot = .resetMemset k := hpc
    obtain ⟨-, hhandler, -, hmaster, hwoken, -, -⟩ := hc.slotAlone (by simp [hpc, slotCommands])
    rcases answering_iff.mp hs with hanswer | hanswer | hanswer | hanswer
    · simp [handlerCommands_of_answering hanswer hp.handler] at hhandler
    · exact absurd hanswer hmaster
    · exact absurd hanswer hwoken
    · simp [hpc, slotAnswering] at hanswer
  · replace hpc : s.slot = .resetDrainSToM k := hpc
    have hb := hp.budget
    simp only [parameters, hpc, slotParameters] at hb
    omega

theorem syncStep_inv {pid : Pid} {request : Request} {s t : State} (h : AnswerInv s)
    (hs : syncStep pid request s = some t) : AnswerInv t := by
  cases syncStep_move hs with
  | claimed _ _ hexited =>
    intro ht
    apply h
    simpa [answering_iff, hexited, slotAnswering] using ht
  | _ => exact h

theorem deliverStep_inv {pid : Pid} {s t : State} (h : AnswerInv s)
    (hs : deliverStep pid s = some t) : AnswerInv t := by
  simp only [deliverStep] at hs
  split at hs
  · cases hs
  · rename_i signal toMaster hsignals
    split_ifs at hs
    all_goals
      rw [← Option.some.inj hs]
      intro ht
      refine h ?_
      rw [answering_iff] at ht ⊢
      rw [hsignals]
      rcases ht with hhandler | hmaster | hwake | hslot
      · exact .inl hhandler
      · exact .inr (.inl (List.mem_cons_of_mem _ hmaster))
      · first
        | exact .inr (.inr (.inl hwake))
        | rcases List.mem_append.mp hwake with hold | hnew
          · exact .inr (.inr (.inl hold))
          · exact .inr (.inl (List.mem_singleton.mp hnew ▸ List.mem_cons_self))
      · exact .inr (.inr (.inr hslot))

theorem handlerStep_inv {pid : Pid} {s t : State} (h : AnswerInv s)
    (hs : handlerStep pid s = some t) : AnswerInv t := by
  have hkeep (hhandler : handlerAnswering t.handler = true → handlerAnswering s.handler = true ∨
        0 < s.seg.semSToMRequest)
      (hmaster : .response ∈ t.toMaster → .response ∈ s.toMaster ∨
        handlerAnswering s.handler = true)
      (hwake : t.wake = s.wake) (hslot : t.slot = s.slot)
      (hsem : s.seg.semSToMRequest ≤ t.seg.semSToMRequest) : AnswerInv t := by
    intro ht
    refine lt_of_lt_of_le ?_ hsem
    rcases answering_iff.mp ht with ha | ha | ha | ha
    · rcases hhandler ha with hold | hpos
      · exact h (answering_iff.mpr (.inl hold))
      · exact hpos
    · rcases hmaster ha with hold | hold
      · exact h (answering_iff.mpr (.inr (.inl hold)))
      · exact h (answering_iff.mpr (.inl hold))
    · exact h (answering_iff.mpr (.inr (.inr (.inl (hwake ▸ ha)))))
    · exact h (answering_iff.mpr (.inr (.inr (.inr (hslot ▸ ha)))))
  cases handlerStep_move hs with
  | crashed => exact h
  | responseExcluded hpc hpos => exact hkeep (fun _ ↦ .inr hpos) .inl rfl rfl le_rfl
  | responsePosted hpc => exact hkeep (by simp [handlerAnswering]) .inl rfl rfl (Nat.le_succ _)
  | requestDecoded hpc | dispatched hpc | responded hpc =>
    exact hkeep (fun _ ↦ .inl (by rw [hpc]; rfl)) .inl rfl rfl le_rfl
  | served hserve =>
    refine hkeep (fun _ ↦ .inl ?_) .inl rfl rfl hserve.frame.semSToMRequest.ge
    cases hserve <;> simp_all [handlerAnswering]
  | answered hpc =>
    refine hkeep ?_ (fun _ ↦ .inr (by rw [hpc]; rfl)) rfl rfl le_rfl
    dsimp only
    split <;> simp [handlerAnswering]
  | _ => exact hkeep (by simp [handlerAnswering]) .inl rfl rfl le_rfl

theorem cycleStep_inv {usleep : Bool} {rand : ℕ} {now : Timeval} {s t : State} (h : AnswerInv s)
    (hok : kindsSeparate s (.cycle usleep rand now) = true)
    (hs : cycleStep usleep rand now s = some t) : AnswerInv t := by
  have hframe := cycleStep_frame hs
  intro ht
  have hanswering : answering s = true := by
    rw [answering_iff, hframe.handler, hframe.wake, hframe.slot] at ht
    rw [answering_iff]
    refine ht.imp_right (.imp_left fun hm ↦ ?_)
    rcases hframe.toMaster with heq | heq
    · exact heq ▸ hm
    · simpa [heq] using hm
  have hpos := h hanswering
  refine hpos.trans_le (hframe.trywait_lowers fun cycleUs segmentUs threshold hpc ↦ ?_)
  simp [kindsSeparate, hpc, hpos.ne', hanswering] at hok

/-- While a command is answered no parameter request is open. -/
theorem AnswerInv.decoded {s : State} {e : Event} (h : AnswerInv s)
    (hok : kindsSeparate s e = true) : parametersDecoded s e = true := by
  cases e with
  | slot mustChange =>
    cases hpc : s.slot with
    | getvalueSToM signal =>
      by_cases hresponse : signal = .response
      · have hpos := h (answering_iff.mpr (by simp [hpc, slotAnswering, hresponse]))
        simp [parametersDecoded, hpc, hpos.ne']
      · simp [parametersDecoded, hpc, hresponse]
    | _ => simp [parametersDecoded, hpc]
  | handler => exact hok
  | cycle usleep rand now =>
    cases hpc : s.cycle with
    | trywait cycleUs segmentUs threshold =>
      by_cases hzero : s.seg.semSToMRequest = 0
      · simpa [kindsSeparate, parametersDecoded, hpc, hzero] using hok
      · simp [parametersDecoded, hpc, hzero]
    | _ => simp [parametersDecoded, hpc]
  | _ => rfl

theorem step_inv {pid : Pid} {s t : State} {e : Event} (hc : CommandInv p q s)
    (hp : ParameterInv s) (h : AnswerInv s) (hok : kindsSeparate s e = true)
    (hs : step pid s e = some t) : AnswerInv t := by
  cases e with
  | configure requestedParameters communicationCycleUs => exact Option.some.inj hs ▸ h
  | sync request => exact syncStep_inv h hs
  | slot mustChange => exact slotStep_inv hc hp h hs
  | deliver => exact deliverStep_inv h hs
  | handler =>
    obtain ⟨-, hs⟩ := Option.ite_none_right_eq_some.mp hs
    exact handlerStep_inv h hs
  | cycle usleep rand now =>
    obtain ⟨-, hs⟩ := Option.ite_none_right_eq_some.mp hs
    exact cycleStep_inv h hok hs

def admitted (s : State) (e : Event) : Bool := kindsSeparate s e && disconnectsParked s e

theorem atMostOnce_of_invs {s : State} (hc : CommandInv p q s) (hp : ParameterInv s) :
    AtMostOnce s := by
  have hhandler := hp.handler
  have hslot := hp.slot
  refine ⟨List.nodup_iff_count_le_one.mp hc.nodup, fun signal hpc ↦ ?_,
    List.nodup_iff_count_le_one.mp hp.handled_nodup, fun signal hpc ↦ ?_⟩
  · rw [hpc] at hhandler
    exact hhandler
  · rcases hpc with hpc | hpc | hpc | hpc
    all_goals rw [hpc] at hslot
    · exact ⟨_, hslot.1⟩
    · exact ⟨_, hslot.1⟩
    · exact ⟨_, hslot⟩
    · exact ⟨_, hslot⟩

theorem atMostOnce_of_admitted {pid : Pid} {name : CString.Mem} {availableParameters : ℕ}
    {s : State} (h : Reaches (step pid) (fun s e ↦ admitted s e = true)
      (initial name availableParameters) s) : AtMostOnce s := by
  have hinv : (CommandInv True False s ∧ ParameterInv s) ∧ AnswerInv s := by
    have hstep (s : State) (e : Event) (t : State)
        (hi : (CommandInv True False s ∧ ParameterInv s) ∧ AnswerInv s)
        (hok : admitted s e = true) (hs : step pid s e = some t) :
        (CommandInv True False t ∧ ParameterInv t) ∧ AnswerInv t := by
      simp only [admitted, Bool.and_eq_true] at hok
      exact ⟨step_invs hi.1 (hi.2.decoded hok.1) hok.2 hs,
        step_inv hi.1.1 hi.1.2 hi.2 hok.1 hs⟩
    refine h.invariant ⟨⟨SlotCommand.initial_inv _ _, SlotParameter.initial_inv _ _⟩, ?_⟩ hstep
    simp [AnswerInv, initial, Shmseg.initial]
  exact atMostOnce_of_invs hinv.1.1 hinv.1.2

theorem round_atMostOnce :
    ∃ s, s.history.dispatched = [2, 1] ∧ s.history.handled = [1] ∧ AtMostOnce s := by
  have hrun : (run (guarded (step 1000) fun s e ↦ admitted s e = true) (initial [97] 7)
      roundRun).map (fun s ↦ (s.history.dispatched, s.history.handled)) =
      some ([2, 1], [1]) := by
    decide +kernel
  obtain ⟨s, hs, hview⟩ := Option.map_eq_some_iff.mp hrun
  simp only [Prod.mk.injEq] at hview
  exact ⟨s, hview.1, hview.2, atMostOnce_of_admitted (.of_run hs)⟩

/-- The cycle thread takes its semaphore while the answer to the START is on its
way. The answer is served as a parameter request, and the acknowledgement of
the real one reaches the slave as a second START. -/
def repeatedStart : List Event :=
  connectRun ++ [Event.configure 7 1000] ++ List.replicate 6 (Event.sync .startSlaveCycle) ++
    List.replicate 10 Event.handler ++ [Event.deliver] ++ List.replicate 2 (Event.slot false) ++
    List.replicate 9 (Event.cycle true 0 ⟨0, 0⟩) ++ List.replicate 2 (Event.slot false) ++
    List.replicate 2 (Event.cycle true 0 ⟨0, 0⟩) ++ List.replicate 3 (Event.slot false) ++
    List.replicate 3 Event.handler ++ [Event.cycle true 0 ⟨0, 0⟩, Event.deliver] ++
    List.replicate 7 (Event.slot false) ++ List.replicate 7 Event.handler

theorem start_dispatched_twice :
    ¬ ∀ s, Reaches (step 1000) unrestricted (initial [97] 7) s → AtMostOnce s := by
  intro hall
  have hrun : (run (step 1000) (initial [97] 7) repeatedStart).map
      (fun s ↦ s.history.dispatched) = some [2, 2, 1] := by
    decide +kernel
  obtain ⟨s, hs, hview⟩ := Option.map_eq_some_iff.mp hrun
  have hcount := (hall s (.of_unrestricted_run hs)).dispatched 2
  simp [hview] at hcount

end RealTimeCyclic.SlotDispatch
