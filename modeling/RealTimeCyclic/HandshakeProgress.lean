import RealTimeCyclic.HandshakeNames

namespace RealTimeCyclic.HandshakeProgress

open Shm CString Slave SlotThread Function Handshake Transition HandshakeNames

def expectedSem : Pc → Option ℕ
  | .exited | .sendSemWait _ | .resetDrainSToM _ | .resetPostSToM _ | .resetAnswer _
  | .resetNotify _ => some 1
  | .sendWrite _ | .sendKill _ | .requestErrors _ | .getvalueSToM _ | .getvalueMToS _
  | .responseConnected | .responseSwitch _ | .responseValue _ _ | .mustChangeName _ _
  | .renamePost | .setConnected _ _ | .forward _ _ _ | .notify _ | .post => some 0
  | _ => none

def freed : Pc → Bool
  | .exited | .resetDrainMToS _ | .resetPostMToS _ | .resetDrainSToM _ | .resetPostSToM _
  | .resetAnswer _ | .resetNotify _ => true
  | _ => false

/-- No signal is lost: a slot that waits has its semaphore or is about to get an answer. -/
structure ExactOk (t : Slot) : Prop where
  ok : ThreadOk t
  sem : ∀ n, expectedSem t.thread = some n → t.seg.semMToSRequest = n
  waiting : t.thread = .sigSemWait → t.seg.semMToSRequest + tokens t = 1
  assigned : t.seg.pid = t.slavePid ∨ t.thread.cleared = true ∨ t.thread = .exited
  free : freed t.thread = true → t.seg.pid = noPid
  posts : t.handler ≠ .responsePost

def Free (t : Slot) : Prop := t.thread = .exited ∧ t.seg.pid = noPid

def Waiting (t : Slot) : Prop :=
  t.thread = .sigSemWait ∧ t.seg.semMToSRequest = 1 ∧ tokens t = 0

def ownSteps (i : Idx) : List Event := [.thread i true, .deliver i, .handler i, .sync i]

variable {s : State} {t t' : Slot}

/-- A slave that has been sent something is the one its slot waits for. -/
structure Addressed (t : Slot) : Prop where
  waits : t.thread = .sigSemWait
  taken : t.seg.semMToSRequest = 0
  semSToM : 0 < t.seg.semSToMRequest
  pid : t.seg.pid = t.slavePid

theorem ExactOk.addressed (h : ExactOk t) (hbusy : 0 < tokens t) : Addressed t := by
  have hpc := h.ok.waits hbusy
  have hthread := h.ok
  have hexact := h.waiting hpc
  have hassigned := h.assigned
  simp only [ThreadOk, hpc] at hthread
  simp only [hpc, Pc.cleared, reduceCtorEq, Bool.false_eq_true, or_false] at hassigned
  exact ⟨hpc, by omega, hthread.2.1, hassigned⟩

theorem threadStep_isSome {mustChange : Bool} (hexited : t.thread ≠ .exited)
    (hsend : ∀ request, t.thread = .sendSemWait request → 0 < t.seg.semMToSRequest)
    (hwait : t.thread = .sigSemWait → t.wake ≠ []) : (t.threadStep mustChange true).isSome := by
  rw [Slot.threadStep, Option.isSome_map]
  unfold SlotThread.step
  cases hpc : t.thread with
  | exited => exact absurd hpc hexited
  | sendSemWait request => simp [hsend request hpc]
  | sigSemWait =>
    obtain ⟨signal, wake, hwake⟩ := List.exists_cons_of_ne_nil (hwait hpc)
    simp [hwake]
  | resetAnswer k => cases k <;> rfl
  | responseSwitch isConnected =>
    dsimp only
    split <;> rfl
  | responseValue isConnected request =>
    dsimp only
    split
    · rfl
    · split_ifs <;> rfl
    · split_ifs <;> rfl
  | _ =>
    dsimp only
    first | rfl | split_ifs <;> rfl

theorem scanStep_isSome {i : Idx} {request : Request} {k : ℕ}
    (hpc : (s i).thread = .mustChangeName request k) : (scanStep i s).isSome := by
  have hthread (mustChange : Bool) : ((s i).threadStep mustChange true).isSome := by
    apply threadStep_isSome <;> simp [hpc]
  unfold scanStep
  split
  · split_ifs
    · rfl
    · rfl
    · exact hthread false
  · split_ifs
    · rfl
    · exact hthread true
    · rfl

theorem handlerStep_isSome (h : t.handler ≠ .sigwaitinfo) : (handlerStep t).isSome := by
  unfold handlerStep
  cases hpc : t.handler with
  | sigwaitinfo => exact absurd hpc h
  | firstSignalEverSetup =>
    dsimp only
    split_ifs <;> rfl
  | requestSwitch =>
    dsimp only
    split <;> rfl
  | connect stores => cases stores <;> rfl
  | changeName stores response => cases stores <;> rfl
  | _ => rfl

/-- What is under way can be passed on by the party that has it. -/
theorem underWay_moves {i : Idx} (hpc : (s i).thread = .sigSemWait) (hbusy : 0 < tokens (s i)) :
    ∃ e ∈ ownSteps i, (slotStep s e).isSome := by
  by_cases hwake : (s i).wake ≠ []
  · refine ⟨.thread i true, by simp [ownSteps], ?_⟩
    simp only [slotStep, threadStep, hpc]
    apply threadStep_isSome <;> simp [hpc, hwake]
  by_cases htoMaster : 0 < (s i).toMaster
  · exact ⟨.deliver i, by simp [ownSteps], by simp [slotStep, htoMaster]⟩
  by_cases hhandler : (s i).handler ≠ .sigwaitinfo
  · exact ⟨.handler i, by simp [ownSteps], handlerStep_isSome hhandler⟩
  by_cases htoSlave : 0 < (s i).toSlave
  · refine ⟨.handler i, by simp [ownSteps], ?_⟩
    simp [slotStep, handlerStep, not_not.mp hhandler, htoSlave]
  · refine ⟨.sync i, by simp [ownSteps], ?_⟩
    cases hsync : (s i).sync with
    | idle =>
      simp only [tokens, not_not.mp hwake, List.length_nil, not_not.mp hhandler, busyHandler, hsync,
        busySync] at hbusy
      omega
    | write | kill => simp [slotStep, syncStep, hsync]

theorem ExactOk.moves {i : Idx} (h : ExactOk (s i)) :
    Free (s i) ∨ Waiting (s i) ∨ ∃ e ∈ ownSteps i, (slotStep s e).isSome := by
  have hthread (hscan : ∀ request k, (s i).thread ≠ .mustChangeName request k)
      (hsome : ((s i).threadStep false true).isSome) :
      ∃ e ∈ ownSteps i, (slotStep s e).isSome := by
    refine ⟨.thread i true, by simp [ownSteps], ?_⟩
    simp only [slotStep, threadStep]
    exact hsome
  cases hpc : (s i).thread with
  | exited => exact .inl ⟨hpc, h.free (by rw [hpc]; rfl)⟩
  | sigSemWait =>
    have hexact := h.waiting hpc
    rcases Nat.eq_zero_or_pos (tokens (s i)) with hidle | hbusy
    · exact .inr (.inl ⟨hpc, by omega, hidle⟩)
    · exact .inr (.inr (underWay_moves hpc hbusy))
  | mustChangeName request k =>
    refine .inr (.inr ⟨.thread i true, by simp [ownSteps], ?_⟩)
    simp only [slotStep, threadStep, hpc]
    exact scanStep_isSome hpc
  | sendSemWait request =>
    have hsem := h.sem 1 (by rw [hpc]; rfl)
    refine .inr (.inr (hthread (by simp [hpc]) ?_))
    apply threadStep_isSome <;> simp [hpc, hsem]
  | _ =>
    refine .inr (.inr (hthread (by simp [hpc]) ?_))
    apply threadStep_isSome <;> simp [hpc]

end RealTimeCyclic.HandshakeProgress
