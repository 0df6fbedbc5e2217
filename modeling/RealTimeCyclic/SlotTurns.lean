import RealTimeCyclic.Library.Progress
import RealTimeCyclic.SlotMove

namespace RealTimeCyclic.SlotTurns

open Shm Slave SlotThread Slot Transition Progress

/-- The steps of the cycle thread before it waits for its permit again. In
`send_master_signal_master_parameter_request` it tries to take the semaphore once more
than it sleeps. -/
def untilPermit : CyclePc → ℕ
  | .semWaitAllow => 0
  | .readCycle => 31
  | .usleep => 30
  | .store => 29
  | .calculate => 28
  | .postAllow => 27
  | .evaluate => 26
  | .segment _ => 25
  | .trywait _ _ threshold => 4 + (waitMasterResponseTimeoutSegments - threshold)
  | .getvalueAllow _ _ => 3
  | .writeRequest _ _ => 2
  | .withdraw _ | .kill _ _ => 1

/-- The steps of `signal_handler_thread` before it waits for a signal again, or for the
permit in `handle_stop_cycle_slave_request`. -/
def untilSignal : HandlerPc → ℕ
  | .sigwaitinfo | .stopWait _ => 0
  | .firstSignalEverSetup _ => 10
  | .getvalueSToM _ => 9
  | .getvalueMToS _ => 8
  | .requestSwitch _ => 7
  | .startRead _ | .stopRead _ => 6
  | .startWrite _ | .stopWrite _ => 5
  | .connect _ | .disconnect _ | .changeName _ | .startPost _ | .unrecognized _ _ => 4
  | .respond _ _ _ => 3
  | .kill _ _ _ | .responseSwitch _ => 2
  | .responsePost _ | .clearPointer => 1

def isCycle : Event → Bool
  | .cycle _ _ _ => true
  | _ => false

def isHandler : Event → Bool
  | .handler => true
  | _ => false

variable {pid : Pid} {s t : State} {e : Event}

theorem untilPermit_le (pc : CyclePc) : untilPermit pc ≤ 31 := by
  cases pc <;> simp [untilPermit, waitMasterResponseTimeoutSegments]
  omega

theorem untilSignal_le (pc : HandlerPc) : untilSignal pc ≤ 10 := by
  cases pc <;> simp [untilSignal]

theorem cycleStep_untilPermit {usleep : Bool} {rand : ℕ} {now : Timeval}
    (hpos : 0 < untilPermit s.cycle) (hs : cycleStep usleep rand now s = some t) :
    t.alive = false ∨ untilPermit t.cycle < untilPermit s.cycle := by
  cases hpc : s.cycle with
  | trywait cycleUs segmentUs threshold =>
    simp only [cycleStep, hpc] at hs
    obtain ⟨-, rfl⟩ | ⟨-, rfl⟩ := State.deref_cases hs
    · right
      split_ifs with hsem hexpired
      all_goals
        simp only [untilPermit]
        omega
    · exact .inl rfl
  | _ =>
    cases cycleStep_move hs <;> simp_all [untilPermit, waitMasterResponseTimeoutSegments]

theorem handlerStep_untilSignal (hpos : 0 < untilSignal s.handler)
    (hs : handlerStep pid s = some t) :
    t.alive = false ∨ untilSignal t.handler < untilSignal s.handler := by
  cases handlerStep_move hs with
  | crashed => exact .inl rfl
  | served hserve => cases hserve <;> simp_all [untilSignal]
  | dispatched hpc hdispatch => cases hdispatch <;> simp_all [untilSignal]
  | answered hpc =>
    right
    dsimp only
    split <;> simp [hpc, untilSignal]
  | _ => simp_all [untilSignal]

theorem deref_isSome (u : State) : (s.deref u).isSome := by
  unfold State.deref
  split <;> rfl

theorem handlerStep_isSome (hpos : 0 < untilSignal s.handler) : (handlerStep pid s).isSome := by
  unfold handlerStep
  cases hpc : s.handler with
  | sigwaitinfo | stopWait k =>
    rw [hpc] at hpos
    cases hpos
  | firstSignalEverSetup signal =>
    dsimp only
    split_ifs <;> rfl
  | disconnect k | startPost k | kill request response k | clearPointer => rfl
  | _ => exact deref_isSome _

theorem cycleStep_isSome (hpos : 0 < untilPermit s.cycle) (usleep : Bool) (rand : ℕ)
    (now : Timeval) : (cycleStep usleep rand now s).isSome := by
  unfold cycleStep
  cases hpc : s.cycle with
  | semWaitAllow =>
    rw [hpc] at hpos
    cases hpos
  | usleep =>
    dsimp only
    split_ifs
    · rfl
    · exact deref_isSome _
    · rfl
  | getvalueAllow cycleUs segmentUs =>
    dsimp only
    split_ifs <;> rfl
  | postAllow | kill cycleUs segmentUs => rfl
  | _ => exact deref_isSome _

theorem step_cycle (hcycle : isCycle e = false) (hs : step pid s e = some t) :
    t.cycle = s.cycle := by
  cases e with
  | configure requestedParameters communicationCycleUs => exact Option.some.inj hs ▸ rfl
  | sync request => cases syncStep_move hs <;> rfl
  | slot mustChange =>
    obtain ⟨v, effect, -, rfl⟩ := slotStep_eq_some hs
    simp
  | deliver =>
    obtain ⟨toMaster, wake, rfl⟩ := deliverStep_eq_some hs
    rfl
  | handler =>
    obtain ⟨-, hs⟩ := Option.ite_none_right_eq_some.mp hs
    cases handlerStep_move hs with
    | served hserve => cases hserve <;> rfl
    | _ => rfl
  | cycle usleep rand now => cases hcycle

theorem step_handler (hhandler : isHandler e = false) (hs : step pid s e = some t) :
    t.handler = s.handler := by
  cases e with
  | configure requestedParameters communicationCycleUs => exact Option.some.inj hs ▸ rfl
  | sync request => cases syncStep_move hs <;> rfl
  | slot mustChange =>
    obtain ⟨v, effect, -, rfl⟩ := slotStep_eq_some hs
    simp
  | deliver =>
    obtain ⟨toMaster, wake, rfl⟩ := deliverStep_eq_some hs
    rfl
  | handler => cases hhandler
  | cycle usleep rand now =>
    obtain ⟨-, hs⟩ := Option.ite_none_right_eq_some.mp hs
    exact (cycleStep_frame hs).handler

def Returned (turns : State → ℕ) (s : State) : Prop := s.alive = false ∨ turns s = 0

theorem turns_ranked {turns : State → ℕ} {own : Event → Bool}
    (hown : ∀ s e t, 0 < turns s → own e = true → step pid s e = some t →
      t.alive = false ∨ turns t < turns s)
    (hother : ∀ s e t, own e = false → step pid s e = some t → turns t = turns s) :
    Ranked (step pid) (fun _ ↦ True) (Returned turns)
      (fun s ↦ if s.alive then turns s else 0) own := by
  have haway {s : State} (hgoal : ¬ Returned turns s) : s.alive = true ∧ 0 < turns s := by
    obtain ⟨halive, hpos⟩ := not_or.mp hgoal
    exact ⟨by simpa using halive, by omega⟩
  have hlowers (s : State) (e : Event) (t : State) (_ : True) (hgoal : ¬ Returned turns s)
      (he : own e = true) (hs : step pid s e = some t) :
      (if t.alive then turns t else 0) < if s.alive then turns s else 0 := by
    obtain ⟨halive, hpos⟩ := haway hgoal
    rw [if_pos halive]
    rcases hown s e t hpos he hs with hdead | hless
    · rwa [hdead, if_neg Bool.false_ne_true]
    · split_ifs
      · exact hless
      · exact hpos
  refine ⟨fun _ _ _ _ _ _ ↦ trivial, fun s _ hgoal ↦ ?_, fun s e t h hgoal hs ↦ ?_, hlowers⟩
  · obtain ⟨halive, hpos⟩ := haway hgoal
    rwa [if_pos halive]
  · cases he : own e with
    | false =>
      rw [if_pos (haway hgoal).1, ← hother s e t he hs]
      split_ifs <;> omega
    | true => exact (hlowers s e t h hgoal he hs).le

theorem handler_ranked (pid : Pid) :
    Ranked (step pid) (fun _ ↦ True) (Returned fun s ↦ untilSignal s.handler)
      (fun s ↦ if s.alive then untilSignal s.handler else 0) isHandler := by
  apply turns_ranked
  · intro s e t hpos he hs
    cases e with
    | handler =>
      obtain ⟨-, hs⟩ := Option.ite_none_right_eq_some.mp hs
      exact handlerStep_untilSignal hpos hs
    | _ => cases he
  · intro s e t he hs
    rw [step_handler he hs]

theorem cycle_ranked (pid : Pid) :
    Ranked (step pid) (fun _ ↦ True) (Returned fun s ↦ untilPermit s.cycle)
      (fun s ↦ if s.alive then untilPermit s.cycle else 0) isCycle := by
  apply turns_ranked
  · intro s e t hpos he hs
    cases e with
    | cycle usleep rand now =>
      obtain ⟨-, hs⟩ := Option.ite_none_right_eq_some.mp hs
      exact cycleStep_untilPermit hpos hs
    | _ => cases he
  · intro s e t he hs
    rw [step_cycle he hs]

/-- Neither thread of the slave is held up by the master: between its waits it is always
able to move, and after so many of its own steps, whatever the others have done in the
meantime, it has come to one of them. -/
structure Turns (pid : Pid) (s : State) : Prop where
  handlerMoves : s.alive = true → 0 < untilSignal s.handler → (step pid s .handler).isSome
  handlerReturns : ∀ es t, run (step pid) s es = some t → 10 ≤ es.countP isHandler →
    Passes (step pid) s es (Returned fun u ↦ untilSignal u.handler)
  cycleMoves : s.alive = true → 0 < untilPermit s.cycle → ∀ usleep rand now,
    (step pid s (.cycle usleep rand now)).isSome
  cycleReturns : ∀ es t, run (step pid) s es = some t → 31 ≤ es.countP isCycle →
    Passes (step pid) s es (Returned fun u ↦ untilPermit u.cycle)

theorem turns (pid : Pid) (s : State) : Turns pid s where
  handlerMoves halive hpos := by
    rw [Slot.step, if_pos halive]
    exact handlerStep_isSome hpos
  handlerReturns es t hrun hcount := by
    have hrank : (if s.alive then untilSignal s.handler else 0) ≤ 10 := by
      have hle := untilSignal_le s.handler
      split_ifs <;> omega
    exact ((handler_ranked pid).passes trivial hrun (hrank.trans hcount)).imp fun u hu ↦ hu.2
  cycleMoves halive hpos usleep rand now := by
    rw [Slot.step, if_pos halive]
    exact cycleStep_isSome hpos usleep rand now
  cycleReturns es t hrun hcount := by
    have hrank : (if s.alive then untilPermit s.cycle else 0) ≤ 31 := by
      have hle := untilPermit_le s.cycle
      split_ifs <;> omega
    exact ((cycle_ranked pid).passes trivial hrun (hrank.trans hcount)).imp fun u hu ↦ hu.2

end RealTimeCyclic.SlotTurns
