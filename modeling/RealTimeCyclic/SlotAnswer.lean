import RealTimeCyclic.Library.Queue
import RealTimeCyclic.SlotConserved
import RealTimeCyclic.SlotStop

namespace RealTimeCyclic.SlotAnswer

open Shm Slave SlotThread Slot Transition Progress Queue SlotCommand SlotConserved
open SlotParameter (ParameterInv parametersDecoded parameterSignals parameters acknowledges)
open SlotPointer (PointerInv)
open SlotPermit (PermitInv permits permitsReturned)
open SlotTurns (untilSignal untilSignal_le handlerStep_untilSignal handlerStep_isSome
  cycleStep_isSome)
open SlotStop (untilPost untilPost_pos untilPermit_pos cycleStep_untilPost)

def untilWoken : Pc → ℕ
  | .requestErrors _ => 6
  | .getvalueSToM _ => 5
  | .getvalueMToS _ | .requestConnected _ => 4
  | .requestSwitch _ => 3
  | .requestAck _ => 2
  | .requestKill _ => 1
  | _ => 0

def starved (s : State) : Bool :=
  match s.handler with
  | .stopWait _ => s.self.allowCommunicationCycle = 0
  | _ => false

def turn (s : State) : Event → Bool
  | .configure _ _ => false
  | .sync _ => s.sync.holding
  | .slot _ => 0 < slotCommands s.slot ∨ .response ∈ s.wake
  | .deliver => .response ∈ s.toMaster
  | .handler => (0 < handlerCommands s.handler ∨ .command ∈ s.toSlave) ∧ starved s = false
  | .cycle _ _ _ => starved s

def stolen (s : State) : Event → ℕ
  | .cycle _ _ _ =>
    match s.handler, s.cycle with
    | .stopWait _, .semWaitAllow => 5
    | _, _ => 0
  | _ => 0

/-- No signal is taken for another, a DISCONNECT finds the cycle parked, a segment is found
by a command, permits are returned, and commands are sent to a slot that listens. -/
def answerKept (pid : Pid) (s : State) (e : Event) : Bool :=
  parametersDecoded s e && disconnectsParked s e && segmentsFoundByCommands pid s e &&
    permitsReturned s e && commandsListened s e

structure AnswerInv (pid : Pid) (s : State) : Prop where
  command : CommandInv True True s
  parameter : ParameterInv s
  pointer : PointerInv pid s
  permit : PermitInv s
  conserved : ConservedInv pid s

section Open

variable {pid : Pid} {s t : State} {e : Event}

theorem AnswerInv.step (hpid : 0 < pid) (h : AnswerInv pid s) (hok : answerKept pid s e = true)
    (hs : step pid s e = some t) : AnswerInv pid t := by
  simp only [answerKept, Bool.and_eq_true] at hok
  obtain ⟨⟨⟨⟨hdecoded, hparked⟩, hfound⟩, hreturned⟩, hlistened⟩ := hok
  have hadmitted : Admitted True True pid s e :=
    ⟨h.parameter.decoded e, fun _ ↦ hparked, fun _ ↦ hfound⟩
  exact ⟨SlotCommand.step_inv h.command hadmitted hs,
    SlotParameter.step_inv h.command h.parameter hdecoded hs,
    SlotPointer.step_inv hpid h.command h.pointer hs, SlotPermit.step_inv h.permit hreturned hs,
    step_kept h.command h.parameter hdecoded hlistened h.conserved hs⟩

/-- The one place where the open command is. -/
theorem AnswerInv.place (h : AnswerInv pid s) (hopen : s.seg.semMToSRequest = 0) :
    away s + slotCommands s.slot = 1 := by
  have hconserved := h.conserved.conserved
  rw [hopen, commands_eq] at hconserved
  omega

end Open

section Turns

variable {pid : Pid} {s t : State}

theorem AnswerInv.held (h : AnswerInv pid s) (hstarved : starved s = true) :
    0 < untilPost s.cycle := by
  cases hhandler : s.handler with
  | stopWait k =>
    simp only [starved, hhandler, decide_eq_true_eq] at hstarved
    have hcomes := h.permit.permitConserved.comes k hhandler
    rw [untilPost_pos]
    unfold permits at hcomes
    omega
  | _ => simp [starved, hhandler] at hstarved

/-- Nobody but the slave's handler thread has the open command. -/
structure Serving (s : State) : Prop where
  toSlave : .command ∉ s.toSlave
  toMaster : .response ∉ s.toMaster
  wake : .response ∉ s.wake

theorem AnswerInv.serving (h : AnswerInv pid s) (hopen : s.seg.semMToSRequest = 0)
    (hserving : 0 < handlerCommands s.handler) : Serving s := by
  have hplace := h.place hopen
  unfold away at hplace
  constructor
  all_goals
    rw [← List.count_eq_zero]
    omega

/-- A step of the slot's thread while the command is somewhere else. -/
structure Apart (s t : State) : Prop where
  wake : t.wake = s.wake
  toSlave : t.toSlave = s.toSlave ∨ ∃ k, t.toSlave = s.toSlave ++ [.acknowledge k]
  idle : slotCommands t.slot = 0
  closer : SlotConserved.listening s.slot = true → untilWoken t.slot < untilWoken s.slot

end Turns

section Enabled

variable {pid : Pid} {s : State}

theorem syncStep_isSome (request : Request) (hold : s.sync.holding = true) :
    (syncStep pid request s).isSome := by
  unfold syncStep
  cases hpc : s.sync with
  | write request | kill request => rfl
  | _ =>
    rw [hpc] at hold
    cases hold

theorem slotStep_isSome (mustChange : Bool)
    (hlistening : 0 < slotCommands s.slot ∨ SlotConserved.listening s.slot = true)
    (hwake : s.slot = .sigSemWait → s.wake ≠ []) : (slotStep mustChange s).isSome := by
  rw [slotStep, Option.isSome_map]
  unfold SlotThread.step
  cases hpc : s.slot with
  | sendSemWait request | exited =>
    simp [hpc, slotCommands, SlotConserved.listening, occupied] at hlistening
  | sigSemWait =>
    cases hsignals : s.wake with
    | nil => exact absurd hsignals (hwake hpc)
    | cons signal wake => rfl
  | responseSwitch isConnected =>
    dsimp only
    split <;> rfl
  | responseValue isConnected request =>
    cases hresponse : s.seg.resSToM with
    | nack => rfl
    | ack | other value =>
      dsimp only
      split_ifs <;> rfl
  | resetAnswer k => cases k <;> rfl
  | getvalueSToM signal | getvalueMToS signal | requestConnected signal | requestSwitch signal
  | mustChangeName request k | resetDrainMToS k | resetDrainSToM k =>
    dsimp only
    split_ifs <;> rfl
  | _ => rfl

theorem handlerStep_enabled (hstarved : starved s = false)
    (hsignal : s.handler = .sigwaitinfo → s.toSlave ≠ []) : (handlerStep pid s).isSome := by
  cases hpc : s.handler with
  | sigwaitinfo =>
    unfold handlerStep
    cases hsignals : s.toSlave with
    | nil => exact absurd hsignals (hsignal hpc)
    | cons signal toSlave => simp only [hpc, Option.isSome_some]
  | stopWait k =>
    have hallow : 0 < s.self.allowCommunicationCycle := by
      simp only [starved, hpc, decide_eq_false_iff_not] at hstarved
      omega
    simp [handlerStep, hpc, hallow]
  | _ =>
    apply handlerStep_isSome
    simp [hpc, untilSignal]

theorem AnswerInv.enabled {e : Event} (h : AnswerInv pid s) (hopen : s.seg.semMToSRequest = 0)
    (hturn : turn s e = true) : (Slot.step pid s e).isSome := by
  have hplace := h.place hopen
  cases e with
  | configure requestedParameters communicationCycleUs => cases hturn
  | sync request => exact syncStep_isSome request hturn
  | slot mustChange =>
    rcases of_decide_eq_true hturn with hheld | hmem
    · refine slotStep_isSome mustChange (.inl hheld) fun hpc ↦ ?_
      rw [hpc] at hheld
      cases hheld
    · have hpos := List.count_pos_iff.mpr hmem
      refine slotStep_isSome mustChange (.inr (h.conserved.listening ?_)) fun _ ↦
        List.ne_nil_of_mem hmem
      unfold away
      omega
  | deliver =>
    have hmem : Signal.response ∈ s.toMaster := of_decide_eq_true hturn
    unfold Slot.step deliverStep
    cases hsignals : s.toMaster with
    | nil => simp [hsignals] at hmem
    | cons signal toMaster =>
      dsimp only
      split_ifs <;> rfl
  | handler =>
    obtain ⟨hcommand, hstarved⟩ := of_decide_eq_true hturn
    rw [Slot.step, if_pos h.pointer.alive]
    refine handlerStep_enabled hstarved fun hpc ↦ ?_
    rcases hcommand with hserving | hmem
    · rw [hpc] at hserving
      cases hserving
    · exact List.ne_nil_of_mem hmem
  | cycle usleep rand now =>
    rw [Slot.step, if_pos h.pointer.alive]
    exact cycleStep_isSome (untilPermit_pos (h.held hturn)) usleep rand now

theorem AnswerInv.someone (h : AnswerInv pid s) (hopen : s.seg.semMToSRequest = 0) :
    ∃ e, turn s e = true := by
  have hplace := h.place hopen
  unfold away at hplace
  by_cases hsync : s.sync.holding = true
  · exact ⟨.sync .connectSlave, hsync⟩
  by_cases hslot : 0 < slotCommands s.slot ∨ .response ∈ s.wake
  · exact ⟨.slot false, decide_eq_true hslot⟩
  by_cases hmaster : .response ∈ s.toMaster
  · exact ⟨.deliver, decide_eq_true hmaster⟩
  obtain ⟨hheld, hwake⟩ := not_or.mp hslot
  rw [Bool.not_eq_true] at hsync
  rw [← List.count_eq_zero] at hwake hmaster
  have hidle := syncCommands_of_idle hsync
  have hhandler : 0 < handlerCommands s.handler ∨ .command ∈ s.toSlave := by
    rw [← List.count_pos_iff]
    omega
  cases hstarved : starved s with
  | false => exact ⟨.handler, decide_eq_true ⟨hhandler, hstarved⟩⟩
  | true => exact ⟨.cycle true 0 ⟨0, 0⟩, hstarved⟩

end Enabled

section Bound

variable {pid : Pid} {s : State}

end Bound

section Run

variable {pid : Pid} {s : State}

/-- As long as a command is open somebody can move it on, and after so many turns of those
who can, and more for each permit that the cycle thread takes from under a STOP, the slave
has carried it out and the semaphore is posted for the next one. -/
structure Answers (pid : Pid) (s : State) : Prop where
  someone : ∃ e, turn s e = true
  enabled : ∀ e, turn s e = true → (step pid s e).isSome
  answered : ∀ es t, run (guarded (step pid) fun s e ↦ answerKept pid s e = true) s es = some t →
    66 + total (guarded (step pid) fun s e ↦ answerKept pid s e = true) stolen s es ≤
      turnsTaken (guarded (step pid) fun s e ↦ answerKept pid s e = true) turn s es →
    Passes (guarded (step pid) fun s e ↦ answerKept pid s e = true) s es fun u ↦
      0 < u.seg.semMToSRequest ∧ u.history.acquired = s.history.acquired ∧ Executed u

/-- The command `k` is open or has just been answered. -/
structure OpenInv (pid : Pid) (k : ℕ) (s : State) : Prop where
  inv : AnswerInv pid s
  acquired : s.history.acquired = k
  begun : 0 < k

theorem OpenInv.executed {k : ℕ} (h : OpenInv pid k s) (hfree : 0 < s.seg.semMToSRequest) :
    Executed s := by
  have hconserved := h.inv.conserved.conserved
  rw [commands_eq] at hconserved
  unfold away at hconserved
  rcases h.inv.conserved.executed with hzero | hpos | hexecuted
  · have hbegun := h.begun
    have hacquired := h.acquired
    omega
  · have hslot := slotSending_le s.slot
    have hhandler := handlerSending_le s.handler
    unfold sending at hpos
    omega
  · exact hexecuted

end Run

end RealTimeCyclic.SlotAnswer
