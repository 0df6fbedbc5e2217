import RealTimeCyclic.SlotPeriod
import Mathlib.Algebra.Order.Field.Rat
import Mathlib.Tactic.Linarith

namespace RealTimeCyclic.SlotOverrun

open Shm Slave SlotThread Slot Transition

def micros (t : Timeval) : Int := t.tvSec * 1000000 + t.tvUsec

def Overrun (communicationCycleUs : Int) (last current : Timeval) : Prop :=
  3 * communicationCycleUs < 2 * (micros current - micros last)

instance (communicationCycleUs : Int) (last current : Timeval) :
    Decidable (Overrun communicationCycleUs last current) :=
  inferInstanceAs (Decidable (_ < _))

/-- The error that `calculate_parameter_communication_interval` passes to `set_error`. -/
def intervalError (current : Timeval) (self : SlaveContext) (seg : Shmseg) : Option SlaveError :=
  let last := self.lastCommunicationTimeval
  let elapsedMicroseconds :=
    (current.tvSec - last.tvSec) * 1000000 + current.tvUsec - last.tvUsec
  let excess : ℚ := ((elapsedMicroseconds - seg.communicationCycleUs : Int) : ℚ) / 1000
  if last.tvSec = 0 ∧ last.tvUsec = 0 then none
  else if excess > (seg.communicationCycleUs : ℚ) / 2000 then
    some ⟨"Exceeded communication cycle set time by %lf miliseconds", some excess⟩
  else none

theorem calculate_seg (current : Timeval) (self : SlaveContext) (seg : Shmseg) :
    (calculateParameterCommunicationInterval current self seg).2 =
      (intervalError current self seg).elim seg fun error ↦ setError error seg := by
  unfold calculateParameterCommunicationInterval intervalError
  dsimp only
  split_ifs <;> rfl

theorem calculate_last (current : Timeval) (self : SlaveContext) (seg : Shmseg) :
    (calculateParameterCommunicationInterval current self seg).1.lastCommunicationTimeval =
      current := by
  unfold calculateParameterCommunicationInterval
  dsimp only
  split_ifs <;> rfl

def Recorded (current : Timeval) (self : SlaveContext) (seg : Shmseg) : Prop :=
  (intervalError current self seg).isSome

theorem recorded_stored {current : Timeval} {self : SlaveContext} {seg : Shmseg}
    (hroom : seg.shmsegErrorCurrentSize < shmsegErrorSize) :
    Recorded current self seg ↔
      (calculateParameterCommunicationInterval current self seg).2.shmsegErrorCurrentSize =
        seg.shmsegErrorCurrentSize + 1 := by
  unfold Recorded
  rw [calculate_seg]
  cases intervalError current self seg with
  | none => simp
  | some error => simp [setError, hroom]

theorem excess_gt_iff (elapsed communicationCycleUs : Int) :
    ((elapsed - communicationCycleUs : Int) : ℚ) / 1000 > (communicationCycleUs : ℚ) / 2000 ↔
      3 * communicationCycleUs < 2 * elapsed := by
  rw [gt_iff_lt, div_lt_div_iff₀ (by norm_num) (by norm_num), Int.cast_sub]
  constructor
  · intro h
    have hrat : (3 * communicationCycleUs : ℚ) < 2 * elapsed := by linarith
    exact_mod_cast hrat
  · intro h
    have hrat : (3 * communicationCycleUs : ℚ) < 2 * elapsed := by exact_mod_cast h
    linarith

theorem timeval_zero_iff (t : Timeval) : t.tvSec = 0 ∧ t.tvUsec = 0 ↔ t = ⟨0, 0⟩ := by
  cases t
  simp

theorem recorded_iff {current : Timeval} {self : SlaveContext} {seg : Shmseg} :
    Recorded current self seg ↔ self.lastCommunicationTimeval ≠ ⟨0, 0⟩ ∧
      Overrun seg.communicationCycleUs self.lastCommunicationTimeval current := by
  have helapsed : (current.tvSec - self.lastCommunicationTimeval.tvSec) * 1000000 +
      current.tvUsec - self.lastCommunicationTimeval.tvUsec =
      micros current - micros self.lastCommunicationTimeval := by
    unfold micros
    ring
  unfold Recorded intervalError Overrun
  simp only [helapsed, excess_gt_iff, timeval_zero_iff]
  split_ifs with hzero hexcess
  · simp [hzero]
  · simp [hzero, hexcess]
  · simp [hzero, hexcess]

/-- What the rounds of a slot are judged by: the number of STARTs, the started cycle that
nothing has interrupted yet, and the cycle and the clock reading of the round before. -/
structure Notes where
  starts : ℕ := 0
  current : Option ℕ := none
  last : Option (Option ℕ × Timeval) := none

def noteServed (s : State) (n : Notes) : Notes :=
  match s.handler with
  | .startPost _ => { n with starts := n.starts + 1, current := some (n.starts + 1) }
  | .stopWait _ | .disconnect _ => { n with current := none }
  | _ => n

def noteCycled (now : Timeval) (s : State) (n : Notes) : Notes :=
  match s.cycle with
  | .calculate => if s.self.shmseg then { n with last := some (n.current, now) } else n
  | _ => n

def note (s : State) : Event → Notes → Notes
  | .handler, n => noteServed s n
  | .cycle _ _ now, n => noteCycled now s n
  | _, n => n

abbrev Run := Observed State Notes

def step (pid : Pid) : Run → Event → Option Run := observe (Slot.step pid) note

def initial (name : CString.Mem) (availableParameters : ℕ) : Run :=
  ⟨Slot.initial name availableParameters, {}⟩

/-- The clock does not start at zero and does not go back. -/
def clockRuns (r : Run) : Event → Bool
  | .cycle _ _ now =>
    r.state.cycle = .calculate → now ≠ ⟨0, 0⟩ ∧ ∀ round ∈ r.notes.last,
      round.2.tvSec < now.tvSec ∨ round.2.tvSec = now.tvSec ∧ round.2.tvUsec ≤ now.tvUsec
  | _ => true

/-- The round before belongs to the started cycle that still runs. -/
def SameCycle (r : Run) : Prop := ∃ n t, r.notes.current = some n ∧ r.notes.last = some (some n, t)

/-- A round with this clock reading has to record an error. -/
def Due (r : Run) (now : Timeval) : Prop :=
  ∃ n t, r.notes.current = some n ∧ r.notes.last = some (some n, t) ∧
    Overrun r.state.seg.communicationCycleUs t now

structure SampleInv (r : Run) : Prop where
  bound : ∀ n t, r.notes.last = some (some n, t) → n ≤ r.notes.starts
  running : ∀ n, r.notes.current = some n → n ≤ r.notes.starts
  sample : ∀ n t, r.notes.current = some n → r.notes.last = some (some n, t) →
    r.state.self.lastCommunicationTimeval = t ∧ t ≠ ⟨0, 0⟩

theorem SampleInv.keep {r : Run} {t : State} (h : SampleInv r)
    (hlast : t.self.lastCommunicationTimeval = r.state.self.lastCommunicationTimeval) :
    SampleInv ⟨t, r.notes⟩ := by
  refine ⟨h.bound, h.running, ?_⟩
  intro n u hcurrent hround
  dsimp only
  rw [hlast]
  exact h.sample n u hcurrent hround

/-- Whatever ends a cycle ends what is known of its last round. -/
theorem SampleInv.interrupt {r : Run} (h : SampleInv r) (t : State) :
    SampleInv ⟨t, { r.notes with current := none }⟩ :=
  ⟨h.bound, nofun, nofun⟩

theorem SampleInv.start {r : Run} (h : SampleInv r) (t : State) :
    SampleInv ⟨t, { r.notes with
      starts := r.notes.starts + 1
      current := some (r.notes.starts + 1) }⟩ := by
  refine ⟨?_, ?_, ?_⟩
  · intro n u hround
    exact Nat.le_succ_of_le (h.bound n u hround)
  · intro n hn
    exact (Option.some.inj hn).ge
  · intro n u hn hround
    obtain rfl := Option.some.inj hn
    exact absurd (h.bound _ u hround) (Nat.not_succ_le_self _)

theorem serve_last {s : State} {self : SlaveContext} {seg : Shmseg} {pc : HandlerPc}
    (h : Serve s self seg pc) (hpc : ∀ k, s.handler ≠ .disconnect k) :
    self.lastCommunicationTimeval = s.self.lastCommunicationTimeval := by
  cases h with
  | disconnect hdisconnect => exact absurd hdisconnect (hpc _)
  | changeName => exact handleChangeName_last s.self s.seg
  | _ => rfl

theorem handlerStep_last {pid : Pid} {s t : State} (hs : handlerStep pid s = some t)
    (hpc : ∀ k, s.handler ≠ .disconnect k) :
    t.self.lastCommunicationTimeval = s.self.lastCommunicationTimeval := by
  cases handlerStep_move hs with
  | served hserve => exact serve_last hserve hpc
  | _ => rfl

theorem SampleInv.served {pid : Pid} {r : Run} {t : State} (h : SampleInv r)
    (hs : handlerStep pid r.state = some t) : SampleInv ⟨t, noteServed r.state r.notes⟩ := by
  unfold noteServed
  split
  · exact h.start t
  · exact h.interrupt t
  · exact h.interrupt t
  · rename_i hdisconnect
    exact h.keep (handlerStep_last hs hdisconnect)

theorem cycleStep_last {usleep : Bool} {rand : ℕ} {now : Timeval} {s t : State}
    (hs : cycleStep usleep rand now s = some t) (hpc : s.cycle ≠ .calculate) :
    t.self.lastCommunicationTimeval = s.self.lastCommunicationTimeval := by
  cases cycleStep_move hs with
  | calculated hcalculate => exact absurd hcalculate hpc
  | _ => rfl

theorem SampleInv.cycled {usleep : Bool} {rand : ℕ} {now : Timeval} {r : Run} {t : State}
    (h : SampleInv r) (hok : clockRuns r (.cycle usleep rand now) = true)
    (hs : cycleStep usleep rand now r.state = some t) :
    SampleInv ⟨t, noteCycled now r.state r.notes⟩ := by
  unfold noteCycled
  split
  · rename_i hpc
    have hnow : now ≠ ⟨0, 0⟩ := (of_decide_eq_true hok hpc).1
    simp only [cycleStep, hpc] at hs
    obtain ⟨hptr, rfl⟩ | ⟨hnull, rfl⟩ := State.deref_cases hs
    · rw [if_pos hptr]
      refine ⟨?_, h.running, ?_⟩
      · intro n u hround
        have hcurrent := (Prod.mk.inj (Option.some.inj hround)).1
        exact h.running n hcurrent
      · intro n u hcurrent hround
        obtain rfl := (Prod.mk.inj (Option.some.inj hround)).2
        exact ⟨calculate_last now r.state.self r.state.seg, hnow⟩
    · rw [if_neg (by simp [hnull])]
      exact h.keep rfl
  · rename_i hpc
    exact h.keep (cycleStep_last hs hpc)

theorem step_inv {pid : Pid} {r r' : Run} {e : Event} (h : SampleInv r)
    (hok : clockRuns r e = true) (hs : step pid r e = some r') : SampleInv r' := by
  obtain ⟨t, ht, rfl⟩ := observe_eq_some hs
  cases e with
  | configure requestedParameters communicationCycleUs =>
    obtain rfl := Option.some.inj ht
    exact h.keep rfl
  | sync request => cases syncStep_move ht <;> exact h.keep rfl
  | slot mustChange =>
    obtain ⟨v, effect, -, rfl⟩ := slotStep_eq_some ht
    exact h.keep (by simp)
  | deliver =>
    obtain ⟨toMaster, wake, rfl⟩ := deliverStep_eq_some ht
    exact h.keep rfl
  | handler =>
    obtain ⟨-, ht⟩ := Option.ite_none_right_eq_some.mp ht
    exact h.served ht
  | cycle usleep rand now =>
    obtain ⟨-, ht⟩ := Option.ite_none_right_eq_some.mp ht
    exact h.cycled hok ht

theorem SampleInv.due_iff {r : Run} (h : SampleInv r) {now : Timeval} :
    Due r now ↔ SameCycle r ∧ r.state.self.lastCommunicationTimeval ≠ ⟨0, 0⟩ ∧
      Overrun r.state.seg.communicationCycleUs r.state.self.lastCommunicationTimeval now := by
  constructor
  · rintro ⟨n, t, hcurrent, hround, hoverrun⟩
    obtain ⟨hsample, hset⟩ := h.sample n t hcurrent hround
    rw [hsample]
    exact ⟨⟨n, t, hcurrent, hround⟩, hset, hoverrun⟩
  · rintro ⟨⟨n, t, hcurrent, hround⟩, -, hoverrun⟩
    rw [(h.sample n t hcurrent hround).1] at hoverrun
    exact ⟨n, t, hcurrent, hround, hoverrun⟩

def SampleFresh (r : Run) (now : Timeval) : Prop :=
  r.state.self.lastCommunicationTimeval ≠ ⟨0, 0⟩ →
    Overrun r.state.seg.communicationCycleUs r.state.self.lastCommunicationTimeval now → SameCycle r

theorem reaches_of_slot {pid : Pid} {name : CString.Mem} {availableParameters : ℕ} {s : State}
    (h : Reaches (Slot.step pid) unrestricted (Slot.initial name availableParameters) s) :
    ∃ r : Run, Reaches (step pid) unrestricted (initial name availableParameters) r ∧
      r.state = s :=
  h.observed note {}

theorem recorded_iff_due {pid : Pid} {name : CString.Mem} {availableParameters : ℕ} {r : Run}
    (h : Reaches (step pid) (fun r e ↦ clockRuns r e = true) (initial name availableParameters) r)
    (now : Timeval) :
    (Recorded now r.state.self r.state.seg ↔ Due r now) ↔ SampleFresh r now := by
  have hinv : SampleInv r := h.invariant ⟨nofun, nofun, nofun⟩ fun _ _ _ ↦ step_inv
  rw [recorded_iff, hinv.due_iff, SampleFresh]
  tauto

def timedRound (now : Timeval) : List Event :=
  List.replicate 12 (Event.cycle true 0 now) ++ [Event.deliver] ++
    List.replicate 7 (Event.slot false) ++ List.replicate 5 Event.handler

/-- The second round of a cycle of 1000 us comes after 2500 us. -/
def lateRound : List Event :=
  startRun ++ timedRound ⟨1, 0⟩ ++ List.replicate 4 (Event.cycle true 0 ⟨1, 2500⟩)

theorem lateRound_reported :
    ∃ r, r.state.cycle = .calculate ∧ Recorded ⟨1, 2500⟩ r.state.self r.state.seg ∧
      Due r ⟨1, 2500⟩ := by
  have hrun : (run (guarded (step 1000) fun r e ↦ clockRuns r e = true) (initial [97] 7)
      lateRound).map (fun r ↦ decide (r.state.cycle = .calculate ∧ r.notes.current = some 1 ∧
        r.notes.last = some (some 1, ⟨1, 0⟩) ∧ r.state.self.lastCommunicationTimeval = ⟨1, 0⟩ ∧
        r.state.seg.communicationCycleUs = 1000)) = some true := by
    decide +kernel
  obtain ⟨r, hr, hview⟩ := Option.map_eq_some_iff.mp hrun
  obtain ⟨hpc, hcurrent, hlast, hsample, hperiod⟩ := of_decide_eq_true hview
  have hoverrun : Overrun 1000 ⟨1, 0⟩ ⟨1, 2500⟩ := by decide
  have hrecorded : Recorded ⟨1, 2500⟩ r.state.self r.state.seg := by
    rw [recorded_iff, hsample, hperiod]
    exact ⟨by decide, hoverrun⟩
  have hfresh : SampleFresh r ⟨1, 2500⟩ := fun _ _ ↦ ⟨1, _, hcurrent, hlast⟩
  exact ⟨r, hpc, hrecorded, ((recorded_iff_due (.of_run hr) _).mpr hfresh).mp hrecorded⟩

/-- The cycle is stopped after its first round and started again nine seconds later. -/
def staleRound : List Event :=
  startRun ++ timedRound ⟨1, 0⟩ ++ SlotPeriod.stopCommand ++ SlotPeriod.restart 1000 ++
    List.replicate 2 (Event.cycle true 0 ⟨10, 0⟩)

theorem firstRound_reported :
    ¬ ∀ r, Reaches (step 1000) (fun r e ↦ clockRuns r e = true) (initial [97] 7) r →
      ∀ now, clockRuns r (.cycle true 0 now) = true → r.state.cycle = .calculate →
        (Recorded now r.state.self r.state.seg ↔ Due r now) := by
  intro hall
  have hrun : (run (guarded (step 1000) fun r e ↦ clockRuns r e = true) (initial [97] 7)
      staleRound).map (fun r ↦ decide (r.state.cycle = .calculate ∧ r.notes.current = some 2 ∧
        r.notes.last = some (some 1, ⟨1, 0⟩) ∧ r.state.self.lastCommunicationTimeval = ⟨1, 0⟩ ∧
        r.state.seg.communicationCycleUs = 1000)) = some true := by
    decide +kernel
  obtain ⟨r, hr, hview⟩ := Option.map_eq_some_iff.mp hrun
  obtain ⟨hpc, hcurrent, hlast, hsample, hperiod⟩ := of_decide_eq_true hview
  have hclock : clockRuns r (.cycle true 0 ⟨10, 0⟩) = true := by
    simp [clockRuns, hlast]
  have hrecorded : Recorded ⟨10, 0⟩ r.state.self r.state.seg := by
    rw [recorded_iff, hsample, hperiod]
    exact ⟨by decide, by decide⟩
  obtain ⟨n, t, hn, hround, -⟩ := (hall r (.of_run hr) _ hclock hpc).mp hrecorded
  rw [hcurrent] at hn
  rw [hlast] at hround
  obtain rfl := Option.some.inj hn
  cases hround

end RealTimeCyclic.SlotOverrun
