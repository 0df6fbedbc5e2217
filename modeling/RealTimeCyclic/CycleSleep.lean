import RealTimeCyclic.Slot
import RealTimeCyclic.StartDialogue
import Mathlib.Algebra.BigOperators.Group.List.Basic

namespace RealTimeCyclic.CycleSleep

open Shm Slave SlotThread Slot

/-- The wait for `sem_s_to_m_request`: what it leaves in the segment, its accumulator
and its calls of `usleep`. -/
structure Wait where
  seg : Shmseg
  elapsedCommunicationCycleUs : Int
  slept : List Usleep

/-- The loop of `send_master_signal_master_parameter_request` from a threshold on. The
attempt at threshold `k` finds the count `found k`, as the master leaves it. -/
def waitMaster (found : ℕ → ℕ) (timeSegmentUs : Int) (threshold : ℕ) (elapsed : Int)
    (seg : Shmseg) : Wait :=
  if 0 < found threshold then
    ⟨{ seg with semSToMRequest := found threshold - 1 }, elapsed, []⟩
  else if waitMasterResponseTimeoutSegments ≤ threshold then
    ⟨setError ⟨"Master failed to respond to request!", none⟩ { seg with semSToMRequest := 0 },
      elapsed, []⟩
  else
    let wait := waitMaster found timeSegmentUs (threshold + 1) (elapsed + timeSegmentUs) seg
    { wait with slept := .call timeSegmentUs :: wait.slept }
termination_by waitMasterResponseTimeoutSegments - threshold

structure Sending where
  seg : Shmseg
  slept : List Usleep
  requested : Bool
  returned : Int

/-- `send_master_signal_master_parameter_request`. The count of `allow_communication_cycle`
is `none` where `sem_getvalue` fails. -/
def sendMasterSignalMasterParameterRequest (found : ℕ → ℕ) (allow : Option ℕ) (seg : Shmseg) :
    Sending :=
  let timeSegmentUs := seg.communicationCycleUs.tdiv waitMasterResponseTimeoutSegments
  let wait := waitMaster found timeSegmentUs 0 0 seg
  match allow with
  | none => ⟨wait.seg, wait.slept, false, 0⟩
  | some 0 =>
    ⟨{ wait.seg with semSToMRequest := wait.seg.semSToMRequest + 1 }, wait.slept, false, 0⟩
  | some (_ + 1) =>
    ⟨{ wait.seg with reqSToM := .signalMasterParameter }, wait.slept, true, timeSegmentUs⟩

def failedAttempts (found : ℕ → ℕ) : ℕ :=
  ((List.range waitMasterResponseTimeoutSegments).takeWhile fun k ↦ found k = 0).length

theorem waitMaster_slept (found : ℕ → ℕ) (timeSegmentUs : Int) (threshold : ℕ) (elapsed : Int)
    (seg : Shmseg) :
    (waitMaster found timeSegmentUs threshold elapsed seg).slept =
      List.replicate ((List.range' threshold
        (waitMasterResponseTimeoutSegments - threshold)).takeWhile fun k ↦ found k = 0).length
        (.call timeSegmentUs) := by
  fun_induction waitMaster found timeSegmentUs threshold elapsed seg with
  | case1 threshold elapsed hfound =>
    cases waitMasterResponseTimeoutSegments - threshold with
    | zero => rfl
    | succ left => simp [List.range'_succ, hfound.ne']
  | case2 threshold elapsed hfound hlimit =>
    rw [Nat.sub_eq_zero_of_le hlimit]
    rfl
  | case3 threshold elapsed hfound hlimit wait ih =>
    have hzero : found threshold = 0 := Nat.eq_zero_of_not_pos hfound
    obtain ⟨left, hleft⟩ : ∃ left, waitMasterResponseTimeoutSegments - threshold = left + 1 :=
      Nat.exists_eq_succ_of_ne_zero (Nat.sub_ne_zero_of_lt (not_le.mp hlimit))
    rw [show waitMasterResponseTimeoutSegments - (threshold + 1) = left by omega] at ih
    rw [hleft, List.range'_succ, List.takeWhile_cons_of_pos (by simpa using hzero),
      List.length_cons, List.replicate_succ]
    exact congrArg _ ih

section Sending

variable (found : ℕ → ℕ) (allow : Option ℕ) (seg : Shmseg)

theorem sending_slept : (sendMasterSignalMasterParameterRequest found allow seg).slept =
    List.replicate (failedAttempts found)
      (.call (seg.communicationCycleUs.tdiv waitMasterResponseTimeoutSegments)) := by
  have hwait := waitMaster_slept found
    (seg.communicationCycleUs.tdiv waitMasterResponseTimeoutSegments) 0 0 seg
  rw [Nat.sub_zero, ← List.range_eq_range'] at hwait
  unfold sendMasterSignalMasterParameterRequest
  dsimp only
  split <;> exact hwait

def waited (slept : List Usleep) : ℕ := (slept.map fun call ↦ call.usec.toNat).sum

theorem sending_waited : waited (sendMasterSignalMasterParameterRequest found allow seg).slept =
    failedAttempts found *
      (Usleep.call
        (seg.communicationCycleUs.tdiv waitMasterResponseTimeoutSegments)).usec.toNat := by
  rw [sending_slept, waited, List.map_replicate, List.sum_replicate, nsmul_eq_mul, Nat.cast_id]

theorem sending_returned (h : (sendMasterSignalMasterParameterRequest found allow seg).requested) :
    (sendMasterSignalMasterParameterRequest found allow seg).returned =
      seg.communicationCycleUs.tdiv waitMasterResponseTimeoutSegments := by
  unfold sendMasterSignalMasterParameterRequest at h ⊢
  dsimp only at h ⊢
  split at h
  · cases h
  · cases h
  · rfl

end Sending

/-- The wait for the master and the sleep of the next round make up one cycle. -/
structure Compensated (found : ℕ → ℕ) (communicationCycleUs : Int) (sending : Sending) :
    Prop where
  returned : sending.returned =
    failedAttempts found * communicationCycleUs.tdiv waitMasterResponseTimeoutSegments
  period : waited sending.slept + (communicationCycleUs - sending.returned) = communicationCycleUs
  nonneg : 0 ≤ communicationCycleUs - sending.returned

theorem segment_waited_iff {us : Int} (h : 0 ≤ us) :
    ((Usleep.call us).usec.toNat : Int) = us ↔ us < 2 ^ 32 := by
  constructor
  · intro heq
    have hlt := (Usleep.call us).usec.toNat_lt
    omega
  · exact Usleep.call_usec h

theorem compensated_iff {found : ℕ → ℕ} {allow : Option ℕ} {seg : Shmseg}
    (hcycle : 0 < seg.communicationCycleUs)
    (hsent : (sendMasterSignalMasterParameterRequest found allow seg).requested = true) :
    Compensated found seg.communicationCycleUs
        (sendMasterSignalMasterParameterRequest found allow seg) ↔
      seg.communicationCycleUs < 20 ∨
        failedAttempts found = 1 ∧ seg.communicationCycleUs < 20 * 2 ^ 32 := by
  have hreturned := sending_returned found allow seg hsent
  have hwaited := sending_waited found allow seg
  have hsegment : seg.communicationCycleUs.tdiv waitMasterResponseTimeoutSegments =
      seg.communicationCycleUs / 20 := Int.tdiv_eq_ediv_of_nonneg hcycle.le
  have hfull : ((Usleep.call (seg.communicationCycleUs / 20)).usec.toNat : Int) =
      seg.communicationCycleUs / 20 ↔ seg.communicationCycleUs / 20 < 2 ^ 32 :=
    segment_waited_iff (by omega)
  rw [hsegment] at hreturned hwaited
  constructor
  · intro h
    have heq := h.returned
    have hperiod := h.period
    rw [hreturned, hsegment] at heq
    rw [hreturned, hwaited] at hperiod
    by_cases hshort : seg.communicationCycleUs < 20
    · exact .inl hshort
    · have hne : seg.communicationCycleUs / 20 ≠ 0 := by omega
      have hone : failedAttempts found = 1 := by
        refine Nat.cast_injective (R := Int) ?_
        exact (mul_right_cancel₀ hne (heq.symm.trans (one_mul _).symm)).trans Nat.cast_one.symm
      rw [hone, one_mul] at hperiod
      have hlt := hfull.mp (by omega)
      exact .inr ⟨hone, by omega⟩
  · intro h
    rcases h with hshort | ⟨hone, hlong⟩
    · have hzero : seg.communicationCycleUs / 20 = 0 := by omega
      rw [hzero] at hreturned hwaited
      refine ⟨?_, ?_, ?_⟩
      · rw [hreturned, hsegment, hzero, mul_zero]
      · have hnothing : (Usleep.call 0).usec.toNat = 0 := rfl
        rw [hwaited, hreturned, hnothing]
        omega
      · rw [hreturned]
        omega
    · have hslept := hfull.mpr (by omega)
      refine ⟨?_, ?_, ?_⟩
      · rw [hreturned, hsegment, hone, Nat.cast_one, one_mul]
      · rw [hwaited, hreturned, hone, one_mul, hslept]
        omega
      · rw [hreturned]
        omega

def cycling (communicationCycleUs : Int) : Shmseg :=
  { Shmseg.initial with communicationCycleUs := communicationCycleUs }

/-- The master answers while the slave waits for the first time. -/
theorem oneWait_compensated : Compensated id (cycling 1000).communicationCycleUs
    (sendMasterSignalMasterParameterRequest id (some 1) (cycling 1000)) :=
  (compensated_iff (by decide) rfl).mpr (.inr ⟨by decide, by decide⟩)

/-- Without any wait the next sleep of a cycle of 1000 us is 950 us. -/
theorem noWait_shortened :
    ¬ ∀ found allow seg, 0 < seg.communicationCycleUs →
      (sendMasterSignalMasterParameterRequest found allow seg).requested = true →
      Compensated found seg.communicationCycleUs
        (sendMasterSignalMasterParameterRequest found allow seg) := by
  intro hall
  have h := (hall (fun _ ↦ 1) (some 1) (cycling 1000) (by decide) rfl).returned
  have hnone : failedAttempts (fun _ ↦ 1) = 0 := by decide
  rw [sending_returned _ _ _ rfl, hnone] at h
  cases h

/-- What the calls in one round of the cycle thread find. -/
structure Round where
  usleep : Bool
  found : ℕ → ℕ
  allow : Option ℕ

def round (seg : Shmseg) (sleepUs : Int) (r : Round) : List Usleep × Int :=
  let sleepUs := if sleepUs = errorNotSetCommunicationCycleMs then seg.communicationCycleUs
    else sleepUs
  let slept := if 0 < sleepUs then [.call sleepUs] else []
  if 0 < sleepUs ∧ ¬ r.usleep then (slept, sleepUs)
  else
    let sending := sendMasterSignalMasterParameterRequest r.found r.allow seg
    (slept ++ sending.slept, seg.communicationCycleUs - sending.returned)

def usleepCalls (seg : Shmseg) : Int → List Round → List Usleep
  | _, [] => []
  | sleepUs, r :: rounds =>
    (round seg sleepUs r).1 ++ usleepCalls seg (round seg sleepUs r).2 rounds

def Bounded (seg : Shmseg) (sleepUs : Int) : Prop :=
  sleepUs = errorNotSetCommunicationCycleMs ∨ 0 ≤ sleepUs ∧ sleepUs ≤ seg.communicationCycleUs

theorem sending_returned_or (found : ℕ → ℕ) (allow : Option ℕ) (seg : Shmseg) :
    (sendMasterSignalMasterParameterRequest found allow seg).returned = 0 ∨
      (sendMasterSignalMasterParameterRequest found allow seg).returned =
        seg.communicationCycleUs.tdiv waitMasterResponseTimeoutSegments := by
  unfold sendMasterSignalMasterParameterRequest
  dsimp only
  split
  · exact .inl rfl
  · exact .inl rfl
  · exact .inr rfl

theorem round_bounded {seg : Shmseg} {sleepUs : Int} (hcycle : 0 < seg.communicationCycleUs)
    (h : Bounded seg sleepUs) (r : Round) :
    (∀ call ∈ (round seg sleepUs r).1,
      ∃ us, call = .call us ∧ 0 ≤ us ∧ us ≤ seg.communicationCycleUs) ∧
      Bounded seg (round seg sleepUs r).2 := by
  have hsegment : seg.communicationCycleUs.tdiv waitMasterResponseTimeoutSegments =
      seg.communicationCycleUs / 20 := Int.tdiv_eq_ediv_of_nonneg hcycle.le
  obtain ⟨sleep, hsleep, hnonneg, hle⟩ : ∃ sleep,
      (if sleepUs = errorNotSetCommunicationCycleMs then seg.communicationCycleUs
        else sleepUs) = sleep ∧ 0 ≤ sleep ∧ sleep ≤ seg.communicationCycleUs := by
    refine ⟨_, rfl, ?_⟩
    rcases h with hunset | hset
    · rw [if_pos hunset]
      exact ⟨hcycle.le, le_refl _⟩
    · rw [if_neg (by rw [errorNotSetCommunicationCycleMs]; omega)]
      exact hset
  have hfirst : ∀ call ∈ (if 0 < sleep then [Usleep.call sleep] else []),
      ∃ us, call = .call us ∧ 0 ≤ us ∧ us ≤ seg.communicationCycleUs := by
    intro call hcall
    split_ifs at hcall
    · obtain rfl := List.mem_singleton.mp hcall
      exact ⟨sleep, rfl, hnonneg, hle⟩
    · cases hcall
  have hreturned := sending_returned_or r.found r.allow seg
  unfold round
  rw [hsleep]
  dsimp only
  by_cases hfailed : 0 < sleep ∧ ¬ r.usleep
  · rw [if_pos hfailed]
    exact ⟨hfirst, .inr ⟨hnonneg, hle⟩⟩
  · rw [if_neg hfailed]
    constructor
    · intro call hcall
      rcases List.mem_append.mp hcall with hmem | hmem
      · exact hfirst call hmem
      · rw [sending_slept, hsegment] at hmem
        obtain rfl := List.eq_of_mem_replicate hmem
        exact ⟨_, rfl, by omega, by omega⟩
    · apply Or.inr
      dsimp only
      omega

theorem usleepCalls_bounded {seg : Shmseg} {sleepUs : Int}
    (hcycle : 0 < seg.communicationCycleUs) (h : Bounded seg sleepUs) (rounds : List Round) :
    ∀ call ∈ usleepCalls seg sleepUs rounds,
      ∃ us, call = .call us ∧ 0 ≤ us ∧ us ≤ seg.communicationCycleUs := by
  induction rounds generalizing sleepUs with
  | nil =>
    intro call hcall
    cases hcall
  | cons r rounds ih =>
    intro call hcall
    obtain ⟨hround, hnext⟩ := round_bounded hcycle h r
    rcases List.mem_append.mp hcall with hmem | hmem
    · exact hround call hmem
    · exact ih hnext call hmem

/-- No step from the number typed in to the calls of `usleep` changes the intended number.
The thread has not slept before. -/
structure IntervalExact (ms : Int) : Prop where
  fits : communicationCycleUs ms = ms * 1000
  positive : 0 < communicationCycleUs ms
  isSet : communicationCycleUs ms ≠ errorNotSetCommunicationCycleMs
  slept : ∀ seg rounds, seg.communicationCycleUs = communicationCycleUs ms →
    ∀ call ∈ usleepCalls seg errorNotSetCommunicationCycleMs rounds,
      (call.usec.toNat : Int) = call.us

theorem mem_firstRound {cycleUs : Int} (h : 0 < cycleUs) : .call cycleUs ∈ usleepCalls
    (cycling cycleUs) errorNotSetCommunicationCycleMs [⟨true, fun _ ↦ 1, none⟩] := by
  have hfirst : (if (0 : Int) < cycleUs then [Usleep.call cycleUs] else []) = [.call cycleUs] :=
    if_pos h
  simp [usleepCalls, round, cycling, hfirst]

theorem exact_iff_short {ms : Int} (hpos : 0 < ms) (hlong : ms < 2 ^ 63) :
    IntervalExact ms ↔ ms ≤ 4294967 := by
  constructor
  · intro h
    have hfirst : ((Usleep.call (communicationCycleUs ms)).usec.toNat : Int) =
        communicationCycleUs ms :=
      h.slept (cycling (communicationCycleUs ms)) [⟨true, fun _ ↦ 1, none⟩] rfl
        (.call (communicationCycleUs ms)) (mem_firstRound h.positive)
    have hbound := (Usleep.call (communicationCycleUs ms)).usec.toNat_lt
    rw [h.fits] at hfirst hbound
    omega
  · intro hle
    have hfits : communicationCycleUs ms = ms * 1000 :=
      Int.bmod_eq_of_le (by omega) (by omega)
    refine ⟨hfits, by omega, ?_, ?_⟩
    · rw [hfits, errorNotSetCommunicationCycleMs]
      omega
    · intro seg rounds hseg call hcall
      have hcycle : 0 < seg.communicationCycleUs := by omega
      obtain ⟨us, rfl, hnonneg, hmax⟩ := usleepCalls_bounded hcycle (.inl rfl) rounds call hcall
      exact Usleep.call_usec hnonneg (by omega)

theorem threeSeconds_exact : IntervalExact 3000 :=
  (exact_iff_short (by decide) (by decide)).mpr (by decide)

/-- The first sleep of a cycle of 4294968 ms lasts 704 us. -/
theorem sleep_narrowed : ¬ ∀ ms : Int, 0 < ms → ms < 2 ^ 63 → IntervalExact ms := by
  intro hall
  have hexact := hall 4294968 (by decide) (by decide)
  have hslept := hexact.slept (cycling 4294968000) [⟨true, fun _ ↦ 1, none⟩] (by decide)
    (.call 4294968000) (mem_firstRound (by decide))
  have hnarrow : (Usleep.call 4294968000).usec.toNat = 704 := by decide
  rw [hnarrow] at hslept
  cases hslept

theorem interval_stored {ms : Int} (hpos : 0 < ms) {killed : Bool}
    {s t : StartDialogue.State} {d : StartDialogue.Dialogue} (hd : s.dialogue = some d)
    (hs : StartDialogue.interval (some ms) killed s = some t) :
    (t.seg d.slot).communicationCycleUs = communicationCycleUs ms := by
  unfold StartDialogue.interval at hs
  rw [hd] at hs
  dsimp only at hs
  split_ifs at hs with hquestion hms
  · omega
  · obtain rfl := Option.some.inj hs
    cases killed <;> simp [StartDialogue.sendStart]

section Thread

/-- Steps of the cycle thread. Between them the other parties may change the counts of the
two semaphores. -/
inductive Moves : State → State → Prop
  | refl (s : State) : Moves s s
  | cycle {s t u : State} {usleep : Bool} {rand : ℕ} {now : Timeval}
      (hs : cycleStep usleep rand now s = some t) (h : Moves t u) : Moves s u
  | others {s u : State} (semSToMRequest allowCommunicationCycle : ℕ)
      (h : Moves { s with
        seg.semSToMRequest := semSToMRequest
        self.allowCommunicationCycle := allowCommunicationCycle } u) : Moves s u

theorem Moves.trans {s t u : State} (h : Moves s t) (h' : Moves t u) : Moves s u := by
  induction h with
  | refl => exact h'
  | cycle hs h ih => exact .cycle hs (ih h')
  | others semSToMRequest allowCommunicationCycle h ih => exact .others _ _ (ih h')

/-- Where the thread is, in a cycle of this length and with this `sleep_us`. -/
structure At (cycleUs sleepUs : Int) (pc : CyclePc) (s : State) : Prop where
  pc : s.cycle = pc
  pointer : s.self.shmseg = true
  period : s.seg.communicationCycleUs = cycleUs
  sleep : s.sleepUs = sleepUs

variable {s : State} {cycleUs sleepUs : Int}

def Comes (cycleUs : Int) (s : State) (slept : List Usleep) (sleepUs : Int) (pc : CyclePc) :
    Prop :=
  ∃ t, Moves s t ∧ At cycleUs sleepUs pc t ∧ t.history.slept = s.history.slept ++ slept

theorem Comes.one {slept : List Usleep} {pc : CyclePc} (usleep : Bool)
    (h : ∃ t, cycleStep usleep 0 ⟨0, 0⟩ s = some t ∧ At cycleUs sleepUs pc t ∧
      t.history.slept = s.history.slept ++ slept) : Comes cycleUs s slept sleepUs pc := by
  obtain ⟨t, ht, hend⟩ := h
  exact ⟨t, .cycle ht (.refl t), hend⟩

theorem Comes.silent {pc : CyclePc} (h : ∃ t, cycleStep true 0 ⟨0, 0⟩ s = some t ∧
    At cycleUs sleepUs pc t ∧ t.history.slept = s.history.slept) :
    Comes cycleUs s [] sleepUs pc := by
  obtain ⟨t, ht, hat, hslept⟩ := h
  exact .one true ⟨t, ht, hat, by rw [hslept, List.append_nil]⟩

theorem Comes.others {slept : List Usleep} {pc : CyclePc}
    (semSToMRequest allowCommunicationCycle : ℕ)
    (h : Comes cycleUs { s with
      seg.semSToMRequest := semSToMRequest
      self.allowCommunicationCycle := allowCommunicationCycle } slept sleepUs pc) :
    Comes cycleUs s slept sleepUs pc := by
  obtain ⟨u, hu, hend⟩ := h
  exact ⟨u, .others _ _ hu, hend⟩

theorem Comes.bind {slept slept' : List Usleep} {sleepUs' : Int} {pc pc' : CyclePc}
    (h : Comes cycleUs s slept sleepUs pc)
    (h' : ∀ t, At cycleUs sleepUs pc t → Comes cycleUs t slept' sleepUs' pc') :
    Comes cycleUs s (slept ++ slept') sleepUs' pc' := by
  obtain ⟨t, ht, hat, hslept⟩ := h
  obtain ⟨u, hu, hend, hslept'⟩ := h' t hat
  exact ⟨u, ht.trans hu, hend, by rw [hslept', hslept, List.append_assoc]⟩

theorem deref_of_pointer (t : State) (h : s.self.shmseg = true) : s.deref t = some t := if_pos h

theorem comes_usleep (h : At cycleUs sleepUs .semWaitAllow s) :
    Comes cycleUs s [] (if sleepUs = errorNotSetCommunicationCycleMs then cycleUs else sleepUs)
      .usleep := by
  have htaken : Comes cycleUs s [] sleepUs .readCycle := by
    refine .others 0 1 (.silent ⟨{ s with
      seg.semSToMRequest := 0
      self.allowCommunicationCycle := 0
      cycle := .readCycle }, ?_, ⟨rfl, h.pointer, h.period, h.sleep⟩, rfl⟩)
    simp [cycleStep, h.pc]
  refine htaken.bind fun t ht ↦ .silent ⟨{ t with
    sleepUs := if sleepUs = errorNotSetCommunicationCycleMs then cycleUs else sleepUs
    cycle := .usleep }, ?_, ⟨rfl, ht.pointer, ht.period, rfl⟩, rfl⟩
  simp [cycleStep, ht.pc, deref_of_pointer _ ht.pointer, ht.sleep, ht.period]

theorem comes_again (h : At cycleUs sleepUs .usleep s) (hpos : 0 < sleepUs) :
    Comes cycleUs s [.call sleepUs] sleepUs .semWaitAllow := by
  refine .one false ⟨{ s.usleep sleepUs with
    seg := setError ⟨"usleep() failed!", none⟩ s.seg
    cycle := .semWaitAllow }, ?_, ⟨rfl, h.pointer, ?_, h.sleep⟩, rfl⟩
  · simp [cycleStep, h.pc, h.sleep, hpos, State.deref, h.pointer]
  · exact (setError_communicationCycleUs _ _).trans h.period

theorem comes_segment (h : At cycleUs sleepUs .usleep s) :
    Comes cycleUs s (if 0 < sleepUs then [.call sleepUs] else []) sleepUs (.segment cycleUs) := by
  have hslept : Comes cycleUs s (if 0 < sleepUs then [.call sleepUs] else []) sleepUs .store := by
    split_ifs with hpos
    · refine .one true ⟨{ s.usleep sleepUs with cycle := .store }, ?_,
        ⟨rfl, h.pointer, h.period, h.sleep⟩, rfl⟩
      simp [cycleStep, h.pc, h.sleep, hpos]
    · refine .silent ⟨{ s with cycle := .store }, ?_, ⟨rfl, h.pointer, h.period, h.sleep⟩, rfl⟩
      simp [cycleStep, h.pc, h.sleep, hpos]
  have hstored (t : State) (ht : At cycleUs sleepUs .store t) :
      Comes cycleUs t [] sleepUs .calculate := by
    refine .silent ⟨{ t with seg := storeParameters 0 t.seg, cycle := .calculate }, ?_,
      ⟨rfl, ht.pointer, (storeParameters_communicationCycleUs _ _).trans ht.period, ht.sleep⟩, rfl⟩
    simp [cycleStep, ht.pc, deref_of_pointer _ ht.pointer]
  have hcalculated (t : State) (ht : At cycleUs sleepUs .calculate t) :
      Comes cycleUs t [] sleepUs .postAllow := by
    refine .silent ⟨{ t with
      self := (calculateParameterCommunicationInterval ⟨0, 0⟩ t.self t.seg).1
      seg := (calculateParameterCommunicationInterval ⟨0, 0⟩ t.self t.seg).2
      cycle := .postAllow }, ?_, ⟨rfl, (calculate_pointer _ _ _).trans ht.pointer,
        (calculate_communicationCycleUs _ _ _).trans ht.period, ht.sleep⟩, rfl⟩
    simp [cycleStep, ht.pc, deref_of_pointer _ ht.pointer]
  have hposted (t : State) (ht : At cycleUs sleepUs .postAllow t) :
      Comes cycleUs t [] sleepUs .evaluate := by
    refine .silent ⟨{ t with
      self.allowCommunicationCycle := t.self.allowCommunicationCycle + 1
      cycle := .evaluate }, ?_, ⟨rfl, ht.pointer, ht.period, ht.sleep⟩, rfl⟩
    simp [cycleStep, ht.pc]
  have hevaluated (t : State) (ht : At cycleUs sleepUs .evaluate t) :
      Comes cycleUs t [] sleepUs (.segment cycleUs) := by
    refine .silent ⟨{ t with cycle := .segment cycleUs }, ?_,
      ⟨rfl, ht.pointer, ht.period, ht.sleep⟩, rfl⟩
    simp [cycleStep, ht.pc, deref_of_pointer _ ht.pointer, ht.period]
  have hrest := (((hslept.bind hstored).bind hcalculated).bind hposted).bind hevaluated
  simpa only [List.append_nil] using hrest

theorem comes_getvalue (found : ℕ → ℕ) (segmentUs : Int) (threshold : ℕ) (elapsed : Int)
    (seg : Shmseg) : ∀ s, At cycleUs sleepUs (.trywait cycleUs segmentUs threshold) s →
    Comes cycleUs s (waitMaster found segmentUs threshold elapsed seg).slept sleepUs
      (.getvalueAllow cycleUs segmentUs) := by
  fun_induction waitMaster found segmentUs threshold elapsed seg with
  | case1 threshold elapsed hfound =>
    intro s h
    refine .others (found threshold) 0 (.silent ⟨{ s with
      seg.semSToMRequest := found threshold - 1
      self.allowCommunicationCycle := 0
      history.taken := s.history.taken + 1
      cycle := .getvalueAllow cycleUs segmentUs }, ?_, ⟨rfl, h.pointer, h.period, h.sleep⟩, rfl⟩)
    simp [cycleStep, h.pc, hfound, State.deref, h.pointer]
  | case2 threshold elapsed hfound hlimit =>
    intro s h
    refine .others 0 0 (.silent ⟨{ s with
      seg := setError ⟨"Master failed to respond to request!", none⟩
        { s.seg with semSToMRequest := 0 }
      self.allowCommunicationCycle := 0
      cycle := .getvalueAllow cycleUs segmentUs }, ?_, ⟨rfl, h.pointer, ?_, h.sleep⟩, rfl⟩)
    · simp [cycleStep, h.pc, hlimit, State.deref, h.pointer]
    · exact (setError_communicationCycleUs _ _).trans h.period
  | case3 threshold elapsed hfound hlimit wait ih =>
    intro s h
    have hwaited : Comes cycleUs s [.call segmentUs] sleepUs
        (.trywait cycleUs segmentUs (threshold + 1)) := by
      refine .others 0 0 (.one true ⟨{ s.usleep segmentUs with
        seg.semSToMRequest := 0
        self.allowCommunicationCycle := 0
        cycle := .trywait cycleUs segmentUs (threshold + 1) }, ?_,
        ⟨rfl, h.pointer, h.period, h.sleep⟩, rfl⟩)
      simp [cycleStep, h.pc, hlimit, State.deref, h.pointer]
    exact hwaited.bind ih

theorem comes_withdrawn {segmentUs : Int}
    (h : At cycleUs sleepUs (.getvalueAllow cycleUs segmentUs) s) :
    Comes cycleUs s [] (cycleUs - 0) .semWaitAllow := by
  have hstopped : Comes cycleUs s [] sleepUs (.withdraw cycleUs) := by
    refine .others 0 0 (.silent ⟨{ s with
      seg.semSToMRequest := 0
      self.allowCommunicationCycle := 0
      cycle := .withdraw cycleUs }, ?_, ⟨rfl, h.pointer, h.period, h.sleep⟩, rfl⟩)
    simp [cycleStep, h.pc]
  apply hstopped.bind
  intro t ht
  refine .silent ⟨{ t with
    seg.semSToMRequest := t.seg.semSToMRequest + 1
    history.withdrawn := t.history.taken :: t.history.withdrawn
    history.posted := t.history.taken :: t.history.posted
    sleepUs := cycleUs - 0
    cycle := .semWaitAllow }, ?_, ⟨rfl, ht.pointer, ht.period, rfl⟩, rfl⟩
  simp [cycleStep, ht.pc, deref_of_pointer _ ht.pointer]

theorem comes_signalled {segmentUs : Int}
    (h : At cycleUs sleepUs (.getvalueAllow cycleUs segmentUs) s) :
    Comes cycleUs s [] (cycleUs - segmentUs) .semWaitAllow := by
  have hfound : Comes cycleUs s [] sleepUs (.writeRequest cycleUs segmentUs) := by
    refine .others 0 1 (.silent ⟨{ s with
      seg.semSToMRequest := 0
      self.allowCommunicationCycle := 1
      cycle := .writeRequest cycleUs segmentUs }, ?_, ⟨rfl, h.pointer, h.period, h.sleep⟩, rfl⟩)
    simp [cycleStep, h.pc]
  have hwritten (t : State) (ht : At cycleUs sleepUs (.writeRequest cycleUs segmentUs) t) :
      Comes cycleUs t [] sleepUs (.kill cycleUs segmentUs) := by
    refine .silent ⟨{ t with
      seg.reqSToM := .signalMasterParameter
      cycle := .kill cycleUs segmentUs }, ?_, ⟨rfl, ht.pointer, ht.period, ht.sleep⟩, rfl⟩
    simp [cycleStep, ht.pc, deref_of_pointer _ ht.pointer]
  apply (hfound.bind hwritten).bind
  intro t ht
  refine .silent ⟨{ t with
    toMaster := t.toMaster ++ [.parameter t.history.taken]
    sleepUs := cycleUs - segmentUs
    cycle := .semWaitAllow }, ?_, ⟨rfl, ht.pointer, ht.period, rfl⟩, rfl⟩
  simp [cycleStep, ht.pc]

theorem comes_sent (found : ℕ → ℕ) (n : ℕ) (seg : Shmseg)
    (hseg : seg.communicationCycleUs = cycleUs) (h : At cycleUs sleepUs (.segment cycleUs) s) :
    Comes cycleUs s (sendMasterSignalMasterParameterRequest found (some n) seg).slept
      (cycleUs - (sendMasterSignalMasterParameterRequest found (some n) seg).returned)
      .semWaitAllow := by
  let segmentUs := seg.communicationCycleUs.tdiv waitMasterResponseTimeoutSegments
  have hwait : Comes cycleUs s [] sleepUs (.trywait cycleUs segmentUs 0) := by
    refine .silent ⟨{ s with
      cycle := .trywait cycleUs segmentUs 0 }, ?_, ⟨rfl, h.pointer, h.period, h.sleep⟩, rfl⟩
    simp [cycleStep, h.pc, deref_of_pointer _ h.pointer, h.period, segmentUs, hseg]
  have hvalue := hwait.bind (comes_getvalue found segmentUs 0 0 seg)
  cases n with
  | zero =>
    have hrest := hvalue.bind fun t ht ↦ comes_withdrawn ht
    rw [List.nil_append, List.append_nil] at hrest
    exact hrest
  | succ n =>
    have hrest := hvalue.bind fun t ht ↦ comes_signalled ht
    rw [List.nil_append, List.append_nil] at hrest
    exact hrest

/-- The rounds computed above are rounds of the thread. -/
theorem comes_round (r : Round) {n : ℕ} (hallow : r.allow = some n)
    (h : At cycleUs sleepUs .semWaitAllow s) :
    Comes cycleUs s (round s.seg sleepUs r).1 (round s.seg sleepUs r).2 .semWaitAllow := by
  have husleep := comes_usleep h
  unfold round
  rw [hallow, h.period]
  dsimp only
  generalize (if sleepUs = errorNotSetCommunicationCycleMs then cycleUs else sleepUs) = sleep
    at husleep ⊢
  by_cases hfailed : 0 < sleep ∧ ¬ r.usleep
  · rw [if_pos hfailed, if_pos hfailed.1]
    exact husleep.bind fun t ht ↦ comes_again ht hfailed.1
  · rw [if_neg hfailed]
    have hround := (husleep.bind fun t ht ↦ comes_segment ht).bind fun t ht ↦
      comes_sent r.found n s.seg h.period ht
    simpa only [List.nil_append] using hround

end Thread

end RealTimeCyclic.CycleSleep
