import RealTimeCyclic.StartDialogue

namespace RealTimeCyclic.StartRefusal

open Shm Function StartDialogue Transition

/-- What a START_SLAVE_CYCLE dialogue reads after the pid: the characters its questions find
in `parameter_response`, where a line that cannot be read leaves what was there before, and
the interval, `none` if it is not a number. -/
structure Answers where
  string : Char
  int : Char
  bool : Char
  reqCycleIntervalMs : Option Int

def Answers.questions (a : Answers) : List (ℕ × Char) :=
  [(stringParameterBit, a.string), (intParameterBit, a.int), (boolParameterBit, a.bool)]

def askParameters : List (ℕ × Char) → Shmseg → Shmseg
  | [], seg => seg
  | (bit, parameterResponse) :: questions, seg =>
    if seg.availableParameters &&& bit ≠ 0 then
      if affirmative parameterResponse then
        askParameters questions
          { seg with requestedParameters := seg.requestedParameters ||| bit }
      else askParameters questions seg
    else askParameters questions seg

def dialogue (a : Answers) (seg : Shmseg) : Shmseg × Bool :=
  let seg := askParameters a.questions seg
  match a.reqCycleIntervalMs with
  | none => (seg, false)
  | some ms =>
    if ms ≤ 0 then (seg, false)
    else ({ seg with communicationCycleUs := communicationCycleUs ms }, true)

def automaticParameters : List (ℕ × Char) :=
  [(stringParameterBit, '0'), (intParameterBit, '1'), (boolParameterBit, '0')]

def automaticSettings (seg : Shmseg) : Shmseg :=
  { seg with
    requestedParameters := automaticParameters.foldl
      (fun requested q ↦ if q.2 = '1' then requested ||| q.1 else requested)
      seg.requestedParameters
    communicationCycleUs := 500 * 1000 }

inductive Command
  | startSlaveCycle (slavePid : Pid) (answers : Answers)
  | automaticTest

def execute (seg : Idx → Shmseg) : Command → Idx → Shmseg
  | .startSlaveCycle slavePid answers =>
    if slavePid ∈ notStarted seg then
      match getAssignedShmsegIdx seg slavePid with
      | some i => update seg i (dialogue answers (seg i)).1
      | none => seg
    else seg
  | .automaticTest => fun i ↦ if (seg i).isConnected then automaticSettings (seg i) else seg i

def Addresses (seg : Idx → Shmseg) (i : Idx) : Command → Prop
  | .startSlaveCycle slavePid _ =>
    slavePid ∈ notStarted seg ∧ getAssignedShmsegIdx seg slavePid = some i
  | .automaticTest => (seg i).isConnected = true

/-- What becomes of the START for a slot: whether `kill` succeeds, whether the master
passes it on, and whether the slave finds its cycle running. -/
structure Fate where
  killed : Bool
  forwarded : Bool
  running : Bool

def affirmed (available : ℕ) (questions : List (ℕ × Char)) : List ℕ :=
  (questions.filter fun q ↦ available &&& q.1 ≠ 0 ∧ affirmative q.2).map Prod.fst

section Questions

variable {available bit : ℕ} {questions : List (ℕ × Char)} {c : Char}

theorem affirmed_skipped (h : ¬ (available &&& bit ≠ 0 ∧ affirmative c = true)) :
    affirmed available ((bit, c) :: questions) = affirmed available questions := by
  rw [affirmed, List.filter_cons_of_neg (by simpa using h), ← affirmed]

theorem affirmed_added (h : available &&& bit ≠ 0 ∧ affirmative c = true) :
    affirmed available ((bit, c) :: questions) = bit :: affirmed available questions := by
  rw [affirmed, List.filter_cons_of_pos (by simpa using h), List.map_cons, ← affirmed]

end Questions

theorem askParameters_spec (questions : List (ℕ × Char)) (seg : Shmseg) :
    askParameters questions seg = { seg with requestedParameters :=
      (affirmed seg.availableParameters questions).foldl (· ||| ·) seg.requestedParameters } := by
  induction questions generalizing seg with
  | nil => rfl
  | cons q questions ih =>
    obtain ⟨bit, c⟩ := q
    unfold askParameters
    by_cases hasked : seg.availableParameters &&& bit ≠ 0
    · rw [if_pos hasked]
      by_cases hc : affirmative c = true
      · rw [if_pos hc, ih, affirmed_added ⟨hasked, hc⟩]
        rfl
      · rw [if_neg hc, ih, affirmed_skipped fun h ↦ hc h.2]
    · rw [if_neg hasked, ih, affirmed_skipped fun h ↦ hasked h.1]

theorem testBit_foldl_or (bits : List ℕ) (n k : ℕ) :
    (bits.foldl (· ||| ·) n).testBit k = (n.testBit k || bits.any fun bit ↦ bit.testBit k) := by
  induction bits generalizing n with
  | nil => simp
  | cons bit bits ih => rw [List.foldl_cons, ih, Nat.testBit_or, List.any_cons, Bool.or_assoc]

theorem foldl_or_eq_self {bits : List ℕ} {n : ℕ} :
    bits.foldl (· ||| ·) n = n ↔ ∀ bit ∈ bits, n &&& bit = bit := by
  constructor
  · intro h bit hbit
    rw [Nat.and_comm]
    refine and_eq_left fun k hk ↦ ?_
    have hfold := testBit_foldl_or bits n k
    have hany : (bits.any fun bit ↦ bit.testBit k) = true := List.any_eq_true.mpr ⟨bit, hbit, hk⟩
    rw [h, hany, Bool.or_true] at hfold
    exact hfold
  · intro h
    refine Nat.eq_of_testBit_eq fun k ↦ ?_
    rw [testBit_foldl_or]
    cases hn : n.testBit k with
    | true => rfl
    | false =>
      rw [Bool.false_or, List.any_eq_false]
      intro bit hbit hk
      have hand := congrArg (Nat.testBit · k) (h bit hbit)
      simp only [Nat.testBit_and, hn, Bool.false_and, hk] at hand
      exact Bool.false_ne_true hand

def Completed (a : Answers) : Prop := ∃ ms ∈ a.reqCycleIntervalMs, 0 < ms

def requestedAfter (a : Answers) (seg : Shmseg) : ℕ :=
  (affirmed seg.availableParameters a.questions).foldl (· ||| ·) seg.requestedParameters

theorem dialogue_completed {a : Answers} {seg : Shmseg} {ms : Int}
    (hms : ms ∈ a.reqCycleIntervalMs) (hpos : 0 < ms) :
    dialogue a seg = ({ seg with
      requestedParameters := requestedAfter a seg
      communicationCycleUs := communicationCycleUs ms }, true) := by
  unfold dialogue
  rw [askParameters_spec, Option.mem_def.mp hms]
  exact if_neg (not_le.mpr hpos)

theorem dialogue_ended {a : Answers} {seg : Shmseg} (h : ¬ Completed a) :
    dialogue a seg = ({ seg with requestedParameters := requestedAfter a seg }, false) := by
  unfold dialogue
  rw [askParameters_spec]
  cases hms : a.reqCycleIntervalMs with
  | none => rfl
  | some ms =>
    have hle : ms ≤ 0 := by
      by_contra hpos
      exact h ⟨ms, hms, not_le.mp hpos⟩
    exact if_pos hle

def SameSettings (seg seg' : Shmseg) : Prop :=
  seg'.requestedParameters = seg.requestedParameters ∧
    seg'.communicationCycleUs = seg.communicationCycleUs

/-- The answers ask for nothing new: neither a parameter nor, where they come to it,
another interval. -/
def Repeats (a : Answers) (seg : Shmseg) : Prop :=
  (∀ bit ∈ affirmed seg.availableParameters a.questions, seg.requestedParameters &&& bit = bit) ∧
    (Completed a → ∀ ms ∈ a.reqCycleIntervalMs, communicationCycleUs ms = seg.communicationCycleUs)

theorem dialogue_sameSettings {a : Answers} {seg : Shmseg} :
    SameSettings seg (dialogue a seg).1 ↔ Repeats a seg := by
  unfold SameSettings Repeats
  rw [← foldl_or_eq_self]
  by_cases hcompleted : Completed a
  · obtain ⟨ms, hms, hpos⟩ := id hcompleted
    rw [dialogue_completed hms hpos, forall_prop_of_true hcompleted]
    refine and_congr_right fun _ ↦ ⟨fun heq k hk ↦ ?_, fun hall ↦ hall ms hms⟩
    rwa [Option.mem_unique hk hms]
  · rw [dialogue_ended hcompleted]
    exact and_congr_right fun _ ↦ iff_of_true rfl fun h ↦ absurd h hcompleted

theorem automaticSettings_sameSettings {seg : Shmseg} :
    SameSettings seg (automaticSettings seg) ↔
      seg.requestedParameters &&& intParameterBit = intParameterBit ∧
        seg.communicationCycleUs = 500 * 1000 := by
  have hbits : (automaticSettings seg).requestedParameters =
      [intParameterBit].foldl (· ||| ·) seg.requestedParameters := rfl
  unfold SameSettings
  rw [hbits, foldl_or_eq_self, List.forall_mem_singleton]
  exact and_congr_right fun _ ↦ eq_comm

def Effective (seg : Idx → Shmseg) (command : Command) (fate : Idx → Fate) (i : Idx) : Prop :=
  (match command with
    | .startSlaveCycle _ answers => Addresses seg i command ∧ Completed answers
    | .automaticTest => Addresses seg i command) ∧
  (fate i).killed = true ∧ (fate i).forwarded = true ∧ (fate i).running = false

/-- A slot whose START does not take effect keeps its settings. -/
def RefusalKeeps (seg : Idx → Shmseg) (command : Command) (fate : Idx → Fate) : Prop :=
  ∀ i, ¬ Effective seg command fate i → SameSettings (seg i) (execute seg command i)

def BringsNothing (seg : Idx → Shmseg) (i : Idx) : Command → Prop
  | .startSlaveCycle slavePid answers =>
    Addresses seg i (.startSlaveCycle slavePid answers) → Repeats answers (seg i)
  | .automaticTest => Addresses seg i .automaticTest →
    (seg i).requestedParameters &&& intParameterBit = intParameterBit ∧
      (seg i).communicationCycleUs = 500 * 1000

theorem execute_sameSettings {seg : Idx → Shmseg} {command : Command} {i : Idx} :
    SameSettings (seg i) (execute seg command i) ↔ BringsNothing seg i command := by
  cases command with
  | automaticTest =>
    unfold execute BringsNothing Addresses
    dsimp only
    split_ifs with hconnected
    · rw [automaticSettings_sameSettings, forall_prop_of_true hconnected]
    · exact iff_of_true ⟨rfl, rfl⟩ fun h ↦ absurd h hconnected
  | startSlaveCycle slavePid answers =>
    unfold execute BringsNothing Addresses
    dsimp only
    by_cases hlisted : slavePid ∈ notStarted seg
    · rw [if_pos hlisted]
      cases hslot : getAssignedShmsegIdx seg slavePid with
      | none => exact iff_of_true ⟨rfl, rfl⟩ fun h ↦ absurd h.2 (Option.some_ne_none i).symm
      | some j =>
        dsimp only
        rcases eq_or_ne i j with rfl | hne
        · rw [update_self, dialogue_sameSettings, forall_prop_of_true ⟨hlisted, rfl⟩]
        · rw [update_of_ne hne]
          exact iff_of_true ⟨rfl, rfl⟩ fun h ↦ absurd (Option.some.inj h.2).symm hne
    · rw [if_neg hlisted]
      exact iff_of_true ⟨rfl, rfl⟩ fun h ↦ absurd h.1 hlisted

theorem refusalKeeps_iff {seg : Idx → Shmseg} {command : Command} {fate : Idx → Fate} :
    RefusalKeeps seg command fate ↔
      ∀ i, Effective seg command fate i ∨ BringsNothing seg i command := by
  refine forall_congr' fun i ↦ ?_
  rw [execute_sameSettings, or_iff_not_imp_left]

/-- A slave that cycles every second gets the half second of AUTOMATIC_TEST, whose START
it refuses. -/
theorem running_cycle_retimed :
    ¬ ∀ s, Reaches (step fun _ ↦ 7) unrestricted initial s → ∀ command fate,
      (∀ i, (fate i).running = (s.seg i).cycleStarted) → RefusalKeeps s.seg command fate := by
  intro hall
  have hrun : (run (step fun _ ↦ 7) initial (connected ++ start 'y' 'n' 'n')).map
      (fun s ↦ ((s.seg 4).isConnected, (s.seg 4).cycleStarted, (s.seg 4).communicationCycleUs)) =
      some (true, true, 1000000) := by
    decide +kernel
  obtain ⟨s, hs, hview⟩ := Option.map_eq_some_iff.mp hrun
  simp only [Prod.mk.injEq] at hview
  have hkeeps := hall s (.of_unrestricted_run hs) .automaticTest
    (fun i ↦ ⟨true, true, (s.seg i).cycleStarted⟩) (fun _ ↦ rfl) 4
    fun heffective ↦ by simp [Effective, hview.2.1] at heffective
  have hperiod := (execute_sameSettings.mp hkeeps hview.1).2
  rw [hview.2.2] at hperiod
  exact absurd hperiod (by decide)

section Steps

variable {offers : Pid → ℕ} {s : State} {i : Idx}

theorem question_run {n bit answered : ℕ} {c : Char} (hbit : parameterBits[n]? = some bit)
    (hdialogue : s.dialogue = some ⟨i, n, false, answered⟩) :
    ∃ es t answered', run (step offers) s es = some t ∧
      t.dialogue = some ⟨i, n + 1, false, answered'⟩ ∧
      t.seg = update s.seg i (askParameters [(bit, c)] (s.seg i)) := by
  by_cases hasked : (s.seg i).availableParameters &&& bit = 0
  · refine ⟨[.ask], { s with dialogue := some ⟨i, n + 1, false, answered⟩ }, answered, ?_, rfl, ?_⟩
    · simp [run, step, ask, hdialogue, hbit, hasked, Dialogue.next]
    · simp [askParameters, hasked]
  · by_cases hc : affirmative c = true
    · refine ⟨[.ask, .reply c], { s with
        seg := update s.seg i { s.seg i with
          requestedParameters := (s.seg i).requestedParameters ||| bit }
        dialogue := some ⟨i, n + 1, false, answered ||| bit⟩ }, answered ||| bit, ?_, rfl, ?_⟩
      · simp [run, step, ask, reply, hdialogue, hbit, hasked, hc, Dialogue.next]
      · simp [askParameters, hasked, hc]
    · refine ⟨[.ask, .reply c], { s with dialogue := some ⟨i, n + 1, false, answered⟩ }, answered,
        ?_, rfl, ?_⟩
      · simp [run, step, ask, reply, hdialogue, hbit, hasked, hc, Dialogue.next]
      · simp [askParameters, hasked, hc]

theorem askParameters_cons (q : ℕ × Char) (questions : List (ℕ × Char)) (seg : Shmseg) :
    askParameters (q :: questions) seg = askParameters questions (askParameters [q] seg) := by
  obtain ⟨bit, c⟩ := q
  simp only [askParameters]
  split_ifs <;> rfl

/-- The questions from the `n`-th on. The induction is on the questions that are left. -/
theorem questions_run {n answered : ℕ} {questions : List (ℕ × Char)}
    (hbits : parameterBits.drop n = questions.map Prod.fst)
    (hlength : n + questions.length = parameterBits.length)
    (hdialogue : s.dialogue = some ⟨i, n, false, answered⟩) :
    ∃ es t answered', run (step offers) s es = some t ∧
      t.dialogue = some ⟨i, parameterBits.length, false, answered'⟩ ∧
      t.seg = update s.seg i (askParameters questions (s.seg i)) := by
  induction questions generalizing n answered s with
  | nil =>
    obtain rfl : n = parameterBits.length := hlength
    exact ⟨[], s, answered, rfl, hdialogue, (update_eq_self i s.seg).symm⟩
  | cons q questions ih =>
    have hbit : parameterBits[n]? = some q.1 := by
      have hhead := congrArg (·[0]?) hbits
      simpa only [List.getElem?_drop, Nat.add_zero, List.map_cons, List.getElem?_cons_zero]
        using hhead
    have hrest : parameterBits.drop (n + 1) = questions.map Prod.fst := by
      have htail := congrArg List.tail hbits
      simpa only [List.tail_drop, List.map_cons, List.tail_cons] using htail
    obtain ⟨es, t, answered₁, hrun, ht, hseg⟩ := question_run (c := q.2) hbit hdialogue
    have hslot : t.seg i = askParameters [q] (s.seg i) := by
      rw [hseg, update_self]
    obtain ⟨es', u, answered₂, hrun', hu, hseg'⟩ :=
      ih hrest (by rw [← hlength, List.length_cons]; omega) ht
    refine ⟨es ++ es', u, answered₂, ?_, hu, ?_⟩
    · rw [run_append, hrun]
      exact hrun'
    · rw [hseg', hslot, hseg, update_idem, ← askParameters_cons]

theorem interval_run {a : Answers} {answered : ℕ} {seg : Shmseg} (killed : Bool)
    (hdialogue : s.dialogue = some ⟨i, parameterBits.length, false, answered⟩)
    (hseg : s.seg i = askParameters a.questions seg) :
    ∃ t, interval a.reqCycleIntervalMs killed s = some t ∧ t.dialogue = none ∧
      t.seg = update s.seg i (dialogue a seg).1 := by
  unfold interval dialogue
  rw [hdialogue, ← hseg]
  dsimp only
  rw [if_pos rfl]
  cases a.reqCycleIntervalMs with
  | none => exact ⟨_, rfl, rfl, (update_eq_self i s.seg).symm⟩
  | some ms =>
    dsimp only
    by_cases hpos : ms ≤ 0
    · rw [if_pos hpos, if_pos hpos]
      exact ⟨_, rfl, rfl, (update_eq_self i s.seg).symm⟩
    · rw [if_neg hpos, if_neg hpos]
      refine ⟨_, rfl, ?_, ?_⟩
      · cases killed <;> rfl
      · cases killed <;> rfl

/-- A dialogue leaves in the dialogue model the segments that `execute` computes. -/
theorem dialogue_run {slavePid : Pid} {a : Answers} (killed : Bool)
    (hlisted : slavePid ∈ notStarted s.seg)
    (hslot : getAssignedShmsegIdx s.seg slavePid = some i) (hnone : s.dialogue = none) :
    ∃ es t, run (step offers) s es = some t ∧ t.dialogue = none ∧
      t.seg = execute s.seg (.startSlaveCycle slavePid a) := by
  have hopen : step offers s (.startSlaveCycle slavePid) =
      some { s with dialogue := some ⟨i, 0, false, 0⟩ } := by
    simp [step, startSlaveCycle, hnone, hlisted, hslot]
  have hbits : parameterBits.drop 0 = a.questions.map Prod.fst := rfl
  obtain ⟨es, t, answered, hrun, ht, hseg⟩ : ∃ es t answered,
      run (step offers) { s with dialogue := some ⟨i, 0, false, 0⟩ } es = some t ∧
        t.dialogue = some ⟨i, parameterBits.length, false, answered⟩ ∧
        t.seg = update s.seg i (askParameters a.questions (s.seg i)) :=
    questions_run hbits rfl rfl
  have hcell : t.seg i = askParameters a.questions (s.seg i) := by
    rw [hseg, update_self]
  obtain ⟨u, hu, hclosed, hlast⟩ := interval_run killed ht hcell
  refine ⟨.startSlaveCycle slavePid :: (es ++ [.interval a.reqCycleIntervalMs killed]), u, ?_,
    hclosed, ?_⟩
  · rw [run, hopen, Option.bind_some, run_append, hrun, Option.bind_some]
    exact Option.bind_eq_some_iff.mpr ⟨u, hu, rfl⟩
  · rw [hlast, hseg, update_idem]
    simp only [execute, if_pos hlisted, hslot]

theorem automaticStart_seg {t : State} {killed : Bool} (h : automaticStart i killed s = some t) :
    t.seg = update s.seg i (automaticSettings (s.seg i)) := by
  obtain ⟨-, h⟩ := Option.ite_none_right_eq_some.mp h
  obtain rfl := Option.some.inj h
  cases killed <;> rfl

end Steps

end RealTimeCyclic.StartRefusal
