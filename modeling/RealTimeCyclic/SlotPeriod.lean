import RealTimeCyclic.SlotPermit

namespace RealTimeCyclic.SlotPeriod

open Shm Slave SlotThread Slot SlotPermit Transition

/-- What the sleeps of a slot are judged by: the number of STARTs, the period of the last one
and whether the thread has slept since, and the number of STARTs when the period behind
`sleep_us` was read. -/
structure Notes where
  starts : ℕ := 0
  periodUs : Int := 0
  slept : Bool := false
  origin : ℕ := 0

def noteServed (s : State) (n : Notes) : Notes :=
  match s.handler with
  | .startPost _ =>
    { n with starts := n.starts + 1, periodUs := s.seg.communicationCycleUs, slept := false }
  | _ => n

def noteCycled (usleep : Bool) (s : State) (n : Notes) : Notes :=
  match s.cycle with
  | .readCycle =>
    if s.sleepUs = errorNotSetCommunicationCycleMs then { n with origin := n.starts } else n
  | .usleep => if 0 < s.sleepUs ∧ usleep then { n with slept := true } else n
  | .evaluate => { n with origin := n.starts }
  | _ => n

def note (s : State) : Event → Notes → Notes
  | .handler, n => noteServed s n
  | .cycle usleep _ _, n => noteCycled usleep s n
  | _, n => n

abbrev Run := Observed State Notes

def step (pid : Pid) : Run → Event → Option Run := observe (Slot.step pid) note

def initial (name : CString.Mem) (availableParameters : ℕ) : Run :=
  ⟨Slot.initial name availableParameters, {}⟩

/-- Each sleep is judged when the thread is about to call `usleep`. -/
structure OwnPeriod (r : Run) : Prop where
  first : r.state.cycle = .usleep → 0 < r.state.sleepUs → r.notes.slept = false →
    ((Usleep.call r.state.sleepUs).usec.toNat : Int) = r.notes.periodUs
  later : r.state.cycle = .usleep → 0 < r.state.sleepUs → r.notes.slept = true →
    r.notes.origin = r.notes.starts

def carriedUs (s : State) : Int :=
  match s.cycle with
  | .store | .calculate | .postAllow | .evaluate =>
    s.seg.communicationCycleUs - s.seg.communicationCycleUs.tdiv waitMasterResponseTimeoutSegments
  | .segment cycleUs =>
    cycleUs - s.seg.communicationCycleUs.tdiv waitMasterResponseTimeoutSegments
  | .trywait cycleUs segmentUs _ | .getvalueAllow cycleUs segmentUs
  | .writeRequest cycleUs segmentUs | .kill cycleUs segmentUs => cycleUs - segmentUs
  | .withdraw cycleUs => cycleUs - 0
  | _ => s.sleepUs

/-- The thread has yet to read something for its next sleep. -/
def unread (s : State) : Bool :=
  match s.cycle with
  | .usleep => false
  | .store | .calculate | .postAllow | .evaluate | .segment _ => true
  | _ => carriedUs s = errorNotSetCommunicationCycleMs

def nextSleepUs (s : State) : Int :=
  if s.cycle ≠ .usleep ∧ carriedUs s = errorNotSetCommunicationCycleMs then
    s.seg.communicationCycleUs
  else carriedUs s

/-- The permit is there, and the thread has not slept since START and has yet to read. -/
def awaited (r : Run) : Bool := 0 < permits r.state && !r.notes.slept && unread r.state

/-- A START finds the thread going to sleep for its positive period, which a `useconds_t`
holds, and what the thread has yet to read for that is not overwritten. -/
def periodKept (r : Run) : Event → Bool
  | .handler =>
    match r.state.handler with
    | .startPost _ => 0 < r.state.seg.communicationCycleUs &&
        r.state.seg.communicationCycleUs < 2 ^ 32 &&
        nextSleepUs r.state = r.state.seg.communicationCycleUs
    | _ => true
  | .configure _ communicationCycleUs =>
    awaited r → communicationCycleUs = r.state.seg.communicationCycleUs
  | .slot _ =>
    match r.state.slot with
    | .resetMemset _ | .resetInit _ => !awaited r
    | _ => true
  | _ => true

/-- The cycle thread and its period, as the other threads leave them. -/
structure Idle (s t : State) : Prop where
  cycle : t.cycle = s.cycle
  sleep : t.sleepUs = s.sleepUs
  period : t.seg.communicationCycleUs = s.seg.communicationCycleUs

theorem Idle.carriedUs {s t : State} (h : Idle s t) : carriedUs t = carriedUs s := by
  unfold SlotPeriod.carriedUs
  rw [h.cycle, h.sleep, h.period]

theorem Idle.nextSleepUs {s t : State} (h : Idle s t) : nextSleepUs t = nextSleepUs s := by
  unfold SlotPeriod.nextSleepUs
  rw [h.carriedUs, h.cycle, h.period]

theorem nextSleepUs_read {s t : State} (hcycle : t.cycle = s.cycle) (hsleep : t.sleepUs = s.sleepUs)
    (hread : unread s = false) : nextSleepUs t = nextSleepUs s := by
  unfold unread at hread
  unfold nextSleepUs carriedUs at *
  rw [hcycle, hsleep]
  cases hpc : s.cycle <;> simp_all

theorem syncStep_idle {pid : Pid} {request : Request} {s t : State}
    (hs : syncStep pid request s = some t) : Idle s t ∧ permits t = permits s := by
  cases syncStep_move hs <;> exact ⟨⟨rfl, rfl, rfl⟩, rfl⟩

theorem deliverStep_idle {pid : Pid} {s t : State} (hs : deliverStep pid s = some t) :
    Idle s t ∧ permits t = permits s := by
  obtain ⟨toMaster, wake, rfl⟩ := deliverStep_eq_some hs
  exact ⟨⟨rfl, rfl, rfl⟩, rfl⟩

theorem step_communicationCycleUs {current : ℕ} {mustChange killed : Bool} {v v' : View}
    {effect : Effect} (h : SlotThread.step current mustChange killed v = some (v', effect)) :
    v'.seg.communicationCycleUs = v.seg.communicationCycleUs ∨
      ∃ k, v.pc = .resetMemset k ∨ v.pc = .resetInit k := by
  cases step_move h with
  | zeroed hpc => exact .inr ⟨_, .inl hpc⟩
  | initialized hpc => exact .inr ⟨_, .inr hpc⟩
  | errorsHandled hpc hseg =>
    rcases hseg with rfl | rfl
    · exact .inl rfl
    · exact .inl rfl
  | received hpc => exact .inl (receiveParameters_communicationCycleUs v.seg)
  | _ => exact .inl rfl

theorem slotStep_idle {mustChange : Bool} {s t : State} (hs : slotStep mustChange s = some t) :
    t.cycle = s.cycle ∧ t.sleepUs = s.sleepUs ∧ permits t = permits s ∧
      (t.seg.communicationCycleUs = s.seg.communicationCycleUs ∨
        ∃ k, s.slot = .resetMemset k ∨ s.slot = .resetInit k) := by
  obtain ⟨v, effect, hstep, rfl⟩ := slotStep_eq_some hs
  refine ⟨State.effect_cycle _ _, State.effect_sleepUs _ _, by simp [permits], ?_⟩
  rw [State.effect_seg]
  exact step_communicationCycleUs hstep

theorem serve_period {s : State} {self : SlaveContext} {seg : Shmseg} {pc : HandlerPc}
    (h : Serve s self seg pc) : seg.communicationCycleUs = s.seg.communicationCycleUs := by
  cases h with
  | alreadyStarted | alreadyStopped | unrecognized => exact setError_communicationCycleUs _ _
  | changeName => exact handleChangeName_communicationCycleUs _ _
  | _ => rfl

theorem serve_allow {s : State} {self : SlaveContext} {seg : Shmseg} {pc : HandlerPc}
    (h : Serve s self seg pc) (hpc : ∀ k, s.handler ≠ .startPost k) :
    self.allowCommunicationCycle ≤ s.self.allowCommunicationCycle := by
  cases h with
  | startPosted hstart => exact absurd hstart (hpc _)
  | stopped => exact Nat.sub_le _ _
  | changeName => exact (handleChangeName_allow _ _).le
  | _ => exact Nat.le_refl _

theorem handlerStep_idle {pid : Pid} {s t : State} (hs : handlerStep pid s = some t) :
    Idle s t := by
  cases handlerStep_move hs with
  | served hserve => exact ⟨rfl, rfl, serve_period hserve⟩
  | _ => exact ⟨rfl, rfl, rfl⟩

theorem handlerStep_permits {pid : Pid} {s t : State} (hs : handlerStep pid s = some t)
    (hpc : ∀ k, s.handler ≠ .startPost k) : permits t ≤ permits s := by
  cases handlerStep_move hs with
  | served hserve => exact Nat.add_le_add_right (serve_allow hserve hpc) _
  | _ => exact Nat.le_refl _

theorem cycleStep_next {usleep : Bool} {rand : ℕ} {now : Timeval} {s t : State}
    (hs : cycleStep usleep rand now s = some t) (hpermit : 0 < permits s)
    (hpc : s.cycle ≠ .usleep) : nextSleepUs t = nextSleepUs s := by
  have hderef {u : State} (hu : s.deref u = some t) (hnext : nextSleepUs u = nextSleepUs s) :
      nextSleepUs t = nextSleepUs s := by
    obtain ⟨-, rfl⟩ | ⟨-, rfl⟩ := State.deref_cases hu
    · exact hnext
    · exact Idle.nextSleepUs ⟨rfl, rfl, rfl⟩
  simp only [cycleStep] at hs
  cases hcycle : s.cycle with
  | usleep => exact absurd hcycle hpc
  | semWaitAllow =>
    simp only [hcycle] at hs
    split_ifs at hs
    obtain rfl := Option.some.inj hs
    simp [nextSleepUs, carriedUs, hcycle]
  | readCycle =>
    simp only [hcycle] at hs
    refine hderef hs ?_
    simp [nextSleepUs, carriedUs, hcycle]
  | store =>
    simp only [hcycle] at hs
    refine hderef hs ?_
    simp [nextSleepUs, carriedUs, hcycle, storeParameters_communicationCycleUs]
  | calculate =>
    simp only [hcycle] at hs
    refine hderef hs ?_
    simp [nextSleepUs, carriedUs, hcycle, calculate_communicationCycleUs]
  | postAllow =>
    simp only [hcycle] at hs
    obtain rfl := Option.some.inj hs
    simp [nextSleepUs, carriedUs, hcycle]
  | evaluate =>
    simp only [hcycle] at hs
    refine hderef hs ?_
    simp [nextSleepUs, carriedUs, hcycle]
  | segment cycleUs =>
    simp only [hcycle] at hs
    refine hderef hs ?_
    simp [nextSleepUs, carriedUs, hcycle]
  | trywait cycleUs segmentUs threshold =>
    simp only [hcycle] at hs
    refine hderef hs ?_
    split_ifs <;> simp [nextSleepUs, carriedUs, hcycle]
  | getvalueAllow cycleUs segmentUs =>
    -- the permit is there, so no STOP is found
    have hallow : s.self.allowCommunicationCycle ≠ 0 := by
      simp only [permits, hcycle, heldPermits] at hpermit
      omega
    simp only [hcycle, if_neg hallow] at hs
    obtain rfl := Option.some.inj hs
    simp [nextSleepUs, carriedUs, hcycle]
  | withdraw cycleUs =>
    simp only [hcycle] at hs
    refine hderef hs ?_
    simp [nextSleepUs, carriedUs, hcycle]
  | writeRequest cycleUs segmentUs =>
    simp only [hcycle] at hs
    refine hderef hs ?_
    simp [nextSleepUs, carriedUs, hcycle]
  | kill cycleUs segmentUs =>
    simp only [hcycle] at hs
    obtain rfl := Option.some.inj hs
    simp [nextSleepUs, carriedUs, hcycle]

theorem usleep_cases {usleep : Bool} {rand : ℕ} {now : Timeval} {s t : State}
    (hs : cycleStep usleep rand now s = some t) (hpc : s.cycle = .usleep) :
    (0 < s.sleepUs ∧ usleep = false ∧ ∃ slept,
      t = { s with
        history.slept := slept
        seg := setError ⟨"usleep() failed!", none⟩ s.seg
        cycle := .semWaitAllow } ∨
      t = { s with history.slept := slept, alive := false }) ∨
    (0 < s.sleepUs → usleep = true) ∧ ∃ slept,
      t = { s with history.slept := slept, cycle := .store } := by
  simp only [cycleStep, hpc] at hs
  split_ifs at hs with hpos husleep
  · exact .inr ⟨fun _ ↦ husleep, _, (Option.some.inj hs).symm⟩
  · refine .inl ⟨hpos, by simpa using husleep, ?_⟩
    obtain ⟨-, rfl⟩ | ⟨-, rfl⟩ := State.deref_cases hs
    · exact ⟨_, .inl rfl⟩
    · exact ⟨_, .inr rfl⟩
  · exact .inr ⟨fun h ↦ absurd h hpos, s.history.slept, (Option.some.inj hs).symm⟩

def pastSleep : CyclePc → Bool
  | .store | .calculate | .postAllow | .evaluate => true
  | _ => false

theorem cycleStep_pastSleep {usleep : Bool} {rand : ℕ} {now : Timeval} {s t : State}
    (hs : cycleStep usleep rand now s = some t) (hpast : pastSleep s.cycle = true)
    (hpc : s.cycle ≠ .evaluate) : pastSleep t.cycle = true := by
  cases cycleStep_move hs with
  | crashed => exact hpast
  | stored | calculated | permitPosted => rfl
  | evaluated h => exact absurd h hpc
  | permitTaken h | cycleRead h | usleepFailed h | slept h | segmented h | requestTaken h
  | gaveUp h | waited h | stopFound h | permitFound h | withdrawn h | requestWritten h
  | signalled h =>
    rw [h] at hpast
    cases hpast

theorem served_of_ne {s : State} {n : Notes} (h : ∀ k, s.handler ≠ .startPost k) :
    noteServed s n = n := by
  unfold noteServed
  split
  · exact absurd ‹_› (h _)
  · rfl

theorem cycled_of_ne (usleep : Bool) {s : State} (n : Notes) (hpc : s.cycle ≠ .usleep) :
    (noteCycled usleep s n).starts = n.starts ∧ (noteCycled usleep s n).periodUs = n.periodUs ∧
      (noteCycled usleep s n).slept = n.slept ∧
      ((noteCycled usleep s n).origin = n.starts ∨
        (noteCycled usleep s n).origin = n.origin ∧ s.cycle ≠ .evaluate) := by
  unfold noteCycled
  split
  · split_ifs
    · exact ⟨rfl, rfl, rfl, .inl rfl⟩
    · exact ⟨rfl, rfl, rfl, .inr ⟨rfl, by simp [*]⟩⟩
  · exact absurd ‹_› hpc
  · exact ⟨rfl, rfl, rfl, .inl rfl⟩
  · exact ⟨rfl, rfl, rfl, .inr ⟨rfl, ‹_›⟩⟩

theorem cycled_of_failed {s : State} {n : Notes} (hpc : s.cycle = .usleep) :
    noteCycled false s n = n := by
  simp [noteCycled, hpc]

def LaterInv (r : Run) : Prop :=
  r.notes.slept = true → pastSleep r.state.cycle = true ∨ r.notes.origin = r.notes.starts

theorem LaterInv.keep {r : Run} {t : State} (h : LaterInv r) (hcycle : t.cycle = r.state.cycle) :
    LaterInv ⟨t, r.notes⟩ := by
  intro hslept
  dsimp only
  rw [hcycle]
  exact h hslept

theorem LaterInv.served {pid : Pid} {r : Run} {t : State} (h : LaterInv r)
    (hs : handlerStep pid r.state = some t) : LaterInv ⟨t, noteServed r.state r.notes⟩ := by
  by_cases hstart : ∃ k, r.state.handler = .startPost k
  · obtain ⟨k, hk⟩ := hstart
    simp only [noteServed, hk]
    exact nofun
  · rw [served_of_ne fun k hk ↦ hstart ⟨k, hk⟩]
    exact h.keep (handlerStep_idle hs).cycle

theorem LaterInv.cycled {usleep : Bool} {rand : ℕ} {now : Timeval} {r : Run} {t : State}
    (h : LaterInv r) (hs : cycleStep usleep rand now r.state = some t) :
    LaterInv ⟨t, noteCycled usleep r.state r.notes⟩ := by
  by_cases hpc : r.state.cycle = .usleep
  · obtain ⟨-, rfl, slept, rfl | rfl⟩ | ⟨-, slept, rfl⟩ := usleep_cases hs hpc
    · rw [cycled_of_failed hpc]
      intro hslept
      rcases h hslept with hpast | horigin
      · rw [hpc] at hpast
        cases hpast
      · exact .inr horigin
    · rw [cycled_of_failed hpc]
      exact h.keep rfl
    · exact fun _ ↦ .inl rfl
  · obtain ⟨hstarts, -, hslept, horigin⟩ := cycled_of_ne usleep r.notes hpc
    intro hdone
    dsimp only at hdone ⊢
    rw [hslept] at hdone
    rw [hstarts]
    rcases horigin with hread | ⟨hkept, hevaluate⟩
    · exact .inr hread
    · rw [hkept]
      exact (h hdone).imp_left fun hpast ↦ cycleStep_pastSleep hs hpast hevaluate

theorem step_later {pid : Pid} {r r' : Run} {e : Event} (h : LaterInv r)
    (hs : step pid r e = some r') : LaterInv r' := by
  obtain ⟨t, ht, rfl⟩ := observe_eq_some hs
  cases e with
  | configure requestedParameters communicationCycleUs =>
    obtain rfl := Option.some.inj ht
    exact h.keep rfl
  | sync request => exact h.keep (syncStep_idle ht).1.cycle
  | slot mustChange => exact h.keep (slotStep_idle ht).1
  | deliver => exact h.keep (deliverStep_idle ht).1.cycle
  | handler =>
    obtain ⟨-, ht⟩ := Option.ite_none_right_eq_some.mp ht
    exact h.served ht
  | cycle usleep rand now =>
    obtain ⟨-, ht⟩ := Option.ite_none_right_eq_some.mp ht
    exact h.cycled ht

def FirstInv (r : Run) : Prop :=
  0 < permits r.state → r.notes.slept = false →
    0 < r.notes.periodUs ∧ r.notes.periodUs < 2 ^ 32 ∧ nextSleepUs r.state = r.notes.periodUs

theorem nextSleepUs_usleep {s : State} (hpc : s.cycle = .usleep) : nextSleepUs s = s.sleepUs := by
  rw [nextSleepUs, carriedUs, hpc, if_neg (by simp)]

theorem ownPeriod_of_inv {r : Run} (hfirst : FirstInv r) (hlater : LaterInv r) : OwnPeriod r := by
  constructor
  · intro hpc hpos hslept
    have hpermit : 0 < permits r.state := by
      simp only [permits, hpc, heldPermits]
      omega
    obtain ⟨hpositive, hlt, hnext⟩ := hfirst hpermit hslept
    rw [← nextSleepUs_usleep hpc, hnext]
    exact Usleep.call_usec hpositive.le hlt
  · intro hpc hpos hslept
    rcases hlater hslept with hpast | horigin
    · rw [hpc] at hpast
      cases hpast
    · exact horigin

theorem FirstInv.keep {r : Run} {t : State} (h : FirstInv r)
    (hpermits : permits t ≤ permits r.state)
    (hnext : 0 < permits r.state → r.notes.slept = false → nextSleepUs t = nextSleepUs r.state) :
    FirstInv ⟨t, r.notes⟩ := by
  intro hpermit hslept
  have hbefore : 0 < permits r.state := hpermit.trans_le hpermits
  obtain ⟨hpositive, hlt, hsame⟩ := h hbefore hslept
  exact ⟨hpositive, hlt, (hnext hbefore hslept).trans hsame⟩

/-- A write to the period that the guard admits does not reach the next sleep. -/
theorem next_of_admitted {r : Run} {t : State} (hcycle : t.cycle = r.state.cycle)
    (hsleep : t.sleepUs = r.state.sleepUs)
    (hok : awaited r = true → t.seg.communicationCycleUs = r.state.seg.communicationCycleUs)
    (hpermit : 0 < permits r.state) (hslept : r.notes.slept = false) :
    nextSleepUs t = nextSleepUs r.state := by
  cases hunread : unread r.state with
  | true =>
    have hawaited : awaited r = true := by simp [awaited, hpermit, hslept, hunread]
    exact Idle.nextSleepUs ⟨hcycle, hsleep, hok hawaited⟩
  | false => exact nextSleepUs_read hcycle hsleep hunread

theorem FirstInv.served {pid : Pid} {r : Run} {t : State} (h : FirstInv r)
    (hok : periodKept r .handler = true) (hs : handlerStep pid r.state = some t) :
    FirstInv ⟨t, noteServed r.state r.notes⟩ := by
  have hidle := handlerStep_idle hs
  by_cases hstart : ∃ k, r.state.handler = .startPost k
  · obtain ⟨k, hk⟩ := hstart
    simp only [periodKept, hk, Bool.and_eq_true, decide_eq_true_eq] at hok
    simp only [noteServed, hk]
    intro hpermit hslept
    exact ⟨hok.1.1, hok.1.2, hidle.nextSleepUs.trans hok.2⟩
  · have hother : ∀ k, r.state.handler ≠ .startPost k := by
      intro k hk
      exact hstart ⟨k, hk⟩
    rw [served_of_ne hother]
    apply h.keep (handlerStep_permits hs hother)
    intro hpermit hslept
    exact hidle.nextSleepUs

theorem next_of_failed {s t : State} (hpc : s.cycle = .usleep) (hpos : 0 < s.sleepUs)
    (hcycle : t.cycle = .semWaitAllow) (hsleep : t.sleepUs = s.sleepUs) :
    nextSleepUs t = nextSleepUs s := by
  have hset : s.sleepUs ≠ errorNotSetCommunicationCycleMs := by
    rw [errorNotSetCommunicationCycleMs]
    omega
  rw [nextSleepUs_usleep hpc, nextSleepUs, carriedUs, hcycle, hsleep]
  exact if_neg fun h ↦ hset h.2

theorem FirstInv.slept {usleep : Bool} {rand : ℕ} {now : Timeval} {r : Run} {t : State}
    (h : FirstInv r) (hpc : r.state.cycle = .usleep)
    (hs : cycleStep usleep rand now r.state = some t) :
    FirstInv ⟨t, noteCycled usleep r.state r.notes⟩ := by
  obtain ⟨hpos, rfl, slept, rfl | rfl⟩ | ⟨hdone, slept, rfl⟩ := usleep_cases hs hpc
  · rw [cycled_of_failed hpc]
    apply h.keep
    · simp only [permits, hpc, heldPermits]
      omega
    · intro hpermit hslept
      exact next_of_failed hpc hpos rfl rfl
  · rw [cycled_of_failed hpc]
    apply h.keep (Nat.le_refl _)
    intro hpermit hslept
    exact Idle.nextSleepUs ⟨rfl, rfl, rfl⟩
  · by_cases hpos : 0 < r.state.sleepUs
    · simp only [noteCycled, hpc, if_pos (And.intro hpos (hdone hpos))]
      intro hpermit hslept
      cases hslept
    · -- the period is positive, so the thread has slept since START
      simp only [noteCycled, hpc, if_neg fun hboth : 0 < r.state.sleepUs ∧ _ ↦ hpos hboth.1]
      intro hpermit hslept
      have hpermits : 0 < permits r.state := by
        simp only [permits, hpc, heldPermits]
        omega
      obtain ⟨hperiod, -, hsame⟩ := h hpermits hslept
      rw [nextSleepUs_usleep hpc] at hsame
      omega

theorem FirstInv.cycled {usleep : Bool} {rand : ℕ} {now : Timeval} {r : Run} {t : State}
    (h : FirstInv r) (hs : cycleStep usleep rand now r.state = some t) :
    FirstInv ⟨t, noteCycled usleep r.state r.notes⟩ := by
  by_cases hpc : r.state.cycle = .usleep
  · exact h.slept hpc hs
  · obtain ⟨-, hperiod, hslept, -⟩ := cycled_of_ne usleep r.notes hpc
    have hpermits : permits t = permits r.state := by
      rcases cycleStep_permits hs with hsame | ⟨hsleep, -⟩
      · exact hsame
      · exact absurd hsleep hpc
    intro hpermit hnot
    dsimp only at hpermit hnot ⊢
    rw [hpermits] at hpermit
    rw [hslept] at hnot
    rw [hperiod, cycleStep_next hs hpermit hpc]
    exact h hpermit hnot

theorem step_first {pid : Pid} {r r' : Run} {e : Event} (h : FirstInv r)
    (hok : periodKept r e = true) (hs : step pid r e = some r') : FirstInv r' := by
  obtain ⟨t, ht, rfl⟩ := observe_eq_some hs
  cases e with
  | configure requestedParameters communicationCycleUs =>
    obtain rfl := Option.some.inj ht
    refine h.keep (Nat.le_refl _) (next_of_admitted rfl rfl fun hawaited ↦ ?_)
    exact of_decide_eq_true hok hawaited
  | sync request =>
    obtain ⟨hidle, hpermits⟩ := syncStep_idle ht
    exact h.keep hpermits.le fun _ _ ↦ hidle.nextSleepUs
  | slot mustChange =>
    obtain ⟨hcycle, hsleep, hpermits, hperiod⟩ := slotStep_idle ht
    refine h.keep hpermits.le (next_of_admitted hcycle hsleep fun hawaited ↦ ?_)
    rcases hperiod with hsame | ⟨k, hpc | hpc⟩
    · exact hsame
    · simp [periodKept, hpc, hawaited] at hok
    · simp [periodKept, hpc, hawaited] at hok
  | deliver =>
    obtain ⟨hidle, hpermits⟩ := deliverStep_idle ht
    exact h.keep hpermits.le fun _ _ ↦ hidle.nextSleepUs
  | handler =>
    obtain ⟨-, ht⟩ := Option.ite_none_right_eq_some.mp ht
    exact h.served hok ht
  | cycle usleep rand now =>
    obtain ⟨-, ht⟩ := Option.ite_none_right_eq_some.mp ht
    exact h.cycled ht

theorem reaches_of_slot {pid : Pid} {name : CString.Mem} {availableParameters : ℕ} {s : State}
    (h : Reaches (Slot.step pid) unrestricted (Slot.initial name availableParameters) s) :
    ∃ r : Run, Reaches (step pid) unrestricted (initial name availableParameters) r ∧
      r.state = s :=
  h.observed note {}

/-- No sleep but the first after a START can come from an earlier period. -/
theorem later_of_reaches {pid : Pid} {name : CString.Mem} {availableParameters : ℕ} {r : Run}
    (h : Reaches (step pid) unrestricted (initial name availableParameters) r) : LaterInv r :=
  h.invariant nofun fun _ _ _ hi _ ↦ step_later hi

theorem ownPeriod_of_kept {pid : Pid} {name : CString.Mem} {availableParameters : ℕ} {r : Run}
    (h : Reaches (step pid) (fun r e ↦ periodKept r e = true)
      (initial name availableParameters) r) : OwnPeriod r := by
  have hlater := later_of_reaches (h.mono fun _ _ _ ↦ trivial)
  have hfirst : FirstInv r := h.invariant (fun hpermit ↦ absurd hpermit (lt_irrefl 0))
    fun _ _ _ ↦ step_first
  exact ownPeriod_of_inv hfirst hlater

def stopCommand : List Event :=
  List.replicate 5 (Event.sync .stopSlaveCycle) ++ List.replicate 10 Event.handler ++
    [Event.deliver] ++ List.replicate 10 (Event.slot false)

def restart (communicationCycleUs : Int) : List Event :=
  [Event.configure 7 communicationCycleUs] ++ List.replicate 6 (Event.sync .startSlaveCycle) ++
    List.replicate 9 Event.handler ++ List.replicate 2 (Event.cycle true 0 ⟨0, 0⟩)

/-- The STOP comes while the thread waits for the master, which withdraws its request. The
cycle is started again as it was. -/
def resumedCycle : List Event :=
  startRun ++ List.replicate 8 (Event.cycle true 0 ⟨0, 0⟩) ++ stopCommand ++
    List.replicate 3 (Event.cycle true 0 ⟨0, 0⟩) ++ restart 1000

theorem resumed_ownPeriod :
    ∃ r, r.notes.starts = 2 ∧ r.state.cycle = .usleep ∧ r.state.sleepUs = 1000 ∧ OwnPeriod r := by
  have hrun : (run (guarded (step 1000) fun r e ↦ periodKept r e = true) (initial [97] 7)
      resumedCycle).map (fun r ↦ (r.notes.starts, r.state.cycle, r.state.sleepUs)) =
      some (2, .usleep, 1000) := by
    decide +kernel
  obtain ⟨r, hr, hview⟩ := Option.map_eq_some_iff.mp hrun
  simp only [Prod.mk.injEq] at hview
  exact ⟨r, hview.1, hview.2.1, hview.2.2, ownPeriod_of_kept (.of_run hr)⟩

def positivePeriods (_ : Run) : Event → Bool
  | .configure _ communicationCycleUs => 0 < communicationCycleUs
  | _ => true

/-- A cycle of 1000 us is stopped between two rounds, and one of 2000 us is started. -/
theorem restart_sleeps_stale :
    ¬ ∀ r, Reaches (step 1000) (fun r e ↦ positivePeriods r e = true) (initial [97] 7) r →
      OwnPeriod r := by
  intro hall
  have hrun : (run (guarded (step 1000) fun r e ↦ positivePeriods r e = true) (initial [97] 7)
      (roundRun ++ stopCommand ++ restart 2000)).map
      (fun r ↦ (r.state.cycle, r.state.sleepUs, r.notes.slept, r.notes.periodUs)) =
      some (.usleep, 950, false, 2000) := by
    decide +kernel
  obtain ⟨r, hr, hview⟩ := Option.map_eq_some_iff.mp hrun
  simp only [Prod.mk.injEq] at hview
  obtain ⟨hpc, hsleep, hslept, hperiod⟩ := hview
  have hfirst := (hall r (.of_run hr)).first hpc (by rw [hsleep]; decide) hslept
  rw [hsleep, hperiod] at hfirst
  cases hfirst

end RealTimeCyclic.SlotPeriod
