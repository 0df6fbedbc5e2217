import Mathlib.Data.List.Basic
import Mathlib.Tactic.Common

namespace RealTimeCyclic.Transition

variable {σ ε : Type*}

/-- Replay a schedule. The run is undefined at the first event that is not
enabled. -/
def run (step : σ → ε → Option σ) : σ → List ε → Option σ
  | s, [] => some s
  | s, e :: es => (step s e).bind fun t ↦ run step t es

theorem run_append (step : σ → ε → Option σ) (s : σ) (es es' : List ε) :
    run step s (es ++ es') = (run step s es).bind fun t ↦ run step t es' := by
  induction es generalizing s with
  | nil => rfl
  | cons e es ih =>
    rw [List.cons_append, run, run, Option.bind_assoc]
    exact Option.bind_congr fun t _ ↦ ih t

/-- The states reached from `s₀` by runs all of whose steps satisfy `ok` in
the state before them. -/
inductive Reaches (step : σ → ε → Option σ) (ok : σ → ε → Prop) (s₀ : σ) : σ → Prop
  | start : Reaches step ok s₀ s₀
  | next {s t : σ} {e : ε} :
      Reaches step ok s₀ s → ok s e → step s e = some t → Reaches step ok s₀ t

/-- Every step is admitted. -/
def unrestricted (_ : σ) (_ : ε) : Prop := True

variable {step : σ → ε → Option σ} {ok ok' : σ → ε → Prop} {s₀ s t : σ}

theorem Reaches.trans (h : Reaches step ok s₀ s) (h' : Reaches step ok s t) :
    Reaches step ok s₀ t := by
  induction h' with
  | start => exact h
  | next _ hok hs ih => exact .next ih hok hs

/-- The induction over runs: a property of the initial state that every
admitted step keeps holds in every state reached. -/
theorem Reaches.invariant {Inv : σ → Prop} (h : Reaches step ok s₀ s) (h₀ : Inv s₀)
    (hstep : ∀ s e t, Inv s → ok s e → step s e = some t → Inv t) : Inv s := by
  induction h with
  | start => exact h₀
  | next _ hok hs ih => exact hstep _ _ _ ih hok hs

/-- An invariant that is preserved only together with one already known. -/
theorem Reaches.layered {Inv Inv' : σ → Prop} (h : Reaches step ok s₀ s) (h₀ : Inv s₀)
    (h₀' : Inv' s₀) (hstep : ∀ s e t, Inv s → ok s e → step s e = some t → Inv t)
    (hstep' : ∀ s e t, Inv s → Inv' s → ok s e → step s e = some t → Inv' t) :
    Inv s ∧ Inv' s := by
  induction h with
  | start => exact ⟨h₀, h₀'⟩
  | next _ hok hs ih => exact ⟨hstep _ _ _ ih.1 hok hs, hstep' _ _ _ ih.1 ih.2 hok hs⟩

theorem Reaches.mono (h : Reaches step ok s₀ s) (hok : ∀ s e, ok s e → ok' s e) :
    Reaches step ok' s₀ s := by
  induction h with
  | start => exact .start
  | next _ hk hs ih => exact .next ih (hok _ _ hk) hs

/-- Two transition functions reach the same states when they agree on those that one of them
reaches. -/
theorem Reaches.of_agree {step' : σ → ε → Option σ} (h : Reaches step ok s₀ s)
    (hagree : ∀ s e, Reaches step' ok s₀ s → ok s e → step s e = step' s e) :
    Reaches step' ok s₀ s := by
  induction h with
  | start => exact .start
  | next _ hok hs ih => exact .next ih hok (hagree _ _ ih hok ▸ hs)

/-- The transition function cut down to the steps that satisfy `ok`. -/
def guarded (step : σ → ε → Option σ) (ok : σ → ε → Prop) [∀ s e, Decidable (ok s e)]
    (s : σ) (e : ε) : Option σ :=
  if ok s e then step s e else none

theorem Reaches.of_run [∀ s e, Decidable (ok s e)] {es : List ε}
    (h : run (guarded step ok) s es = some t) : Reaches step ok s t := by
  induction es generalizing s with
  | nil =>
    have ht : s = t := by simpa [run] using h
    exact ht ▸ .start
  | cons e es ih =>
    obtain ⟨u, hu, hrest⟩ := Option.bind_eq_some_iff.mp h
    have hg : ok s e ∧ step s e = some u := by
      simpa [guarded, Option.ite_none_right_eq_some] using hu
    exact Reaches.trans (.next .start hg.1 hg.2) (ih hrest)

theorem run_of_guarded [∀ s e, Decidable (ok s e)] {es : List ε}
    (h : run (guarded step ok) s es = some t) : run step s es = some t := by
  induction es generalizing s with
  | nil => exact h
  | cons e es ih =>
    obtain ⟨u, hu, hrest⟩ := Option.bind_eq_some_iff.mp h
    obtain ⟨-, hstep⟩ := Option.ite_none_right_eq_some.mp hu
    exact Option.bind_eq_some_iff.mpr ⟨u, hstep, ih hrest⟩

theorem Reaches.of_unrestricted_run {es : List ε} (h : run step s es = some t) :
    Reaches step unrestricted s t := by
  induction es generalizing s with
  | nil =>
    have ht : s = t := by simpa [run] using h
    exact ht ▸ .start
  | cons e es ih =>
    obtain ⟨u, hu, hrest⟩ := Option.bind_eq_some_iff.mp h
    exact Reaches.trans (.next .start trivial hu) (ih hrest)

section Broken

variable {es : List ε}

theorem run_broken {Inv Broken : σ → Prop} (hinv : ∀ s e t, Inv s → step s e = some t → Inv t)
    (hbroken : ∀ s e t, Inv s → Broken s → step s e = some t → Broken t) (h : Inv s)
    (hs : Broken s) (hrun : run step s es = some t) : Broken t := by
  induction es generalizing s with
  | nil => exact Option.some.inj hrun ▸ hs
  | cons e es ih =>
    obtain ⟨u, hu, hrest⟩ := Option.bind_eq_some_iff.mp hrun
    exact ih (hinv _ _ _ h hu) (hbroken _ _ _ h hs hu) hrest

/-- A property that every step within `ok` keeps and every other one breaks for good holds
after a run if and only if all steps of the run are within `ok`. -/
theorem run_guarded_iff [∀ s e, Decidable (ok s e)] (Inv Good Broken : σ → Prop)
    (hinv : ∀ s e t, Inv s → step s e = some t → Inv t)
    (hkept : ∀ s e t, Inv s → Good s → ok s e → step s e = some t → Good t)
    (hbreak : ∀ s e t, Inv s → Good s → ¬ ok s e → step s e = some t → Broken t)
    (hbroken : ∀ s e t, Inv s → Broken s → step s e = some t → Broken t)
    (hnot : ∀ s, Broken s → ¬ Good s) (h : Inv s) (hs : Good s)
    (hrun : run step s es = some t) : Good t ↔ run (guarded step ok) s es = some t := by
  induction es generalizing s with
  | nil =>
    rw [← Option.some.inj hrun]
    exact ⟨fun _ ↦ rfl, fun _ ↦ hs⟩
  | cons e es ih =>
    obtain ⟨u, hu, hrest⟩ := Option.bind_eq_some_iff.mp hrun
    have hu' := hinv _ _ _ h hu
    by_cases hok : ok s e
    · rw [ih hu' (hkept _ _ _ h hs hok hu) hrest, run, guarded, if_pos hok, hu, Option.bind_some]
    · have ht := run_broken hinv hbroken hu' (hbreak _ _ _ h hs hok hu) hrest
      rw [run, guarded, if_neg hok, Option.bind_none]
      exact iff_of_false (hnot t ht) (by simp)

end Broken

section Observed

/-- A state and notes about the run that led to it. -/
structure Observed (σ γ : Type*) where
  state : σ
  notes : γ

variable {γ : Type*}

/-- The notes are taken before each step, and no step depends on them. -/
def observe (step : σ → ε → Option σ) (note : σ → ε → γ → γ) (o : Observed σ γ) (e : ε) :
    Option (Observed σ γ) :=
  (step o.state e).map fun t ↦ ⟨t, note o.state e o.notes⟩

variable {note : σ → ε → γ → γ} {o o' : Observed σ γ} {e : ε}

theorem observe_eq_some (h : observe step note o e = some o') :
    ∃ t, step o.state e = some t ∧ o' = ⟨t, note o.state e o.notes⟩ := by
  obtain ⟨t, ht, ho⟩ := Option.map_eq_some_iff.mp h
  exact ⟨t, ht, ho.symm⟩

theorem Reaches.observed (h : Reaches step ok s₀ s) (note : σ → ε → γ → γ) (notes : γ) :
    ∃ o : Observed σ γ, Reaches (observe step note) (fun o e ↦ ok o.state e) ⟨s₀, notes⟩ o ∧
      o.state = s := by
  induction h with
  | start => exact ⟨_, .start, rfl⟩
  | next _ hok hs ih =>
    obtain ⟨o, ho, rfl⟩ := ih
    exact ⟨_, .next ho hok (Option.map_eq_some_iff.mpr ⟨_, hs, rfl⟩), rfl⟩

end Observed

end RealTimeCyclic.Transition
