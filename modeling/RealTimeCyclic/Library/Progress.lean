import RealTimeCyclic.Library.Transition

namespace RealTimeCyclic.Progress

open Transition

variable {σ ε : Type*}

def Passes (step : σ → ε → Option σ) (s : σ) (es : List ε) (Goal : σ → Prop) : Prop :=
  ∃ es₁ es₂ u, es = es₁ ++ es₂ ∧ run step s es₁ = some u ∧ Goal u

/-- Away from the goal no step raises the rank, and the helpful ones lower it. -/
structure Ranked (step : σ → ε → Option σ) (Inv Goal : σ → Prop) (rank : σ → ℕ)
    (helpful : ε → Bool) : Prop where
  inv : ∀ s e t, Inv s → ¬ Goal s → step s e = some t → Inv t
  pos : ∀ s, Inv s → ¬ Goal s → 0 < rank s
  raises : ∀ s e t, Inv s → ¬ Goal s → step s e = some t → rank t ≤ rank s
  lowers : ∀ s e t, Inv s → ¬ Goal s → helpful e = true → step s e = some t → rank t < rank s

variable {step : σ → ε → Option σ} {Inv Goal : σ → Prop} {s t : σ} {e : ε} {es : List ε}

theorem Passes.here (h : Goal s) : Passes step s es Goal := ⟨[], es, s, rfl, rfl, h⟩

theorem Passes.imp {Goal' : σ → Prop} (h : Passes step s es Goal) (himp : ∀ u, Goal u → Goal' u) :
    Passes step s es Goal' := by
  obtain ⟨es₁, es₂, u, hes, hu, hgoal⟩ := h
  exact ⟨es₁, es₂, u, hes, hu, himp u hgoal⟩

theorem Passes.cons (hs : step s e = some t) (h : Passes step t es Goal) :
    Passes step s (e :: es) Goal := by
  obtain ⟨es₁, es₂, u, rfl, hu, hgoal⟩ := h
  refine ⟨e :: es₁, es₂, u, rfl, ?_, hgoal⟩
  rw [run, hs, Option.bind_some, hu]

def total (step : σ → ε → Option σ) (measure : σ → ε → ℕ) : σ → List ε → ℕ
  | _, [] => 0
  | s, e :: es => measure s e + (step s e).elim 0 fun t ↦ total step measure t es

def turnsTaken (step : σ → ε → Option σ) (turn : σ → ε → Bool) : σ → List ε → ℕ :=
  total step fun s e ↦ (turn s e).toNat

/-- Away from the goal a turn lowers the rank, and a step raises it by its cost at most. -/
structure Paced (step : σ → ε → Option σ) (Inv Goal : σ → Prop) (rank : σ → ℕ)
    (turn : σ → ε → Bool) (cost : σ → ε → ℕ) : Prop where
  inv : ∀ s e t, Inv s → ¬ Goal s → step s e = some t → Inv t
  pos : ∀ s, Inv s → ¬ Goal s → 0 < rank s
  pays : ∀ s e t, Inv s → ¬ Goal s → step s e = some t →
    rank t + (turn s e).toNat ≤ rank s + cost s e

/-- A run with as many turns as the rank of its first state and the costs of its steps
amount to passes the goal. -/
theorem Paced.passes {rank : σ → ℕ} {turn : σ → ε → Bool} {cost : σ → ε → ℕ}
    (h : Paced step Inv Goal rank turn cost) (hs : Inv s) (hrun : run step s es = some t)
    (hcount : rank s + total step cost s es ≤ turnsTaken step turn s es) :
    Passes step s es fun u ↦ Inv u ∧ Goal u := by
  induction es generalizing s with
  | nil =>
    by_cases hgoal : Goal s
    · exact .here ⟨hs, hgoal⟩
    · have hpos := h.pos s hs hgoal
      simp only [turnsTaken, total] at hcount
      omega
  | cons e es ih =>
    by_cases hgoal : Goal s
    · exact .here ⟨hs, hgoal⟩
    · obtain ⟨u, hu, hrest⟩ := Option.bind_eq_some_iff.mp hrun
      refine .cons hu (ih (h.inv s e u hs hgoal hu) hrest ?_)
      have hpays := h.pays s e u hs hgoal hu
      simp only [turnsTaken, total, hu, Option.elim_some] at hcount ⊢
      omega

theorem total_zero : total step (fun _ _ ↦ 0) s es = 0 := by
  induction es generalizing s with
  | nil => rfl
  | cons e es ih => cases hs : step s e <;> simp [total, hs, ih]

theorem turnsTaken_eq_countP {helpful : ε → Bool} (hrun : run step s es = some t) :
    turnsTaken step (fun _ ↦ helpful) s es = es.countP helpful := by
  induction es generalizing s with
  | nil => rfl
  | cons e es ih =>
    obtain ⟨u, hu, hrest⟩ := Option.bind_eq_some_iff.mp hrun
    have hrec := ih hrest
    simp only [turnsTaken, total, hu, Option.elim_some] at hrec ⊢
    rw [hrec, List.countP_cons, Nat.add_comm]
    cases helpful e <;> rfl

theorem Ranked.paced {rank : σ → ℕ} {helpful : ε → Bool}
    (h : Ranked step Inv Goal rank helpful) :
    Paced step Inv Goal rank (fun _ ↦ helpful) fun _ _ ↦ 0 where
  inv := h.inv
  pos := h.pos
  pays s e t hs hgoal hst := by
    cases hhelpful : helpful e with
    | false => exact h.raises s e t hs hgoal hst
    | true => exact h.lowers s e t hs hgoal hhelpful hst

/-- A run with as many helpful steps as the rank of its first state passes the goal,
whatever else happens in it. -/
theorem Ranked.passes {rank : σ → ℕ} {helpful : ε → Bool}
    (h : Ranked step Inv Goal rank helpful) (hs : Inv s) (hrun : run step s es = some t)
    (hcount : rank s ≤ es.countP helpful) : Passes step s es fun u ↦ Inv u ∧ Goal u := by
  apply h.paced.passes hs hrun
  rw [total_zero, turnsTaken_eq_countP hrun]
  exact hcount

end RealTimeCyclic.Progress
