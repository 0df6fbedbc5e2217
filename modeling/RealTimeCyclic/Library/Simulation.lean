import RealTimeCyclic.Library.Transition

namespace RealTimeCyclic.Transition

variable {σ τ ε δ : Type*} {step : σ → ε → Option σ} {ok : σ → ε → Prop}
  {step' : τ → δ → Option τ} {ok' : τ → δ → Prop} {R : σ → τ → Prop} {s₀ s t : σ} {u₀ u v : τ}

def Simulates (step : σ → ε → Option σ) (ok : σ → ε → Prop) (step' : τ → δ → Option τ)
    (ok' : τ → δ → Prop) (R : σ → τ → Prop) : Prop :=
  ∀ s e t u, R s u → ok s e → step s e = some t → ∃ v, Reaches step' ok' u v ∧ R t v

theorem Reaches.single {e : δ} (hok : ok' u e) (hs : step' u e = some v) :
    Reaches step' ok' u v :=
  .next .start hok hs

theorem Reaches.simulated (hsim : Simulates step ok step' ok' R) (h : Reaches step ok s₀ s)
    (h₀ : R s₀ u₀) : ∃ u, Reaches step' ok' u₀ u ∧ R s u := by
  induction h with
  | start => exact ⟨u₀, .start, h₀⟩
  | next _ hok hs ih =>
    obtain ⟨u, hu, hR⟩ := ih
    obtain ⟨v, hv, hR'⟩ := hsim _ _ _ _ hR hok hs
    exact ⟨v, hu.trans hv, hR'⟩

end RealTimeCyclic.Transition
