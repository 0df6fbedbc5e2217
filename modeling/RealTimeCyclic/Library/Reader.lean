import Mathlib.Data.List.Basic
import Mathlib.Tactic.Common

namespace RealTimeCyclic.Reading

abbrev Reader (τ : Type) : Type → Type := StateM (List τ)

variable {τ α β : Type}

def Reads (r : Reader τ α) (text : List τ) (a : α) : Prop :=
  ∀ rest, r (text ++ rest) = (a, rest)

def Advances (r : Reader τ α) : Prop := ∀ input, (r input).2 <:+ input

def Consumes (r : Reader τ α) : Prop :=
  ∀ input, input ≠ [] → (r input).2.length < input.length

def Yields (r : Reader τ α) (P : α → Prop) : Prop := ∀ input, P (r input).1

variable {r : Reader τ α} {f : α → Reader τ β} {text text' : List τ} {a : α} {b : β}
  {P : α → Prop} {Q : β → Prop}

theorem Reads.pure (a : α) : Reads (pure a : Reader τ α) [] a := fun _ ↦ rfl

theorem Reads.bind (h : Reads r text a) (h' : Reads (f a) text' b) :
    Reads (r >>= f) (text ++ text') b := by
  intro rest
  rw [List.append_assoc]
  have hread := h (text' ++ rest)
  change f (r (text ++ (text' ++ rest))).1 (r (text ++ (text' ++ rest))).2 = (b, rest)
  rw [hread]
  exact h' rest

theorem Advances.pure (a : α) : Advances (pure a : Reader τ α) := fun _ ↦ List.suffix_refl _

theorem Advances.bind (h : Advances r) (h' : ∀ a, Advances (f a)) : Advances (r >>= f) := by
  intro input
  exact (h' (r input).1 (r input).2).trans (h input)

theorem Yields.pure (h : P a) : Yields (pure a : Reader τ α) P := fun _ ↦ h

theorem Yields.next (h : ∀ a, Yields (f a) Q) : Yields (r >>= f) Q := by
  intro input
  exact h (r input).1 (r input).2

theorem Consumes.bind (h : Consumes r) (h' : ∀ a, Advances (f a)) : Consumes (r >>= f) := by
  intro input hinput
  exact Nat.lt_of_le_of_lt (h' (r input).1 (r input).2).length_le (h input hinput)

end RealTimeCyclic.Reading
