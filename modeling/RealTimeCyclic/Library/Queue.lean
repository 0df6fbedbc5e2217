import Mathlib.Data.List.Basic
import Mathlib.Tactic.Common

namespace RealTimeCyclic.Queue

variable {α : Type*} [DecidableEq α] {x y : α} {xs ys : List α} {each last : ℕ}

def wait (each last : ℕ) (x : α) (xs : List α) : ℕ :=
  if x ∈ xs then each * xs.idxOf x + last else 0

end RealTimeCyclic.Queue
