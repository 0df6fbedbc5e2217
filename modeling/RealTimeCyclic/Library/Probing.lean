import Mathlib.Data.Fin.Basic
import Mathlib.Data.ZMod.Defs
import Mathlib.Tactic.Common

namespace RealTimeCyclic.Probing

variable {n : ℕ} [NeZero n]

def probeFrom (p : Fin n → Bool) : ℕ → Fin n → Option (Fin n)
  | 0, _ => none
  | k + 1, i => if p i then some i else probeFrom p k (i + 1)

def probe (p : Fin n → Bool) (i : Fin n) : Option (Fin n) := probeFrom p n i

variable {p : Fin n → Bool} {i j : Fin n} {k : ℕ}

theorem probeFrom_some (h : probeFrom p k i = some j) : p j = true := by
  induction k generalizing i with
  | zero => cases h
  | succ k ih =>
    unfold probeFrom at h
    split_ifs at h with hi
    · exact Option.some.inj h ▸ hi
    · exact ih h

theorem probeFrom_none :
    probeFrom p k i = none ↔ ∀ d < k, p (i + Fin.ofNat n d) = false := by
  induction k generalizing i with
  | zero => simp [probeFrom]
  | succ k ih =>
    have hshift (d : ℕ) : i + Fin.ofNat n (d + 1) = i + 1 + Fin.ofNat n d := by
      rw [add_assoc, add_comm 1]
      congr 1
      ext
      simp [Fin.val_add]
    unfold probeFrom
    cases hi : p i with
    | true =>
      simp only [if_true, reduceCtorEq, false_iff, not_forall]
      exact ⟨0, Nat.succ_pos k, by simp [hi]⟩
    | false =>
      simp only [Bool.false_eq_true, if_false, ih]
      constructor
      · intro h d hd
        cases d with
        | zero => simpa using hi
        | succ d => exact hshift d ▸ h d (Nat.succ_lt_succ_iff.mp hd)
      · intro h d hd
        exact hshift d ▸ h (d + 1) (Nat.succ_lt_succ hd)

theorem probe_some (h : probe p i = some j) : p j = true := probeFrom_some h

theorem probeFrom_self (hk : k ≠ 0) (h : p i = true) : probeFrom p k i = some i := by
  cases k with
  | zero => exact absurd rfl hk
  | succ k => rw [probeFrom, if_pos h]

theorem probe_none : probe p i = none ↔ ∀ j, p j = false := by
  rw [probe, probeFrom_none]
  constructor
  · intro h j
    have hj := h (j - i).val (j - i).isLt
    rwa [show Fin.ofNat n (j - i).val = j - i from Fin.ext (Nat.mod_eq_of_lt (j - i).isLt),
      add_sub_cancel] at hj
  · intro h d _
    exact h _

end RealTimeCyclic.Probing
