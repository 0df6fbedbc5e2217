import RealTimeCyclic.Library.ProbeTable
import Mathlib.Data.List.FinRange
import Mathlib.Data.Fintype.Basic

namespace RealTimeCyclic.Overlay

open ProbeTable

variable {n : ℕ} {K : Type*}

/-- The table a key was found in. -/
inductive Row (K : Type*)
  | upper (k : K)
  | lower (k : K)

def Row.key : Row K → K
  | .upper k | .lower k => k

def row (upper lower : Table n K) (i : Fin n) : List (Row K) :=
  match upper.entry i, lower.entry i with
  | some k, _ => [.upper k]
  | none, some k => [.lower k]
  | none, none => []

def walk (upper lower : Table n K) : List (Row K) :=
  (List.finRange n).flatMap (row upper lower)

variable {upper lower : Table n K} {i j : Fin n} {k : K}

theorem flatMap_finRange_eq {β : Type*} {f : Fin n → List β} (h : ∀ j, j ≠ i → f j = []) :
    (List.finRange n).flatMap f = f i := by
  obtain ⟨before, after, hsplit⟩ := List.append_of_mem (List.mem_finRange i)
  have hnodup := List.nodup_finRange n
  rw [hsplit, List.nodup_middle, List.nodup_cons, List.mem_append, not_or] at hnodup
  have hbefore : before.flatMap f = [] := List.flatMap_eq_nil_iff.mpr fun j hj ↦
    h j fun heq ↦ hnodup.1.1 (heq ▸ hj)
  have hafter : after.flatMap f = [] := List.flatMap_eq_nil_iff.mpr fun j hj ↦
    h j fun heq ↦ hnodup.1.2 (heq ▸ hj)
  rw [hsplit, List.flatMap_append, List.flatMap_cons, hbefore, hafter, List.nil_append,
    List.append_nil]

theorem row_upper (h : upper.entry i = some k) : row upper lower i = [.upper k] := by
  rw [row, h]

theorem row_lower (h : upper.entry i = none) (h' : lower.entry i = some k) :
    row upper lower i = [.lower k] := by
  rw [row, h, h']

/-- When every key is at its home, the tables agree on the places. -/
theorem covered_iff {home : K → Fin n} (hupper : upper.AtHome home) (hlower : lower.AtHome home)
    (hsub : ∀ j k', upper.entry j = some k' → ∃ i, lower.entry i = some k')
    (hi : lower.entry i = some k) :
    (∃ j, upper.entry j = some k) ↔ upper.entry i ≠ none := by
  constructor
  · intro hex
    obtain ⟨j, hj⟩ := hex
    have hij : i = j := (hlower i k hi).trans (hupper j k hj).symm
    rw [hij, hj]
    exact Option.some_ne_none k
  · intro hcovered
    obtain ⟨k', hk'⟩ := Option.ne_none_iff_exists'.mp hcovered
    obtain ⟨i', hi'⟩ := hsub i k' hk'
    have hii' : i = i' := (hupper i k' hk').trans (hlower i' k' hi').symm
    rw [← hii', hi] at hi'
    exact ⟨i, hk'.trans hi'.symm⟩

variable [DecidableEq K]

def shown (upper lower : Table n K) (k : K) : List (Row K) :=
  (walk upper lower).filter fun r ↦ r.key = k

theorem shown_eq_flatMap :
    shown upper lower k =
      (List.finRange n).flatMap fun i ↦ (row upper lower i).filter fun r ↦ r.key = k := by
  rw [shown, walk, List.filter_flatMap]

theorem row_other (h : upper.entry i ≠ some k)
    (h' : lower.entry i = some k → upper.entry i ≠ none) :
    ((row upper lower i).filter fun r ↦ r.key = k) = [] := by
  unfold row
  split
  · rename_i k' hupper
    have hne : k' ≠ k := fun heq ↦ h (heq ▸ hupper)
    simp [Row.key, hne]
  · rename_i k' hupper hlower
    have hne : k' ≠ k := fun heq ↦ h' (heq ▸ hlower) hupper
    simp [Row.key, hne]
  · rfl

theorem shown_of_upper (hj : upper.entry j = some k)
    (h : ∀ i, lower.entry i = some k → upper.entry i ≠ none) :
    shown upper lower k = [.upper k] := by
  rw [shown_eq_flatMap, flatMap_finRange_eq (i := j), row_upper hj]
  · simp [Row.key]
  · intro i hne
    exact row_other (fun hi ↦ hne (upper.once i j k hi hj)) (h i)

theorem shown_of_lower (habsent : ∀ j, upper.entry j ≠ some k) (hi : lower.entry i = some k)
    (hfree : upper.entry i = none) : shown upper lower k = [.lower k] := by
  rw [shown_eq_flatMap, flatMap_finRange_eq (i := i), row_lower hfree hi]
  · simp [Row.key]
  · intro j hne
    exact row_other (habsent j) fun hj ↦ absurd (lower.once j i k hj hi) hne

theorem lower_mem_shown (hi : lower.entry i = some k) (hfree : upper.entry i = none) :
    .lower k ∈ shown upper lower k := by
  refine List.mem_filter.mpr ⟨List.mem_flatMap.mpr ⟨i, List.mem_finRange i, ?_⟩, by simp [Row.key]⟩
  rw [row_lower hfree hi]
  exact List.mem_singleton_self _

theorem shown_eq_nil (habsent : ∀ j, upper.entry j ≠ some k)
    (h : ∀ i, lower.entry i = some k → upper.entry i ≠ none) : shown upper lower k = [] := by
  rw [shown_eq_flatMap]
  exact List.flatMap_eq_nil_iff.mpr fun j _ ↦ row_other (habsent j) (h j)

/-- A key of the lower table is shown once, and from the upper table if it is there, if and
only if what lies over its entry is taken exactly when the upper table has it. -/
theorem shown_iff (hi : lower.entry i = some k) :
    (((∃ j, upper.entry j = some k) → shown upper lower k = [.upper k]) ∧
      ((∀ j, upper.entry j ≠ some k) → shown upper lower k = [.lower k])) ↔
      ((∃ j, upper.entry j = some k) ↔ upper.entry i ≠ none) := by
  have honly (hcovered : upper.entry i ≠ none) (i' : Fin n) (hi' : lower.entry i' = some k) :
      upper.entry i' ≠ none := lower.once i i' k hi hi' ▸ hcovered
  constructor
  · intro h
    obtain ⟨hupper, hlower⟩ := h
    constructor
    · intro hex hfree
      have hmem := lower_mem_shown hi hfree
      rw [hupper hex] at hmem
      cases List.mem_singleton.mp hmem
    · intro hcovered
      by_contra habsent
      push Not at habsent
      have hnil := shown_eq_nil habsent (honly hcovered)
      rw [hlower habsent] at hnil
      cases hnil
  · intro h
    constructor
    · intro hex
      obtain ⟨j, hj⟩ := hex
      exact shown_of_upper hj (honly (h.mp ⟨j, hj⟩))
    · intro habsent
      refine shown_of_lower habsent hi (not_not.mp fun hcovered ↦ ?_)
      obtain ⟨j, hj⟩ := h.mpr hcovered
      exact habsent j hj

end RealTimeCyclic.Overlay
