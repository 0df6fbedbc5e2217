import RealTimeCyclic.Library.Probing
import Mathlib.Data.Finset.Card
import Mathlib.Data.Fintype.Basic
import Mathlib.Logic.Function.Basic

namespace RealTimeCyclic.ProbeTable

open Probing Function

/-- A circular table in which every key has at most one entry. -/
structure Table (n : ℕ) (K : Type*) where
  entry : Fin n → Option K
  once : ∀ i j k, entry i = some k → entry j = some k → i = j

variable {n : ℕ} {K : Type*}

namespace Table

def empty : Table n K := ⟨fun _ ↦ none, fun _ _ _ h ↦ by cases h⟩

def erase (T : Table n K) (i : Fin n) : Table n K where
  entry := update T.entry i none
  once := by
    intro j j' k hj hj'
    rcases eq_or_ne j i with rfl | hne
    · simp at hj
    · rcases eq_or_ne j' i with rfl | hne'
      · simp at hj'
      · rw [update_of_ne hne] at hj
        rw [update_of_ne hne'] at hj'
        exact T.once j j' k hj hj'

def write (T : Table n K) (i : Fin n) (k : K) (h : ∀ j, T.entry j ≠ some k) : Table n K where
  entry := update T.entry i (some k)
  once := by
    intro j j' k' hj hj'
    rcases eq_or_ne j i with rfl | hne
    · rw [update_self] at hj
      rcases eq_or_ne j' j with rfl | hne'
      · rfl
      · rw [update_of_ne hne', ← hj] at hj'
        exact absurd hj' (h j')
    · rw [update_of_ne hne] at hj
      rcases eq_or_ne j' i with rfl | hne'
      · rw [update_self] at hj'
        rw [← hj'] at hj
        exact absurd hj (h j)
      · rw [update_of_ne hne'] at hj'
        exact T.once j j' k' hj hj'

variable [NeZero n] {home : K → Fin n} {T : Table n K} {k : K} {i : Fin n}

def free (home : K → Fin n) (T : Table n K) (k : K) : Option (Fin n) :=
  probe (fun i ↦ (T.entry i).isNone) (home k)

theorem free_eq_some (h : T.free home k = some i) : T.entry i = none :=
  Option.isNone_iff_eq_none.mp (probe_some h)

def AtHome (home : K → Fin n) (T : Table n K) : Prop := ∀ i k, T.entry i = some k → i = home k

omit [NeZero n] in
theorem atHome_empty : (empty : Table n K).AtHome home := by
  intro i k h
  cases h

omit [NeZero n] in
theorem AtHome.home_free (h : T.AtHome home)
    (hne : ∀ i k', T.entry i = some k' → home k' ≠ home k) : T.entry (home k) = none := by
  by_contra htaken
  obtain ⟨k', hk'⟩ := Option.ne_none_iff_exists'.mp htaken
  exact hne _ k' hk' (h _ k' hk').symm

theorem free_home (h : T.entry (home k) = none) : T.free home k = some (home k) :=
  probeFrom_self (NeZero.ne n) (Option.isNone_iff_eq_none.mpr h)

omit [NeZero n] in
theorem AtHome.write (h : T.AtHome home) (hi : i = home k) (habsent : ∀ j, T.entry j ≠ some k) :
    (T.write i k habsent).AtHome home := by
  intro j k' hj
  rcases eq_or_ne j i with rfl | hne
  · simp only [Table.write, update_self, Option.some.injEq] at hj
    exact hj ▸ hi
  · simp only [Table.write, update_of_ne hne] at hj
    exact h j k' hj

omit [NeZero n] in
theorem AtHome.erase (h : T.AtHome home) (i : Fin n) : (T.erase i).AtHome home := by
  intro j k hj
  rcases eq_or_ne j i with rfl | hne
  · simp [Table.erase] at hj
  · simp only [Table.erase, update_of_ne hne] at hj
    exact h j k hj

variable [DecidableEq K]

def find (home : K → Fin n) (T : Table n K) (k : K) : Option (Fin n) :=
  probe (fun i ↦ decide (T.entry i = some k)) (home k)

theorem find_eq_none : T.find home k = none ↔ ∀ i, T.entry i ≠ some k := by
  rw [find, probe_none]
  exact forall_congr' fun i ↦ decide_eq_false_iff_not

theorem find_eq_some : T.find home k = some i ↔ T.entry i = some k := by
  constructor
  · intro h
    exact of_decide_eq_true (probe_some h)
  · intro h
    cases hj : T.find home k with
    | none => exact absurd h (find_eq_none.mp hj i)
    | some j =>
      have hentry : T.entry j = some k := of_decide_eq_true (probe_some hj)
      rw [T.once j i k hentry h]

def place (home : K → Fin n) (T : Table n K) (k : K) : Option (Fin n) :=
  if (T.find home k).isSome then none else T.free home k

theorem place_eq_some (h : T.place home k = some i) :
    (∀ j, T.entry j ≠ some k) ∧ T.entry i = none := by
  unfold place at h
  split_ifs at h with hsome
  exact ⟨find_eq_none.mp (by simpa using hsome), free_eq_some h⟩

/-- After a write, a search finds the new key at its entry and every other key
where it was. -/
theorem find_write {k' : K} (h : ∀ j, T.entry j ≠ some k) (hfree : T.entry i = none) :
    (T.write i k h).find home k' = if k' = k then some i else T.find home k' := by
  split_ifs with hk
  · exact find_eq_some.mpr (by simp [write, hk])
  · cases hfind : T.find home k' with
    | none =>
      refine find_eq_none.mpr fun j ↦ ?_
      rcases eq_or_ne j i with rfl | hne
      · simpa [write] using Ne.symm hk
      · simpa [write, hne] using find_eq_none.mp hfind j
    | some j =>
      have hj := find_eq_some.mp hfind
      have hne : j ≠ i := by
        rintro rfl
        rw [hfree] at hj
        cases hj
      exact find_eq_some.mpr (by simpa [write, hne] using hj)

theorem find_erase :
    (T.erase i).find home k = if T.entry i = some k then none else T.find home k := by
  split_ifs with hi
  · refine find_eq_none.mpr fun j hj ↦ ?_
    rcases eq_or_ne j i with rfl | hne
    · simp [erase] at hj
    · simp only [erase, update_of_ne hne] at hj
      exact hne (T.once j i k hj hi)
  · cases hfind : T.find home k with
    | none =>
      refine find_eq_none.mpr fun j ↦ ?_
      rcases eq_or_ne j i with rfl | hne
      · simp [erase]
      · simpa [erase, hne] using find_eq_none.mp hfind j
    | some j =>
      have hj := find_eq_some.mp hfind
      have hne : j ≠ i := by
        rintro rfl
        exact hi hj
      exact find_eq_some.mpr (by simpa [erase, hne] using hj)

end Table

end RealTimeCyclic.ProbeTable
