import Mathlib.Data.List.Basic
import Mathlib.Tactic.Common

namespace RealTimeCyclic.Latch

variable {α β : Type*} (read : α → Option β) (keep : β → Bool)

def held (b : β) (l : List α) : β := ((l.filterMap read).getLast?).getD b

/-- A filter that judges each element by the value held after reading it. -/
def latched : β → List α → List α
  | _, [] => []
  | b, a :: l =>
    if keep ((read a).getD b) then a :: latched ((read a).getD b) l
    else latched ((read a).getD b) l

variable {read keep}

theorem held_cons (b : β) (a : α) (l : List α) :
    held read b (a :: l) = held read ((read a).getD b) l := by
  unfold held
  cases hread : read a with
  | none => rw [List.filterMap_cons_none hread, Option.getD_none]
  | some c =>
    rw [List.filterMap_cons_some hread, List.getLast?_cons, Option.getD_some, Option.getD_some]

theorem latched_append (b : β) (l l' : List α) :
    latched read keep b (l ++ l') =
      latched read keep b l ++ latched read keep (held read b l) l' := by
  induction l generalizing b with
  | nil => rfl
  | cons a l ih =>
    rw [List.cons_append, latched, latched, held_cons, ih]
    split_ifs
    · rfl
    · rfl

/-- The last element is judged by its own value, or by the one held before it. -/
theorem latched_concat (b : β) (l : List α) (a : α) :
    latched read keep b (l ++ [a]) =
      latched read keep b l ++ if keep ((read a).getD (held read b l)) then [a] else [] := by
  rw [latched_append, latched, latched]

def NoneKept (read : α → Option β) (keep : β → Bool) (b : β) (l : List α) : Prop :=
  ∀ before a after, l = before ++ a :: after → read a = none → keep (held read b before) = false

theorem noneKept_nil (b : β) : NoneKept read keep b [] := by
  intro before a after h
  exact absurd h.symm (List.append_ne_nil_of_right_ne_nil _ (List.cons_ne_nil _ _))

theorem noneKept_cons {b : β} {a : α} {l : List α} :
    NoneKept read keep b (a :: l) ↔
      (read a = none → keep b = false) ∧ NoneKept read keep ((read a).getD b) l := by
  constructor
  · intro h
    refine ⟨h [] a l rfl, fun before a' after heq hread ↦ ?_⟩
    rw [← held_cons]
    exact h (a :: before) a' after (by rw [heq, List.cons_append]) hread
  · intro h before a' after heq hread
    obtain ⟨hfirst, hrest⟩ := h
    cases before with
    | nil =>
      obtain ⟨rfl, -⟩ := List.cons.inj heq
      exact hfirst hread
    | cons x before =>
      obtain ⟨rfl, rfl⟩ := List.cons.inj heq
      rw [held_cons]
      exact hrest before a' after rfl hread

theorem filter_none {a : α} (h : read a = none) (l : List α) :
    (a :: l).filter (fun a ↦ (read a).any keep) = l.filter fun a ↦ (read a).any keep :=
  List.filter_cons_of_neg (by simp [h])

theorem filter_some {a : α} {c : β} (h : read a = some c) (l : List α) :
    (a :: l).filter (fun a ↦ (read a).any keep) =
      if keep c then a :: l.filter fun a ↦ (read a).any keep
      else l.filter fun a ↦ (read a).any keep := by
  rw [List.filter_cons, h, Option.any_some]

variable (read keep) in
theorem filter_sublist (b : β) (l : List α) :
    (l.filter fun a ↦ (read a).any keep).Sublist (latched read keep b l) := by
  induction l generalizing b with
  | nil => exact .slnil
  | cons a l ih =>
    rw [latched]
    cases hread : read a with
    | none =>
      rw [filter_none hread, Option.getD_none]
      split_ifs
      · exact (ih b).cons a
      · exact ih b
    | some c =>
      rw [filter_some hread, Option.getD_some]
      split_ifs
      · exact (ih c).cons_cons a
      · exact ih c

/-- Nothing but the elements' own values counts if and only if no element without one is
kept. -/
theorem latched_eq_filter_iff (b : β) (l : List α) :
    latched read keep b l = l.filter (fun a ↦ (read a).any keep) ↔ NoneKept read keep b l := by
  induction l generalizing b with
  | nil => exact iff_of_true rfl (noneKept_nil b)
  | cons a l ih =>
    rw [noneKept_cons, latched]
    cases hread : read a with
    | none =>
      rw [filter_none hread, Option.getD_none, ← ih b]
      cases hkeep : keep b with
      | true =>
        have hle := (filter_sublist read keep b l).length_le
        refine iff_of_false (fun heq ↦ ?_) fun h ↦ Bool.false_ne_true (h.1 rfl).symm
        have hlength := congrArg List.length heq
        rw [if_pos rfl, List.length_cons] at hlength
        omega
      | false => simp
    | some c =>
      rw [filter_some hread, Option.getD_some, ← ih c]
      cases keep c with
      | true => simp
      | false => simp

end RealTimeCyclic.Latch
