import Mathlib.Tactic.Common

namespace RealTimeCyclic.Sentinel

variable {α : Type*}

/-- A shared value and the reader's copy of the last one received. The writer and the
reader use one value, `undefined`, to say that there is none. -/
structure Cell (α : Type*) where
  value : α
  known : α

def Cell.receive (isUndefined : α → Bool) (undefined : α) (c : Cell α) : Cell α × Bool :=
  if isUndefined c.value then (c, true) else (⟨undefined, c.value⟩, false)

def Holds (undefined : α) (value : α) : Option α → Prop
  | none => value = undefined
  | some written => value = written ∧ written ≠ undefined

def Received (requested : Bool) (written : Option α) (undefined : α) (c c' : Cell α)
    (missed : Bool) : Prop :=
  match requested, written with
  | false, _ => c' = c ∧ missed = false
  | true, none => c'.known = c.known ∧ missed = true
  | true, some value => c'.known = value ∧ c'.value = undefined ∧ missed = false

variable {isUndefined : α → Bool} {undefined : α} {c : Cell α} {written : Option α}

theorem holds_receive (htest : isUndefined c.value = true → c.value = undefined) :
    Holds undefined (c.receive isUndefined undefined).1.value none := by
  unfold Cell.receive
  split_ifs with h
  · exact htest h
  · rfl

theorem received_of_recognised (htest : isUndefined c.value = true ↔ c.value = undefined)
    (h : Holds undefined c.value written) :
    Received true written undefined c (c.receive isUndefined undefined).1
      (c.receive isUndefined undefined).2 := by
  unfold Cell.receive
  cases written with
  | none =>
    rw [if_pos (htest.mpr h)]
    exact ⟨rfl, rfl⟩
  | some value =>
    rw [if_neg fun he ↦ h.2 (h.1.symm.trans (htest.mp he))]
    exact ⟨h.1, rfl, rfl⟩

theorem received_of_unrecognised (htest : isUndefined c.value = false)
    (h : Holds undefined c.value written) :
    Received true written undefined c (c.receive isUndefined undefined).1
      (c.receive isUndefined undefined).2 ↔ written ≠ none := by
  unfold Cell.receive
  rw [if_neg (by rw [htest]; exact Bool.false_ne_true)]
  cases written with
  | none => exact iff_of_false (fun hr ↦ Bool.false_ne_true hr.2) (fun hne ↦ hne rfl)
  | some value => exact iff_of_true ⟨h.1, rfl, rfl⟩ (Option.some_ne_none value)

end RealTimeCyclic.Sentinel
