import Mathlib.Data.List.Basic
import Mathlib.Data.List.Count
import Mathlib.Data.Fin.Basic
import Mathlib.Logic.Function.Basic
import Mathlib.Tactic.Common

namespace RealTimeCyclic.Tally

open Function

section Party

variable {α : Type*} {p : α → Bool} {l : List α} {a b : α} {j k : ℕ}

theorem countP_set (h : l[j]? = some a) :
    (l.set j b).countP p + (if p a then 1 else 0) = l.countP p + (if p b then 1 else 0) := by
  obtain ⟨hj, rfl⟩ := List.getElem?_eq_some_iff.mp h
  rw [List.countP_set hj]
  have hpos : p l[j] = true → 0 < l.countP p := fun hp ↦
    List.countP_pos_iff.mpr ⟨l[j], List.getElem_mem hj, hp⟩
  split_ifs at hpos ⊢ <;> simp_all

theorem count_set [BEq α] [LawfulBEq α] [DecidableEq α] {x : α} (h : l[j]? = some a) :
    (l.set j b).count x + (if a = x then 1 else 0) = l.count x + (if b = x then 1 else 0) := by
  have hset := countP_set (p := fun y ↦ y == x) (b := b) h
  simpa only [List.count, beq_iff_eq] using hset

theorem two_le_countP (hjk : j ≠ k) (ha : l[j]? = some a) (hb : l[k]? = some b)
    (hpa : p a = true) (hpb : p b = true) : 2 ≤ l.countP p := by
  induction l generalizing j k with
  | nil => simp at ha
  | cons x l ih =>
    cases j with
    | zero =>
      cases k with
      | zero => exact absurd rfl hjk
      | succ k =>
        obtain rfl : x = a := by simpa using ha
        have hmem : b ∈ l := List.mem_of_getElem? (by simpa using hb)
        have hpos : 0 < l.countP p := List.countP_pos_iff.mpr ⟨b, hmem, hpb⟩
        rw [List.countP_cons_of_pos hpa]
        omega
    | succ j =>
      cases k with
      | zero =>
        obtain rfl : x = b := by simpa using hb
        have hmem : a ∈ l := List.mem_of_getElem? (by simpa using ha)
        have hpos : 0 < l.countP p := List.countP_pos_iff.mpr ⟨a, hmem, hpa⟩
        rw [List.countP_cons_of_pos hpb]
        omega
      | succ k =>
        have hrest := ih (fun h ↦ hjk (congrArg Nat.succ h)) (by simpa using ha) (by simpa using hb)
        have hle := List.countP_cons (p := p) (a := x) (l := l)
        omega

end Party

section Register

variable {α : Type*} [BEq α] [LawfulBEq α] {n : ℕ}

def entered (f : Fin n → α) (x : α) : ℕ := ((List.finRange n).map f).count x

theorem entered_update [DecidableEq α] (f : Fin n → α) (i : Fin n) (a x : α) :
    entered (update f i a) x + (if f i = x then 1 else 0) =
      entered f x + (if a = x then 1 else 0) := by
  have hset : (List.finRange n).map (update f i a) = ((List.finRange n).map f).set i a := by
    refine List.ext_getElem (by simp) fun k hk hk' ↦ ?_
    rw [List.getElem_set, List.getElem_map, List.getElem_map, List.getElem_finRange]
    split_ifs with heq
    · rw [show (Fin.cast (List.length_finRange) ⟨k, by simpa using hk⟩ : Fin n) = i from
        Fin.ext heq.symm, update_self]
    · refine update_of_ne (fun h ↦ heq ?_) _ _
      rw [← h]
      rfl
  unfold entered
  rw [hset]
  refine count_set ?_
  rw [List.getElem?_map, List.getElem?_eq_getElem (by simp), List.getElem_finRange]
  rfl

theorem entered_pos {f : Fin n → α} {x : α} : 0 < entered f x ↔ ∃ i, f i = x := by
  unfold entered
  rw [List.count_pos_iff]
  simp

theorem two_le_entered {f : Fin n → α} {i j : Fin n} {x : α} (hij : i ≠ j) (hi : f i = x)
    (hj : f j = x) : 2 ≤ entered f x := by
  unfold entered
  rw [List.count, List.countP_map]
  have hget (k : Fin n) : (List.finRange n)[k.val]? = some k := by
    rw [List.getElem?_eq_getElem (by simp), List.getElem_finRange]
    rfl
  exact two_le_countP (fun h ↦ hij (Fin.ext h)) (hget i) (hget j) (by simp [hi]) (by simp [hj])

theorem entered_const {x y : α} (h : x ≠ y) : entered (fun _ : Fin n ↦ x) y = 0 := by
  unfold entered
  rw [List.count_eq_zero]
  intro hmem
  obtain ⟨-, -, heq⟩ := List.mem_map.mp hmem
  exact h heq

end Register

end RealTimeCyclic.Tally
