import Mathlib.Data.List.TakeWhile
import Mathlib.Tactic.Common

namespace RealTimeCyclic.Words

variable {α σ : Type*} (p : α → Bool)

def words (l : List α) : List (List α) := (l.splitOnP p).filter fun w ↦ !w.isEmpty

def next (l : List α) : Option (List α × List α) :=
  match l.dropWhile p with
  | [] => none
  | a :: l => some (a :: l.takeWhile fun b ↦ !p b, l.dropWhile fun b ↦ !p b)

def scan : List (List α → σ → σ) → List α → σ → σ
  | [], _, s => s
  | store :: stores, l, s =>
    match next p l with
    | none => s
    | some (w, rest) => scan stores rest (store w s)

variable {p} {l w rest : List α} {a : α}

theorem words_nil : words p [] = [] := by
  simp [words]

theorem words_separator (h : p a = true) : words p (a :: l) = words p l := by
  rw [words, List.splitOnP_cons_eq_if_modifyHead, if_pos h]
  rfl

theorem words_dropWhile (l : List α) : words p (l.dropWhile p) = words p l := by
  induction l with
  | nil => rfl
  | cons a l ih =>
    by_cases h : p a = true
    · rw [List.dropWhile_cons_of_pos h, ih, words_separator h]
    · rw [List.dropWhile_cons_of_neg h]

theorem words_append (hw : w ≠ []) (h : ∀ b ∈ w, p b = false)
    (hrest : rest = [] ∨ ∃ b l, rest = b :: l ∧ p b = true) :
    words p (w ++ rest) = w :: words p rest := by
  have hkept (ws : List (List α)) :
      (w :: ws).filter (fun w ↦ !w.isEmpty) = w :: ws.filter fun w ↦ !w.isEmpty := by
    cases w with
    | nil => exact absurd rfl hw
    | cons b w => rfl
  rcases hrest with rfl | ⟨b, l, rfl, hb⟩
  · rw [List.append_nil, words, List.splitOnP_eq_singleton h, hkept, words_nil, List.filter_nil]
  · rw [words_separator hb, words, List.splitOnP_append_cons_of_forall_mem h b hb, hkept, words]

theorem dropWhile_cases (p : α → Bool) (l : List α) :
    l.dropWhile p = [] ∨ ∃ b l', l.dropWhile p = b :: l' ∧ p b = false := by
  have hhead := List.head?_dropWhile_not p l
  cases hdrop : l.dropWhile p with
  | nil => exact .inl rfl
  | cons b l' =>
    rw [hdrop] at hhead
    exact .inr ⟨b, l', rfl, hhead⟩

theorem next_eq_none (h : next p l = none) : words p l = [] := by
  unfold next at h
  split at h
  · rename_i hdrop
    rw [← words_dropWhile, hdrop, words_nil]
  · cases h

theorem words_of_next (h : next p l = some (w, rest)) : words p l = w :: words p rest := by
  unfold next at h
  split at h
  · cases h
  · rename_i a l' hdrop
    obtain ⟨rfl, rfl⟩ := Prod.mk.inj (Option.some.inj h)
    have ha : p a = false := by
      rcases dropWhile_cases p l with hnil | ⟨b, m, hcons, hb⟩
      · rw [hnil] at hdrop
        cases hdrop
      · rw [hcons] at hdrop
        exact (List.cons.inj hdrop).1 ▸ hb
    have hword (b : α) (hb : b ∈ a :: l'.takeWhile fun b ↦ !p b) : p b = false := by
      rcases List.mem_cons.mp hb with rfl | hb
      · exact ha
      · simpa using List.mem_takeWhile_imp hb
    have hrest : l'.dropWhile (fun b ↦ !p b) = [] ∨
        ∃ b m, l'.dropWhile (fun b ↦ !p b) = b :: m ∧ p b = true := by
      simpa using dropWhile_cases (fun b ↦ !p b) l'
    rw [← words_dropWhile, hdrop, ← words_append (List.cons_ne_nil _ _) hword hrest,
      List.cons_append, List.takeWhile_append_dropWhile]

theorem scan_eq_foldl (stores : List (List α → σ → σ)) (l : List α) (s : σ) :
    scan p stores l s = ((words p l).zip stores).foldl (fun s q ↦ q.2 q.1 s) s := by
  induction stores generalizing l s with
  | nil => rw [List.zip_nil_right, List.foldl_nil, scan]
  | cons store stores ih =>
    rw [scan]
    cases hnext : next p l with
    | none => rw [next_eq_none hnext, List.zip_nil_left, List.foldl_nil]
    | some read =>
      rw [words_of_next hnext, List.zip_cons_cons, List.foldl_cons, ← ih]

end RealTimeCyclic.Words
