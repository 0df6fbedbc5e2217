import Mathlib.Data.List.GetD
import Mathlib.Tactic.Common

namespace RealTimeCyclic.Window

variable {α : Type*} {l : List α} {i n : ℕ} {a : α}

def window (l : List α) (i n : ℕ) : List α := (l.take n).drop i

theorem window_self (l : List α) (i : ℕ) : window l i i = [] := by
  rw [window, List.drop_take, Nat.sub_self, List.take_zero]

theorem length_window (hn : n ≤ l.length) : (window l i n).length = n - i := by
  rw [window, List.length_drop, List.length_take_of_le hn]

theorem window_push (hi : i ≤ n) (hn : n < l.length) :
    window (l.set n a) i (n + 1) = window l i n ++ [a] := by
  have htake : (l.set n a).take (n + 1) = l.take n ++ [a] := by
    rw [List.take_succ_eq_append_getElem (by simpa using hn), List.take_set_of_le (Nat.le_refl n),
      List.getElem_set_self]
  rw [window, htake, List.drop_append_of_le_length (by rw [List.length_take]; omega), window]

theorem window_pop (hi : i < n) (hn : n ≤ l.length) (b : α) :
    window l i n = l.getD i b :: window (l.set i a) (i + 1) n := by
  have hlen : i < (l.take n).length := by
    rw [List.length_take]
    omega
  rw [window, List.drop_eq_getElem_cons hlen, List.getElem_take, window, List.take_set,
    List.drop_set_of_lt (Nat.lt_succ_self i), List.getD_eq_getElem]

end RealTimeCyclic.Window
