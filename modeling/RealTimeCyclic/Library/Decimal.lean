import RealTimeCyclic.Library.CString
import Mathlib.Data.Nat.Digits.Lemmas

namespace RealTimeCyclic.CString

def decimalValue (bs : List UInt8) : ℕ := Nat.ofDigits 10 (bs.reverse.map fun b ↦ b.toNat - 48)

theorem toNat_digit {d : ℕ} (h : d < 10) : (48 + d.toUInt8).toNat = 48 + d := by
  have h48 : (48 : UInt8).toNat = 48 := rfl
  rw [UInt8.toNat_add, Nat.toUInt8, UInt8.toNat_ofNat', h48]
  omega

theorem digits_lt_ten {n d : ℕ} (h : d ∈ Nat.digits 10 n) : d < 10 :=
  Nat.digits_lt_base (by decide) h

theorem decimalValue_decimal (n : ℕ) : decimalValue (decimal n) = n := by
  unfold decimal decimalValue
  split_ifs with h
  · rw [h]
    rfl
  · have hmap : ((Nat.digits 10 n).map fun d ↦ (48 + d.toUInt8).toNat - 48) =
        Nat.digits 10 n := by
      refine (List.map_congr_left fun d hd ↦ ?_).trans (List.map_id _)
      rw [toNat_digit (digits_lt_ten hd), Nat.add_sub_cancel_left, id]
    rw [← List.map_reverse, List.reverse_reverse, List.map_map]
    exact (congrArg (Nat.ofDigits 10) hmap).trans (Nat.ofDigits_digits 10 n)

theorem decimal_injective : Function.Injective decimal :=
  Function.LeftInverse.injective decimalValue_decimal

/-- `%u` prints digits and nothing else. -/
theorem mem_decimal {n : ℕ} {b : UInt8} (h : b ∈ decimal n) : 48 ≤ b.toNat ∧ b.toNat < 58 := by
  unfold decimal at h
  split_ifs at h
  · rw [List.mem_singleton] at h
    subst h
    decide
  · obtain ⟨d, hd, rfl⟩ := List.mem_map.mp h
    have hlt := digits_lt_ten (List.mem_reverse.mp hd)
    rw [toNat_digit hlt]
    omega

theorem zero_not_mem_decimal (n : ℕ) : (0 : UInt8) ∉ decimal n := by
  intro h
  have hb := (mem_decimal h).1
  exact absurd hb (by decide)

theorem underscore_not_mem_decimal (n : ℕ) : (95 : UInt8) ∉ decimal n := by
  intro h
  have hb := (mem_decimal h).2
  exact absurd hb (by decide)

theorem length_decimal {n : ℕ} (h : n ≠ 0) : (decimal n).length = (Nat.digits 10 n).length := by
  rw [decimal, if_neg h, List.length_map, List.length_reverse]

theorem length_decimal_mono {m n : ℕ} (hm : m ≠ 0) (h : m ≤ n) :
    (decimal m).length ≤ (decimal n).length := by
  rw [length_decimal hm, length_decimal (by omega)]
  exact Nat.le_length_digits_le 10 m n h

theorem length_decimal_le {n k : ℕ} (hn : n ≠ 0) (h : n < 10 ^ k) : (decimal n).length ≤ k := by
  rw [length_decimal hn]
  exact (Nat.digits_length_le_iff (by decide) n).mpr h

end RealTimeCyclic.CString
