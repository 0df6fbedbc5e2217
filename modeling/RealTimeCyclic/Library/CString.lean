import Mathlib.Data.Nat.Digits.Defs
import Mathlib.Data.List.GetD
import Mathlib.Data.List.TakeWhile
import Mathlib.Tactic.Common

namespace RealTimeCyclic.CString

/-- The bytes from the start of a buffer on. All bytes past the end of the
list are zero, so a store may reach any address. -/
abbrev Mem := List UInt8

def load (m : Mem) (k : ℕ) : UInt8 := m.getD k 0

def store : Mem → ℕ → UInt8 → Mem
  | [], 0, b => [b]
  | [], k + 1, b => 0 :: store [] k b
  | _ :: m, 0, b => b :: m
  | c :: m, k + 1, b => c :: store m k b

@[simp] theorem load_nil (k : ℕ) : load [] k = 0 := by simp [load]

@[simp] theorem load_cons_zero (c : UInt8) (m : Mem) : load (c :: m) 0 = c := rfl

@[simp] theorem load_cons_succ (c : UInt8) (m : Mem) (k : ℕ) :
    load (c :: m) (k + 1) = load m k := by simp [load]

@[simp] theorem load_store_self (m : Mem) (k : ℕ) (b : UInt8) : load (store m k b) k = b := by
  induction k generalizing m with
  | zero => cases m <;> rfl
  | succ k ih => cases m <;> simp only [store, load_cons_succ, ih]

theorem load_store_of_ne {m : Mem} {k j : ℕ} {b : UInt8} (h : j ≠ k) :
    load (store m k b) j = load m j := by
  induction k generalizing m j with
  | zero =>
    obtain ⟨j, rfl⟩ := Nat.exists_eq_succ_of_ne_zero h
    cases m <;> simp only [store, load_nil, load_cons_succ]
  | succ k ih =>
    cases j with
    | zero => cases m <;> rfl
    | succ j =>
      have hne : j ≠ k := fun he ↦ h (congrArg Nat.succ he)
      cases m <;> simp only [store, load_nil, load_cons_succ, ih hne]

theorem load_store (m : Mem) (k j : ℕ) (b : UInt8) :
    load (store m k b) j = if j = k then b else load m j := by
  split_ifs with h
  · rw [h, load_store_self]
  · exact load_store_of_ne h

theorem load_eq_zero {m : Mem} {k : ℕ} (h : m.length ≤ k) : load m k = 0 :=
  List.getD_eq_default m 0 h

theorem load_append_left {a b : Mem} {k : ℕ} (h : k < a.length) :
    load (a ++ b) k = load a k :=
  List.getD_append a b 0 k h

theorem load_append_right {a b : Mem} {k : ℕ} (h : a.length ≤ k) :
    load (a ++ b) k = load b (k - a.length) :=
  List.getD_append_right a b 0 k h

theorem load_mem {m : Mem} {k : ℕ} (h : k < m.length) : load m k ∈ m := by
  rw [load, List.getD_eq_getElem m 0 h]
  exact List.getElem_mem h

def str (m : Mem) : List UInt8 := m.takeWhile (· ≠ 0)

/-- Write consecutive bytes from address `k` on. -/
def storeAll (m : Mem) (k : ℕ) : List UInt8 → Mem
  | [] => m
  | b :: bs => storeAll (store m k b) (k + 1) bs

def strcpy (dst src : Mem) : Mem := storeAll dst 0 (str src ++ [0])

theorem load_storeAll (m : Mem) (k : ℕ) (bs : List UInt8) (j : ℕ) :
    load (storeAll m k bs) j =
      if k ≤ j ∧ j < k + bs.length then load bs (j - k) else load m j := by
  induction bs generalizing m k with
  | nil => rw [storeAll, List.length_nil, if_neg (by omega)]
  | cons b bs ih =>
    rw [storeAll, ih, List.length_cons, load_store]
    rcases lt_trichotomy j k with hlt | rfl | hlt
    · rw [if_neg (by omega), if_neg (by omega), if_neg (by omega)]
    · rw [if_neg (by omega), if_pos rfl, if_pos (by omega), Nat.sub_self, load_cons_zero]
    · obtain ⟨i, rfl⟩ := Nat.exists_eq_add_of_lt hlt
      have hi : k + i + 1 - k = i + 1 := by omega
      have hi' : k + i + 1 - (k + 1) = i := by omega
      rw [if_neg (show k + i + 1 ≠ k by omega), hi, hi', load_cons_succ]
      exact if_congr (by omega) rfl rfl

def SameBytes (a b : Mem) : Prop := ∀ k, load a k = load b k

theorem SameBytes.refl (a : Mem) : SameBytes a a := fun _ ↦ rfl

theorem str_of_sameBytes {m : Mem} {s : List UInt8} (h : SameBytes m s) (hs : (0 : UInt8) ∉ s) :
    str m = s := by
  induction s generalizing m with
  | nil =>
    cases m with
    | nil => rfl
    | cons c m =>
      have hc : c = 0 := h 0
      simp [str, hc]
  | cons b s ih =>
    have hb : b ≠ 0 := fun he ↦ hs (he ▸ List.mem_cons_self)
    cases m with
    | nil => exact absurd (h 0).symm hb
    | cons c m =>
      have hc : c = b := h 0
      have hm : SameBytes m s := fun k ↦ by
        have hk := h (k + 1)
        rwa [load_cons_succ, load_cons_succ] at hk
      rw [str, List.takeWhile_cons_of_pos (by simpa [hc] using hb), hc]
      exact congrArg (b :: ·) (ih hm fun h0 ↦ hs (List.mem_cons_of_mem b h0))

theorem zero_not_mem_str (m : Mem) : (0 : UInt8) ∉ str m := by
  intro h
  have hp := List.mem_takeWhile_imp h
  simp at hp

/-- Writing a string and its terminator over a buffer whose bytes from the terminator on are
already zero. -/
theorem sameBytes_storeAll {m : Mem} {s : List UInt8}
    (h : ∀ k, s.length < k → load m k = 0) : SameBytes (storeAll m 0 (s ++ [0])) s := by
  intro k
  rw [load_storeAll, List.length_append, List.length_singleton, Nat.sub_zero]
  rcases lt_trichotomy k s.length with hlt | rfl | hlt
  · rw [if_pos (by omega), load_append_left hlt]
  · rw [if_pos (by omega), load_append_right le_rfl, Nat.sub_self, load_cons_zero,
      load_eq_zero le_rfl]
  · rw [if_neg (by omega), h k hlt, load_eq_zero hlt.le]

theorem sameBytes_strcpy {dst src : Mem} {s : List UInt8} (h : SameBytes src s)
    (hs : (0 : UInt8) ∉ s) (hdst : ∀ k, s.length < k → load dst k = 0) :
    SameBytes (strcpy dst src) s := by
  rw [strcpy, str_of_sameBytes h hs]
  exact sameBytes_storeAll hdst

def decimal (n : ℕ) : List UInt8 :=
  if n = 0 then [48] else (Nat.digits 10 n).reverse.map fun d ↦ 48 + d.toUInt8

/-- Two buffers hold the same string: they agree up to the first terminator. -/
def SameString (a b : Mem) : Prop :=
  ∀ k, (∀ j < k, load a j ≠ 0) → load a k = load b k

/-- One mismatch behind a stretch without terminator tells two strings apart,
whatever the other buffer holds in that stretch. -/
theorem not_sameString_of_ne {a b : Mem} {k : ℕ} (ha : ∀ j < k, load a j ≠ 0)
    (h : load a k ≠ load b k) : ¬ SameString a b :=
  fun hs ↦ h (hs k ha)

theorem SameString.symm {a b : Mem} (h : SameString a b) : SameString b a := by
  intro k hb
  refine (h k fun j hj ↦ ?_).symm
  induction j using Nat.strong_induction_on with
  | _ j ih =>
    have he : load a j = load b j := h j fun i hi ↦ ih i hi (hi.trans hj)
    exact he ▸ hb j hj

theorem SameString.trans {a b c : Mem} (h : SameString a b) (h' : SameString b c) :
    SameString a c := by
  intro k ha
  have hb : ∀ j < k, load b j ≠ 0 := by
    intro j hj
    rw [← h j fun i hi ↦ ha i (hi.trans hj)]
    exact ha j hj
  exact (h k ha).trans (h' k hb)

theorem str_eq_of_sameString {a b : Mem} (h : SameString a b) : str a = str b := by
  have hhead := h 0 fun j hj ↦ absurd hj (Nat.not_lt_zero j)
  induction a generalizing b with
  | nil =>
    cases b with
    | nil => rfl
    | cons c b => simp_all [str]
  | cons d a ih =>
    cases b with
    | nil => simp_all [str]
    | cons c b =>
      obtain rfl : d = c := hhead
      by_cases hd : d = 0
      · simp [str, hd]
      · have htail : SameString a b := by
          intro k hk
          have hnext := h (k + 1) fun j hj ↦ by
            cases j with
            | zero => exact hd
            | succ j => exact hk j (Nat.lt_of_succ_lt_succ hj)
          rwa [load_cons_succ, load_cons_succ] at hnext
        have hstr : str a = str b := ih htail (htail 0 fun j hj ↦ absurd hj (Nat.not_lt_zero j))
        simpa [str, hd] using hstr

theorem load_str {m : Mem} {k : ℕ} (h : k ≤ (str m).length) : load (str m) k = load m k := by
  induction m generalizing k with
  | nil => rfl
  | cons c m ih =>
    by_cases hc : c = 0
    · have hstr : str (c :: m) = [] := by simp [str, hc]
      rw [hstr, List.length_nil, Nat.le_zero] at h
      rw [hstr, h, load_nil, load_cons_zero, hc]
    · have hstr : str (c :: m) = c :: str m := List.takeWhile_cons_of_pos (by simpa using hc)
      rw [hstr, List.length_cons] at h
      rw [hstr]
      cases k with
      | zero => rfl
      | succ k => rw [load_cons_succ, load_cons_succ, ih (by omega)]

theorem sameString_str (m : Mem) : SameString m (str m) := by
  intro k hk
  have hle : k ≤ (str m).length := by
    by_contra hlong
    refine hk _ (not_le.mp hlong) ?_
    rw [← load_str le_rfl, load_eq_zero le_rfl]
  exact (load_str hle).symm

theorem sameString_of_str_eq {a b : Mem} (h : str a = str b) : SameString a b :=
  (sameString_str a).trans (h ▸ (sameString_str b).symm)

end RealTimeCyclic.CString
