import RealTimeCyclic.Library.CString

namespace RealTimeCyclic.Layout

open CString

def wordByte (w k : ℕ) : UInt8 := (w / 256 ^ k).toUInt8

def setWordByte (w k : ℕ) (b : UInt8) : ℕ :=
  w / 256 ^ (k + 1) * 256 ^ (k + 1) + b.toNat * 256 ^ k + w % 256 ^ k

/-- A field of four bytes. -/
structure Field (σ : Type*) where
  get : σ → ℕ
  set : σ → ℕ → σ

/-- A buffer of a structure and the fields behind it, as far as they can be reached through
the buffer. -/
structure Buffer (σ : Type*) where
  size : ℕ
  get : σ → Mem
  set : σ → Mem → σ
  fields : List (Field σ)
  get_set : ∀ s m, get (set s m) = m
  set_set : ∀ s m m', set (set s m) m' = set s m'
  set_get : ∀ s, set s (get s) = s

namespace Buffer

variable {σ : Type*} (l : Buffer σ) (s : σ)

def load (k : ℕ) : UInt8 :=
  if k < l.size then CString.load (l.get s) k
  else
    match l.fields[(k - l.size) / 4]? with
    | some field => wordByte (field.get s) ((k - l.size) % 4)
    | none => 0

def store (k : ℕ) (b : UInt8) : σ :=
  if k < l.size then l.set s (CString.store (l.get s) k b)
  else
    match l.fields[(k - l.size) / 4]? with
    | some field => field.set s (setWordByte (field.get s) ((k - l.size) % 4) b)
    | none => s

def storeAll (s : σ) (k : ℕ) : List UInt8 → σ
  | [] => s
  | b :: bs => storeAll (l.store s k b) (k + 1) bs

def bytes : Mem := (List.range (l.size + 4 * l.fields.length)).map (l.load s)

variable {l s} {k : ℕ}

theorem load_bytes (h : k < l.size) : CString.load (l.bytes s) k = CString.load (l.get s) k := by
  rw [CString.load, bytes, List.getD_eq_getElem?_getD, List.getElem?_map,
    List.getElem?_range (by omega), Option.map_some, Option.getD_some, load, if_pos h]

theorem store_of_lt (h : k < l.size) (b : UInt8) :
    l.store s k b = l.set s (CString.store (l.get s) k b) := if_pos h

theorem storeAll_of_le {bs : List UInt8} (h : k + bs.length ≤ l.size) :
    l.storeAll s k bs = l.set s (CString.storeAll (l.get s) k bs) := by
  induction bs generalizing s k with
  | nil => exact (l.set_get s).symm
  | cons b bs ih =>
    rw [List.length_cons] at h
    rw [storeAll, CString.storeAll, ih (by omega), store_of_lt (by omega), l.get_set, l.set_set]

theorem sameString_bytes (h : k < l.size) (hk : CString.load (l.get s) k = 0) :
    SameString (l.bytes s) (l.get s) := by
  intro n hn
  apply load_bytes
  by_contra hlong
  refine hn k (h.trans_le (not_lt.mp hlong)) ?_
  rw [load_bytes h, hk]

end Buffer

end RealTimeCyclic.Layout
