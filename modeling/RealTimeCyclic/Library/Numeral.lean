import RealTimeCyclic.Library.Decimal

namespace RealTimeCyclic.CString

def isDigit (c : UInt8) : Bool := 48 ≤ c && c ≤ 57

def scanNat (text : List UInt8) : Option ℕ :=
  if text.takeWhile isDigit = [] then none else some (decimalValue (text.takeWhile isDigit))

def scanInt (space : UInt8 → Bool) (text : List UInt8) : Option Int :=
  match text.dropWhile space with
  | 45 :: text => (scanNat text).map fun n : ℕ ↦ -(n : Int)
  | 43 :: text => (scanNat text).map fun n : ℕ ↦ (n : Int)
  | text => (scanNat text).map fun n : ℕ ↦ (n : Int)

variable {space : UInt8 → Bool} {c : UInt8} {text rest : List UInt8}

end RealTimeCyclic.CString
