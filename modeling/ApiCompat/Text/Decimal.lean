/-! Decimal numerals of ASCII digits, read into natural numbers and into 32-bit words. -/
namespace ApiCompat.Text

def isDecimalDigit (c : Char) : Bool := '0' ≤ c && c ≤ '9'

def decimalValue (digits : List Char) : Nat :=
  digits.foldl (fun value c => value * 10 + (c.toNat - '0'.toNat)) 0

def readDecimal? (s : List Char) : Option Nat :=
  if s ≠ [] ∧ s.all isDecimalDigit then some (decimalValue s) else none

/-- A 32-bit number: digits with an optional leading plus sign. -/
def readWord? (s : List Char) : Option UInt32 :=
  let digits := match s with
    | '+' :: rest => rest
    | _ => s
  match readDecimal? digits with
  | some n => if n < UInt32.size then some (UInt32.ofNat n) else none
  | none => none

end ApiCompat.Text
