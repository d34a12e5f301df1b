import ApiCompat.Text.Decimal

/-! Category codes on the command line: a whole number of 64 bits with an optional sign, and
of these the numbers of 32 bits without one. -/
namespace ApiCompat.CommandLine

inductive CodeFault where
  | empty
  | invalidDigit
  | tooLarge
  | tooSmall
  | outOfRange (n : Int)
  deriving DecidableEq, Repr

def CodeFault.message : CodeFault → String
  | empty => "cannot parse integer from empty string"
  | invalidDigit => "invalid digit found in string"
  | tooLarge => "number too large to fit in target type"
  | tooSmall => "number too small to fit in target type"
  | outOfRange n => Int.repr n ++ " is not in 0..=4294967295"

/-- Reads the digits that continue a number. Of a wrong digit and an excess over the limit the
one further to the left is the fault. -/
def readDigits (limit : Nat) (excess : CodeFault) (n : Nat) : List Char → Except CodeFault Nat
  | [] => .ok n
  | c :: rest =>
    if Text.isDecimalDigit c then
      let longer := n * 10 + (c.toNat - '0'.toNat)
      if longer ≤ limit then readDigits limit excess longer rest else .error excess
    else .error .invalidDigit

def readInteger (text : List Char) : Except CodeFault Int :=
  match text with
  | [] => .error .empty
  | ['+'] | ['-'] => .error .invalidDigit
  | '-' :: digits => (readDigits (Nat.pow 2 63) .tooSmall 0 digits).map fun n => -(n : Int)
  | '+' :: digits => (readDigits (Nat.pow 2 63 - 1) .tooLarge 0 digits).map Int.ofNat
  | digits => (readDigits (Nat.pow 2 63 - 1) .tooLarge 0 digits).map Int.ofNat

def readCode (text : String) : Except CodeFault Nat := do
  let n ← readInteger text.toList
  if 0 ≤ n ∧ n.toNat < UInt32.size then return n.toNat else .error (.outOfRange n)

end ApiCompat.CommandLine
