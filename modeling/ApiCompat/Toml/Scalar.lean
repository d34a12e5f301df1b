import ApiCompat.Text.Decimal
import ApiCompat.Toml.Value

/-! Unquoted scalars of TOML: booleans, integers in four bases, floats, dates and times. A
scalar is recognised as a whole, from one delimiter to the next. -/
namespace ApiCompat.Toml

open Text (isDecimalDigit decimalValue)

def pieces (separator : Char) : List Char → List (List Char)
  | [] => [[]]
  | c :: rest =>
    match pieces separator rest with
    | [] => [[c]]
    | first :: others => if c = separator then [] :: first :: others else (c :: first) :: others

/-- Digits in groups joined by underscores, without the underscores. -/
def groupedDigits? (isDigit : Char → Bool) (text : List Char) : Option (List Char) :=
  let groups := pieces '_' text
  if groups.all fun group => !group.isEmpty && group.all isDigit then some groups.flatten else none

def plainDigits? (text : List Char) : Option (List Char) :=
  match groupedDigits? isDecimalDigit text with
  | some ('0' :: _ :: _) => none
  | found => found

def splitSign (text : List Char) : Bool × List Char :=
  match text with
  | '-' :: rest => (true, rest)
  | '+' :: rest => (false, rest)
  | _ => (false, text)

def digitValue (c : Char) : Nat :=
  if isDecimalDigit c then c.toNat - '0'.toNat
  else if 'a' ≤ c then c.toNat - 'a'.toNat + 10
  else c.toNat - 'A'.toNat + 10

def isDigitOf (base : Nat) (c : Char) : Bool :=
  (isDecimalDigit c || ('a' ≤ c && c ≤ 'f') || ('A' ≤ c && c ≤ 'F')) && digitValue c < base

def inRange (n : Int) : Bool := Int64.minValue.toInt ≤ n && n ≤ Int64.maxValue.toInt

def based? (base : Nat) (text : List Char) : Option Int := do
  let digits ← groupedDigits? (isDigitOf base) text
  return digits.foldl (fun n c => n * base + digitValue c) (0 : Int)

def integer? (text : List Char) : Option Int :=
  let value := match text with
    | '0' :: 'x' :: digits => based? 16 digits
    | '0' :: 'o' :: digits => based? 8 digits
    | '0' :: 'b' :: digits => based? 2 digits
    | _ =>
      let (negative, digits) := splitSign text
      (plainDigits? digits).map fun found =>
        if negative then -(decimalValue found : Int) else decimalValue found
  value.filter inRange

/-- The number `digits` times ten to the power of `scale` is too large for a float: it is not
below the middle between the largest float and the next power of two. -/
def overflows (digits : Nat) (scale : Int) : Bool :=
  let limit := Nat.pow 2 1024 - Nat.pow 2 970
  if digits = 0 then false
  else if scale > 400 then true
  else if scale ≥ 0 then digits * Nat.pow 10 scale.toNat ≥ limit
  else
    -- With this many places behind the point only as many digits more can reach the limit.
    let shift := min (-scale).toNat (digits.log2 + 1)
    digits / Nat.pow 10 shift ≥ limit

/-- A float with a fraction, an exponent or both; only positive ones can be too large. -/
def isNumericFloat (text : List Char) : Bool :=
  let (negative, unsigned) := splitSign text
  let isExponent (c : Char) : Bool := c == 'e' || c == 'E'
  let mantissa := unsigned.takeWhile (!isExponent ·)
  let whole := mantissa.takeWhile (· != '.')
  let fraction := mantissa.dropWhile (· != '.')
  let exponent := unsigned.dropWhile (!isExponent ·)
  if fraction = [] ∧ exponent = [] then false
  else
    let fractionDigits := if fraction = [] then some []
      else groupedDigits? isDecimalDigit (fraction.drop 1)
    let exponentSign := splitSign (exponent.drop 1)
    let exponentDigits := if exponent = [] then some []
      else groupedDigits? isDecimalDigit exponentSign.2
    match plainDigits? whole, fractionDigits, exponentDigits with
    | some w, some f, some e =>
      let size : Int := decimalValue e
      let scale : Int := (if exponentSign.1 then -size else size) - f.length
      negative || !overflows (decimalValue (w ++ f)) scale
    | _, _, _ => false

def isSpecialFloat (text : List Char) : Bool :=
  let unsigned := (splitSign text).2
  unsigned == ['i', 'n', 'f'] || unsigned == ['n', 'a', 'n']

def fixedDigits? (count : Nat) (text : List Char) : Option (Nat × List Char) :=
  let digits := text.take count
  if digits.length = count ∧ digits.all isDecimalDigit then
    some (decimalValue digits, text.drop count)
  else none

def isLeapYear (year : Nat) : Bool := year % 4 == 0 && (year % 100 != 0 || year % 400 == 0)

def daysIn (year month : Nat) : Nat :=
  if month = 2 then (if isLeapYear year then 29 else 28)
  else if month = 4 ∨ month = 6 ∨ month = 9 ∨ month = 11 then 30
  else 31

def mark? (c : Char) (text : List Char) : Option (List Char) :=
  match text with
  | first :: rest => if first = c then some rest else none
  | [] => none

def afterDate? (text : List Char) : Option (List Char) := do
  let (year, text) ← fixedDigits? 4 text
  let text ← mark? '-' text
  let (month, text) ← fixedDigits? 2 text
  let text ← mark? '-' text
  let (day, text) ← fixedDigits? 2 text
  if 1 ≤ month ∧ month ≤ 12 ∧ 1 ≤ day ∧ day ≤ daysIn year month then some text else none

def afterMinutes? (text : List Char) : Option (List Char) := do
  let (hour, text) ← fixedDigits? 2 text
  let text ← mark? ':' text
  let (minute, text) ← fixedDigits? 2 text
  if hour ≤ 23 ∧ minute ≤ 59 then some text else none

def afterTime? (text : List Char) : Option (List Char) := do
  let text ← afterMinutes? text
  let text ← mark? ':' text
  let (second, text) ← fixedDigits? 2 text
  if second > 60 then none
  else
    match text with
    | '.' :: places =>
      if (places.takeWhile isDecimalDigit).isEmpty then none
      else some (places.dropWhile isDecimalDigit)
    | _ => some text

def isOffset (text : List Char) : Bool :=
  match text with
  | [] => true
  | [c] => c == 'Z' || c == 'z'
  | c :: rest => (c == '+' || c == '-') && afterMinutes? rest == some []

def isTimeOfDate (text : List Char) : Bool := (afterTime? text).any isOffset

def isMoment (text : List Char) : Bool :=
  match afterDate? text with
  | some [] => true
  | some (c :: time) => (c == 'T' || c == 't') && isTimeOfDate time
  | none => afterTime? text == some []

def scalar? (text : List Char) : Option Value :=
  if text = "true".toList then some (.boolean true)
  else if text = "false".toList then some (.boolean false)
  else if isSpecialFloat text || isNumericFloat text then some .float
  else if isMoment text then some .moment
  else (integer? text).map .integer

def isScalarChar (c : Char) : Bool :=
  isDecimalDigit c || ('a' ≤ c && c ≤ 'z') || ('A' ≤ c && c ≤ 'Z') ||
    c == '_' || c == '+' || c == '-' || c == '.' || c == ':'

/-- Reads an unquoted scalar. One blank may stand between a date and its time. -/
def readScalar (text : List Char) : Option (Value × List Char) :=
  let word := text.takeWhile isScalarChar
  let rest := text.dropWhile isScalarChar
  let plain := (scalar? word).map fun value => (value, rest)
  match rest with
  | ' ' :: c :: more =>
    if afterDate? word == some [] && isDecimalDigit c then
      let time := (c :: more).takeWhile isScalarChar
      if isTimeOfDate time then some (.moment, (c :: more).dropWhile isScalarChar) else none
    else plain
  | _ => plain

end ApiCompat.Toml
