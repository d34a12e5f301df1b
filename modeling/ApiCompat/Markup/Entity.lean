import ApiCompat.Text.Decimal
import ApiCompat.Text.Quoted

/-! Character references in attribute values. A reference stands between an ampersand and
a semicolon and is one of five names or a number. Places are counted in bytes of the value. -/
namespace ApiCompat.Markup

inductive EntityFault where
  | unterminated (start stop : Nat)
  | unknownName (start stop : Nat) (name : String)
  | longHexadecimal
  | longDecimal
  | badHexadecimal (byte : UInt8)
  | badDecimal (byte : UInt8)
  | null (start stop : Nat)
  | noCharacter (code : Nat)
  deriving DecidableEq, Repr

namespace EntityFault

def atRange (start stop : Nat) (text : String) : String :=
  "Error while escaping character at range " ++ Nat.repr start ++ ".." ++ Nat.repr stop ++
    ": " ++ text

def byteText (b : UInt8) : String := String.singleton (Char.ofNat b.toNat)

def message : EntityFault → String
  | unterminated start stop => atRange start stop "Cannot find ';' after '&'"
  | unknownName start stop name =>
    atRange start stop ("Unrecognized escape symbol: " ++ Text.quoted name)
  | longHexadecimal => "Cannot convert hexadecimal to utf8"
  | longDecimal => "Cannot convert decimal to utf8"
  | badHexadecimal byte => "'" ++ byteText byte ++ "' is not a valid hexadecimal character"
  | badDecimal byte => "'" ++ byteText byte ++ "' is not a valid decimal character"
  | null start stop => atRange start stop "Null character entity not allowed"
  | noCharacter code => "'" ++ Nat.repr code ++ "' is not a valid codepoint"

end EntityFault

def byteLength (text : List Char) : Nat := text.foldr (fun c bytes => c.utf8Size + bytes) 0

def firstByte (c : Char) : UInt8 := (String.utf8EncodeChar c).headD 0

def isHexDigit (c : Char) : Bool :=
  Text.isDecimalDigit c || ('a' ≤ c && c ≤ 'f') || ('A' ≤ c && c ≤ 'F')

def hexDigitValue (c : Char) : Nat :=
  if Text.isDecimalDigit c then c.toNat - '0'.toNat
  else if 'a' ≤ c then c.toNat - 'a'.toNat + 10
  else c.toNat - 'A'.toNat + 10

def hexadecimalValue (digits : List Char) : Nat :=
  digits.foldl (fun value c => value * 16 + hexDigitValue c) 0

/-- The number written behind the hash sign: at most six hexadecimal digits behind an `x`, or
at most seven decimal ones. -/
def characterCode (text : List Char) : Except EntityFault Nat :=
  match text with
  | 'x' :: digits =>
    if byteLength digits > 6 then .error .longHexadecimal
    else match digits.find? (!isHexDigit ·) with
      | some c => .error (.badHexadecimal (firstByte c))
      | none => .ok (hexadecimalValue digits)
  | digits =>
    if byteLength digits > 7 then .error .longDecimal
    else match digits.find? (!Text.isDecimalDigit ·) with
      | some c => .error (.badDecimal (firstByte c))
      | none => .ok (Text.decimalValue digits)

def characterOfCode (start stop code : Nat) : Except EntityFault Char :=
  if code = 0 then .error (.null start stop)
  else if code.isValidChar then .ok (Char.ofNat code)
  else .error (.noCharacter code)

/-- The character that a reference stands for; the ampersand is at `start`, the semicolon at
`stop`. -/
def referenced (start stop : Nat) (name : List Char) : Except EntityFault Char :=
  match name with
  | '#' :: number => do characterOfCode start stop (← characterCode number)
  | ['l', 't'] => .ok '<'
  | ['g', 't'] => .ok '>'
  | ['a', 'm', 'p'] => .ok '&'
  | ['a', 'p', 'o', 's'] => .ok '\''
  | ['q', 'u', 'o', 't'] => .ok '"'
  | _ => .error (.unknownName (start + 1) stop (String.ofList name))

def endsReference (c : Char) : Bool := c == '&' || c == ';'

def expandFrom (total index : Nat) (text : List Char) : Except EntityFault (List Char) :=
  match text with
  | [] => .ok []
  | '&' :: rest =>
    let name := rest.takeWhile (!endsReference ·)
    let stop := index + 1 + byteLength name
    match _closed : rest.dropWhile (!endsReference ·) with
    | ';' :: after => do
      let c ← referenced index stop name
      let others ← expandFrom total (stop + 1) after
      return c :: others
    | _ => .error (.unterminated index total)
  | c :: rest => do
    let others ← expandFrom total (index + c.utf8Size) rest
    return c :: others
termination_by text.length
decreasing_by
  · have := (List.dropWhile_sublist (!endsReference ·) (l := rest)).length_le
    rw [_closed] at this
    simp only [List.length_cons] at this ⊢
    omega
  · simp

def expandEntities (text : List Char) : Except EntityFault (List Char) :=
  expandFrom (byteLength text) 0 text

end ApiCompat.Markup
