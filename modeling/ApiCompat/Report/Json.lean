/-! JSON text. A value is written on one line without blanks, or indented by two blanks a
level. Only quotes, backslashes and control characters below the blank are escaped. -/
namespace ApiCompat.Report

inductive Json where
  | number (n : Nat)
  | text (value : String)
  | list (items : List Json)
  | object (members : List (String × Json))
  deriving Inhabited

namespace Json

/-- The escape of a control character that has no letter: four hexadecimal digits. -/
def controlEscape (c : Char) : List Char :=
  let digits := Nat.toDigits 16 c.toNat
  ['\\', 'u'] ++ List.replicate (4 - digits.length) '0' ++ digits

def escape (c : Char) : List Char :=
  match c with
  | '"' => ['\\', '"']
  | '\\' => ['\\', '\\']
  | '\x08' => ['\\', 'b']
  | '\x0c' => ['\\', 'f']
  | '\n' => ['\\', 'n']
  | '\r' => ['\\', 'r']
  | '\t' => ['\\', 't']
  | _ => if c.toNat < 32 then controlEscape c else [c]

def quote (value : String) : String :=
  String.ofList ('"' :: value.toList.flatMap escape ++ ['"'])

inductive Layout where
  | line
  | indented (level : Nat)
  deriving DecidableEq, Repr

namespace Layout

def inner : Layout → Layout
  | line => line
  | indented level => indented (level + 1)

def gap : Layout → String
  | line => ""
  | indented level => String.ofList ('\n' :: List.replicate (2 * level) ' ')

def colon : Layout → String
  | line => ":"
  | indented _ => ": "

/-- Items between brackets; an empty pair stays closed in every layout. -/
def enclose (layout : Layout) (opening closing : String) (items : List String) : String :=
  if items.isEmpty then opening ++ closing
  else
    let gap := layout.inner.gap
    opening ++ gap ++ ("," ++ gap).intercalate items ++ layout.gap ++ closing

end Layout

mutual

def write (layout : Layout) : Json → String
  | number n => Nat.repr n
  | text value => quote value
  | list items => layout.enclose "[" "]" (writeItems layout.inner items)
  | object members => layout.enclose "\x7b" "\x7d" (writeMembers layout.inner members)

def writeItems (layout : Layout) : List Json → List String
  | [] => []
  | item :: rest => item.write layout :: writeItems layout rest

def writeMembers (layout : Layout) : List (String × Json) → List String
  | [] => []
  | (key, value) :: rest =>
    (quote key ++ layout.colon ++ value.write layout) :: writeMembers layout rest

end

end Json

end ApiCompat.Report
