import ApiCompat.Text.Blank
import ApiCompat.Text.Decimal

/-! Source positions. A position is written as a file, a colon and a line; it is read by
cutting at the last colon, and a text whose end is no line number is a file with line zero. -/
namespace ApiCompat

structure Position where
  file : String
  line : UInt32
  deriving DecidableEq, Repr, Inhabited

namespace Position

def splitAtLastColon? (text : List Char) : Option (List Char × List Char) :=
  match text.reverse.dropWhile (· != ':') with
  | [] => none
  | _ :: file => some (file.reverse, (text.reverse.takeWhile (· != ':')).reverse)

/-- Reads a position; nothing is read from white space. -/
def parse? (token : String) : Option Position :=
  let text := Text.trim token.toList
  if text = [] then none
  else
    let whole : Position := ⟨String.ofList text, 0⟩
    match splitAtLastColon? text with
    | none => some whole
    | some (file, digits) =>
      match Text.readWord? digits with
      | some line => some ⟨String.ofList file, line⟩
      | none => some whole

def text (p : Position) : String := p.file ++ ":" ++ Nat.repr p.line.toNat

/-- By file, character by character, then by line. -/
def le (a b : Position) : Bool := a.file < b.file || a.file == b.file && a.line ≤ b.line

end Position

end ApiCompat
