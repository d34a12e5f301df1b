import ApiCompat.Text.Mark
import ApiCompat.Text.Unprintable

/-! Quoted text: a text between double quotes in which quotes, backslashes, unprintable
characters and marks, which would join the character in front of them, are escaped. -/
namespace ApiCompat.Text

def isPrintable (c : Char) : Bool :=
  !(marks.has c || lowerUnprintable.has c || upperUnprintable.has c)

/-- An escape by code point, in hexadecimal without leading zeros. -/
def codeEscape (c : Char) : List Char :=
  ['\\', 'u', '\x7b'] ++ Nat.toDigits 16 c.toNat ++ ['\x7d']

def quotedChar (c : Char) : List Char :=
  match c with
  | '\x00' => ['\\', '0']
  | '\t' => ['\\', 't']
  | '\r' => ['\\', 'r']
  | '\n' => ['\\', 'n']
  | '"' => ['\\', '"']
  | '\\' => ['\\', '\\']
  | _ => if isPrintable c then [c] else codeEscape c

def quoted (text : String) : String :=
  String.ofList ('"' :: text.toList.flatMap quotedChar ++ ['"'])

end ApiCompat.Text
