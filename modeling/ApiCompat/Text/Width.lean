import ApiCompat.Text.Columnless
import ApiCompat.Text.Wide

/-! Terminal columns. East Asian characters take two columns, marks and controls take none, and
each character is measured by itself. -/
namespace ApiCompat.Text

def charWidth (c : Char) : Nat :=
  if columnless.has c then 0 else if wideCharacters.has c then 2 else 1

def width (text : List Char) : Nat := text.foldr (fun c columns => charWidth c + columns) 0

end ApiCompat.Text
