/-! The first line of a text. A line feed ends a line, together with a carriage return in front. -/
namespace ApiCompat.Text

def firstLine : List Char → List Char
  | [] => []
  | '\n' :: _ => []
  | '\r' :: '\n' :: _ => []
  | c :: rest => c :: firstLine rest

end ApiCompat.Text
