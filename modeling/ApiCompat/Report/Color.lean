import ApiCompat.Diagnostic.Log

/-! Terminal colors. A colored text stands between the sequence of its color and the reset
sequence; where the text itself holds a reset, the color begins again behind it. -/
namespace ApiCompat.Report

inductive Color where
  | bold
  | boldRed
  | boldYellow
  deriving DecidableEq, Repr

namespace Color

def escapeCharacter : Char := '\x1b'

def reset : List Char := [escapeCharacter, '[', '0', 'm']

def sequence (color : Color) : List Char :=
  [escapeCharacter, '['] ++ (match color with
    | bold => ['1']
    | boldRed => ['1', ';', '3', '1']
    | boldYellow => ['1', ';', '3', '3']) ++ ['m']

def resume (color : Color) : List Char → List Char
  | '\x1b' :: '[' :: '0' :: 'm' :: rest => reset ++ color.sequence ++ resume color rest
  | c :: rest => c :: resume color rest
  | [] => []

def paint (color : Color) (text : String) : String :=
  String.ofList (color.sequence ++ color.resume text.toList ++ reset)

def ofSeverity : Severity → Color
  | .error => boldRed
  | .warning => boldYellow
  | .hidden => bold

end Color

def line (colored : Bool) (d : Diagnostic) : String :=
  if colored then
    let place := match d.location with
      | some position => Color.bold.paint position.text ++ ": "
      | none => ""
    place ++ (Color.ofSeverity d.severity).paint d.severity.text ++ " " ++
      Nat.repr d.category.code ++ ": " ++ d.message
  else d.text

end ApiCompat.Report
