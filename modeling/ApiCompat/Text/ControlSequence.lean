/-! The control sequences of terminals, as far as they tell which characters of a text are shown.
A sequence starts with an escape character wherever it stands; what it commands plays no part. -/
namespace ApiCompat.Text

inductive ControlSequence where
  | escape
  | designation
  /-- A sequence of parameters and a final letter, after the escape character and `[`. -/
  | control
  | device
  | deviceParameters
  | deviceIntermediates
  /-- The body of a device control string, or a string for an application. -/
  | body
  | command
  deriving DecidableEq, Repr

def stringTerminator : UInt8 := 0x9C

def endsBody (c : Char) : Bool := (String.utf8EncodeChar c).contains stringTerminator

namespace ControlSequence

def extend (sequence : ControlSequence) (c : Char) : Option ControlSequence :=
  match sequence with
  | escape =>
    if ' ' ≤ c ∧ c ≤ '/' then some designation
    else if c = 'P' then some device
    else if c = '[' then some control
    else if c = ']' then some command
    else if c = 'X' ∨ c = '^' ∨ c = '_' then some body
    else if '0' ≤ c ∧ c ≤ '~' then none
    else some escape
  | designation => if '0' ≤ c ∧ c ≤ '~' then none else some designation
  | control => if '@' ≤ c ∧ c ≤ '~' then none else some control
  | device =>
    if ' ' ≤ c ∧ c ≤ '/' then some deviceIntermediates
    else if '0' ≤ c ∧ c ≤ '?' then some deviceParameters
    else if '@' ≤ c ∧ c ≤ '~' then some body
    else some device
  | deviceParameters =>
    if ' ' ≤ c ∧ c ≤ '/' then some deviceIntermediates
    else if '<' ≤ c ∧ c ≤ '~' then some body
    else some deviceParameters
  | deviceIntermediates => if '0' ≤ c ∧ c ≤ '~' then some body else some deviceIntermediates
  | body => if endsBody c then none else some body
  | command => if c = '\x07' then none else some command

/-- Layout inside the sequence is carried out, and the sequence goes on after it. -/
def admitsLayout : ControlSequence → Bool
  | escape | designation | control => true
  | _ => false

end ControlSequence

def isLayout (c : Char) : Bool := c = '\t' || c = '\n' || c = '\x0c' || c = '\r'

def isSilent (c : Char) : Bool := (c < ' ' && !isLayout c) || c = '\x7f'

inductive Display where
  /-- It is shown. Layout has interrupted the sequence given, if any, and the next silent character
  goes on with it. -/
  | shown (interrupted : Option ControlSequence)
  | hidden (sequence : ControlSequence)
  deriving DecidableEq, Repr

namespace Display

/-- Whether a character is shown, and what is done with the one after it. A non-ASCII character
puts an interrupted sequence out of mind. -/
def step (display : Display) (c : Char) : Bool × Display :=
  if c = '\x1b' then (false, hidden .escape)
  else if c = '\x18' ∨ c = '\x1a' then (false, shown none)
  else match display with
    | shown interrupted =>
      if isSilent c then (false, interrupted.elim (shown none) hidden)
      else if c ≤ '\x7f' then (true, shown interrupted)
      else (true, shown none)
    | hidden sequence =>
      if isLayout c && sequence.admitsLayout then (true, shown (some sequence))
      else (false, (sequence.extend c).elim (shown none) hidden)

def visible (display : Display) : List Char → List Char
  | [] => []
  | c :: rest =>
    let (isShown, next) := display.step c
    if isShown then c :: next.visible rest else next.visible rest

end Display

def visible (text : String) : String :=
  String.ofList ((Display.shown none).visible text.toList)

end ApiCompat.Text
