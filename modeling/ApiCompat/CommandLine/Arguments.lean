import ApiCompat.CommandLine.UsageError
import ApiCompat.Report.Format

/-! Reading a command line. The options for severities may be written with a single hyphen; these
spellings are replaced first. Then arguments are read from left to right. An option waits for its
value, and the value is examined only when the next option, switch or operand is reached or
the line ends, so an argument that nothing expects is reported in front of it. Behind two
hyphens that stand alone every argument is an operand, and nothing is replaced. The three
options for severities are gathered apart, and their indices tell the order of the line. -/
namespace ApiCompat.CommandLine

open Report (Format)

def hyphenated : List (String × String) :=
  [("-error", "--error"), ("-warning", "--warning"), ("-hide", "--hide")]

def normalizeArgument (argument : String) : String :=
  (hyphenated.lookup argument).getD argument

def normalize : List String → List String
  | [] => []
  | argument :: rest =>
    if argument = "--" then argument :: rest else normalizeArgument argument :: normalize rest

/-- A code, under the index of the argument that gave it. -/
structure Mention where
  index : Nat
  code : Nat
  deriving DecidableEq, Repr

structure Arguments where
  /-- The index of the last option, switch, value or operand. -/
  index : Nat
  error : List Mention
  warning : List Mention
  hide : List Mention
  format : Option Format
  config : Option String
  switches : List Switch
  operands : List String
  deriving DecidableEq, Repr

namespace Arguments

def empty : Arguments := ⟨0, [], [], [], none, none, [], []⟩

def has (arguments : Arguments) (switch : Switch) : Bool := arguments.switches.contains switch

/-- Takes a code for a severity. The option has an index of its own, before that of the code. -/
def mention (arguments : Arguments) (severity : Severity) (code : Nat) : Arguments :=
  let index := arguments.index + 2
  match severity with
  | .error => { arguments with index, error := arguments.error ++ [⟨index, code⟩] }
  | .warning => { arguments with index, warning := arguments.warning ++ [⟨index, code⟩] }
  | .hidden => { arguments with index, hide := arguments.hide ++ [⟨index, code⟩] }

def addSwitch (arguments : Arguments) (switch : Switch) : Arguments :=
  { arguments with index := arguments.index + 1, switches := arguments.switches ++ [switch] }

def addOperand (arguments : Arguments) (operand : String) : Arguments :=
  { arguments with index := arguments.index + 1, operands := arguments.operands ++ [operand] }

def graded (mentions : List Mention) (severity : Severity) : List (Nat × Nat × Severity) :=
  mentions.map fun mention => (mention.index, mention.code, severity)

def indexed (arguments : Arguments) : List (Nat × Nat × Severity) :=
  graded arguments.error .error ++ graded arguments.warning .warning ++
    graded arguments.hide .hidden

/-- The severities given to codes, from left to right. -/
def overrides (arguments : Arguments) : List (Nat × Severity) :=
  (arguments.indexed.mergeSort fun a b => a.1 ≤ b.1).map (·.2)

end Arguments

inductive Stop where
  | usage (e : UsageError)
  | version
  | help (long : Bool)
  deriving DecidableEq, Repr

structure Progress where
  arguments : Arguments
  /-- The option that waits to be settled, with its value if that was seen. -/
  pending : Option (ValueOption × Option String)
  deriving DecidableEq, Repr

namespace Arguments

def take (arguments : Arguments) (option : ValueOption) (value : String) :
    Except UsageError Arguments :=
  match option with
  | .severity s =>
    match readCode value with
    | .ok code => .ok (arguments.mention s code)
    | .error fault => .error (.invalidCode value s fault)
  | .format =>
    if arguments.format.isSome then .error (.repeatedOption .format)
    else match Format.ofName? value with
      | some format => .ok { arguments with index := arguments.index + 2, format := some format }
      | none => .error (if value = "" then .missingValue .format else .invalidFormat value)
  | .config =>
    if arguments.config.isSome then .error (.repeatedOption .config)
    else if value = "" then .error (.missingValue .config)
    else .ok { arguments with index := arguments.index + 2, config := some value }

end Arguments

namespace Progress

def start : Progress := ⟨.empty, none⟩

def settle (progress : Progress) : Except Stop Arguments :=
  match progress.pending with
  | none => .ok progress.arguments
  | some (option, none) => .error (.usage (.missingValue option))
  | some (option, some value) => (progress.arguments.take option value).mapError .usage

def unexpected (argument : String) : Except Stop Progress :=
  .error (.usage (.unexpectedArgument argument))

def takeOption (progress : Progress) (option : ValueOption) (attached : Option String) :
    Except Stop Progress := do
  let arguments ← progress.settle
  match attached with
  | none => return ⟨arguments, some (option, none)⟩
  | some value => return ⟨← (arguments.take option value).mapError .usage, none⟩

def takeSwitch (progress : Progress) (switch : Switch) (long : Bool) : Except Stop Progress := do
  let arguments ← progress.settle
  match switch with
  | .version => .error .version
  | .help => .error (.help long)
  | _ =>
    if arguments.has switch then .error (.usage (.repeatedSwitch switch))
    else return ⟨arguments.addSwitch switch, none⟩

def takeOperand (progress : Progress) (operand : String) : Except Stop Progress :=
  if progress.arguments.operands.length = 2 then unexpected operand
  else do
    let arguments ← progress.settle
    return ⟨arguments.addOperand operand, none⟩

def takeLong (progress : Progress) (name : String) (attached : Option String) :
    Except Stop Progress :=
  match ValueOption.ofName? name with
  | some option => progress.takeOption option attached
  | none =>
    match Switch.ofName? name, attached with
    | some switch, none => progress.takeSwitch switch true
    | some switch, some value => .error (.usage (.unexpectedValue value switch))
    | none, _ => unexpected ("--" ++ name)

def takeLetters (progress : Progress) : List Char → Except Stop Progress
  | [] => .ok progress
  | c :: rest =>
    match Switch.ofLetter? c with
    | some switch => do (← progress.takeSwitch switch false).takeLetters rest
    | none => unexpected (String.ofList ['-', c])

def takePlain (progress : Progress) (argument : String) : Except Stop Progress :=
  match progress.pending with
  | some (option, none) => .ok { progress with pending := some (option, some argument) }
  | _ => progress.takeOperand argument

inductive Word where
  | long (name : String) (attached : Option String)
  | letters (letters : List Char)
  | plain (argument : String)
  deriving DecidableEq, Repr

def Word.ofArgument (argument : String) : Word :=
  match argument.toList with
  | '-' :: '-' :: text =>
    let name := String.ofList (text.takeWhile (· ≠ '='))
    match text.dropWhile (· ≠ '=') with
    | [] => .long name none
    | _ :: value => .long name (some (String.ofList value))
  | '-' :: c :: rest => .letters (c :: rest)
  | _ => .plain argument

def takeWord (progress : Progress) : Word → Except Stop Progress
  | .long name attached => progress.takeLong name attached
  | .letters letters => progress.takeLetters letters
  | .plain argument => progress.takePlain argument

def readAll (progress : Progress) : List String → Except Stop Progress
  | [] => .ok progress
  | argument :: rest =>
    if argument = "--" then rest.foldlM takeOperand progress
    else do (← progress.takeWord (.ofArgument argument)).readAll rest

end Progress

namespace Arguments

def conflict? (arguments : Arguments) : Option (Switch × Switch) :=
  match arguments.switches.filter fun s => s = .verbose ∨ s = .quiet with
  | first :: second :: _ => some (first, second)
  | _ => none

def validate (arguments : Arguments) : Except UsageError Arguments :=
  match arguments.conflict? with
  | some (first, second) => .error (.conflict first second)
  | none =>
    if arguments.operands.length = 2 ∨ arguments.has .listCategories then .ok arguments
    else .error .missingSnapshots

def parse (line : List String) : Except Stop Arguments := do
  let progress ← Progress.start.readAll (normalize line)
  let arguments ← progress.settle
  arguments.validate.mapError .usage

end Arguments

end ApiCompat.CommandLine
