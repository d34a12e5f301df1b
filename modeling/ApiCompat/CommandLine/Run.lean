import ApiCompat.CommandLine.Arguments
import ApiCompat.CommandLine.Help
import ApiCompat.CommandLine.Surroundings
import ApiCompat.Compatibility.Comparison
import ApiCompat.Report.Color
import ApiCompat.Report.Content

/-! A run of the program, from its arguments to its status and texts. Settings come first, then
the overrides of the settings file and of the command line, and only then the snapshots. How
a result is presented has no part in the result. -/
namespace ApiCompat.CommandLine

open Report (Format Color)

inductive Side where
  | old
  | new
  deriving DecidableEq, Repr

def Side.text : Side → String
  | old => "old"
  | new => "new"

inductive Failure where
  | settings (path : String) (fault : SettingsFault)
  | unknownCode (code : Nat)
  | inputTwice
  | snapshot (side : Side) (path : String) (fault : SnapshotFault)
  deriving DecidableEq, Repr

namespace Failure

def message : Failure → String
  | settings path (.path fault) => "failed to read " ++ path ++ ": " ++ fault.message
  | settings path .malformedText =>
    "failed to read " ++ path ++ ": stream did not contain valid UTF-8"
  | settings path .unparsable => "failed to parse " ++ path
  | unknownCode code => SeverityTable.unknownCodeText code
  | inputTwice => "standard input can supply only one of the two snapshots"
  | snapshot side path fault =>
    "failed to load " ++ side.text ++ " snapshot '" ++ path ++ "': " ++ fault.message

def status : Failure → Nat
  | snapshot _ _ _ => 3
  | _ => 2

/-- The details of a settings file that cannot be parsed are not shown, nor is its line ended. -/
def ending : Failure → String
  | settings _ .unparsable => ""
  | _ => "\n"

end Failure

inductive Result where
  | categories (severities : SeverityTable)
  | comparison (old new : String) (log : Log)

def Result.status : Result → Nat
  | categories _ => 0
  | comparison _ _ log => if log.hadError then 1 else 0

/-- The severities in force: those of the settings, then those of the command line. -/
def severities (settings : Settings) (arguments : Arguments) : Except Failure SeverityTable :=
  (SeverityTable.default.applyAll (settings.overrides ++ arguments.overrides)).mapError
    .unknownCode

/-- Compares the snapshots of two paths; of two failures that of the old one counts. -/
def compareSnapshots (severities : SeverityTable) (old new : String) (s : Surroundings) :
    Except Failure Result := do
  if old = standardInputPath ∧ new = standardInputPath then .error .inputTwice
  else
    let before ← (s.snapshot old).mapError (.snapshot .old old)
    let after ← (s.snapshot new).mapError (.snapshot .new new)
    return .comparison old new (Compatibility.check severities before after)

def judge (severities : SeverityTable) (arguments : Arguments) (s : Surroundings) :
    Except Failure Result :=
  if arguments.has .listCategories then .ok (.categories severities)
  else compareSnapshots severities (arguments.operands[0]?.getD "")
    (arguments.operands[1]?.getD "") s

structure Style where
  format : Format
  colored : Bool
  compact : Bool
  deriving DecidableEq, Repr

/-- The command line goes before the settings; a form that the settings misname is passed over. -/
def Style.choose (settings : Settings) (arguments : Arguments) : Style where
  format := (arguments.format.or (settings.format.bind Format.ofAnyCase?)).getD .text
  colored := !arguments.has .noColor && settings.color.getD false
  compact := arguments.has .compact

structure Outcome where
  status : Nat
  output : String
  errors : String
  deriving DecidableEq, Repr

def Failure.outcome (colored : Bool) (failure : Failure) : Outcome :=
  let mark := if colored then Color.boldRed.paint "error:" else "error:"
  ⟨failure.status, "", mark ++ " " ++ failure.message ++ failure.ending⟩

namespace Style

def writeJson (style : Style) (value : Report.Json) : String :=
  value.write (if style.compact then .line else .indented 0) ++ "\n"

def writeTable (style : Style) (table : Report.Table) : String :=
  table.write (!style.compact) ++ "\n"

def output (style : Style) : Result → String
  | .categories severities =>
    match style.format with
    | .json => style.writeJson (Report.categoriesJson severities)
    | _ => style.writeTable (Report.categoriesTable severities)
  | .comparison old new log =>
    match style.format with
    | .text => ""
    | .json => style.writeJson (Report.comparisonJson old new log)
    | .table =>
      if log.sorted.isEmpty then "(no diagnostics)\n"
      else style.writeTable (Report.diagnosticsTable log.sorted)

def errors (style : Style) : Result → String
  | .comparison _ _ log =>
    match style.format with
    | .text => String.join (log.sorted.map fun d => Report.line style.colored d ++ "\n")
    | _ => ""
  | .categories _ => ""

def outcome (style : Style) : Except Failure Result → Outcome
  | .ok result => ⟨result.status, style.output result, style.errors result⟩
  | .error failure => failure.outcome style.colored

end Style

/-- Runs a command line that was read. What fails before the style is known is not colored. -/
def Arguments.run (arguments : Arguments) (s : Surroundings) : Outcome :=
  match s.settings arguments.config with
  | .error (path, fault) => (Failure.settings path fault).outcome false
  | .ok settings =>
    match severities settings arguments with
    | .error failure => failure.outcome false
    | .ok table => (Style.choose settings arguments).outcome (judge table arguments s)

def Stop.outcome : Stop → Outcome
  | usage e => ⟨2, "", e.line⟩
  | version => ⟨0, versionText, ""⟩
  | help long => ⟨0, helpText long, ""⟩

def run (line : List String) (s : Surroundings) : Outcome :=
  match Arguments.parse line with
  | .error stop => stop.outcome
  | .ok arguments => arguments.run s

end ApiCompat.CommandLine
