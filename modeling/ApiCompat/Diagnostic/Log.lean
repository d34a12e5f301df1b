import ApiCompat.Diagnostic.SeverityTable
import ApiCompat.Snapshot.Position

/-! Findings and the log that keeps them. A finding receives the severity of its category when
it is recorded; a hidden one is counted and not kept. Reports list errors first, located
before unlocated, by position, and otherwise in the order of recording. -/
namespace ApiCompat

/-- One change between two snapshots, as yet without severity. -/
structure Finding where
  category : Category
  message : String
  location : Option Position
  deriving DecidableEq, Repr, Inhabited

structure Diagnostic extends Finding where
  severity : Severity
  deriving DecidableEq, Repr, Inhabited

namespace Diagnostic

def text (d : Diagnostic) : String :=
  let place := match d.location with
    | some position => position.text ++ ": "
    | none => ""
  place ++ d.severity.text ++ " " ++ Nat.repr d.category.code ++ ": " ++ d.message

/-- A located diagnostic precedes an unlocated one; two located ones follow their positions. -/
def locationLe : Option Position → Option Position → Bool
  | some a, some b => a.le b
  | none, some _ => false
  | _, none => true

def le (a b : Diagnostic) : Bool :=
  a.severity.rank < b.severity.rank ||
    a.severity.rank == b.severity.rank && locationLe a.location b.location

end Diagnostic

structure Log where
  table : SeverityTable
  kept : List Diagnostic
  suppressed : Nat
  hadError : Bool

namespace Log

def empty (table : SeverityTable) : Log := ⟨table, [], 0, false⟩

def record (log : Log) (finding : Finding) : Log :=
  match log.table.severity finding.category with
  | .hidden => { log with suppressed := log.suppressed + 1 }
  | .warning => { log with kept := log.kept ++ [⟨finding, .warning⟩] }
  | .error => { log with kept := log.kept ++ [⟨finding, .error⟩], hadError := true }

def recordAll (log : Log) (findings : List Finding) : Log := findings.foldl record log

def count (log : Log) (severity : Severity) : Nat := log.kept.countP (·.severity == severity)

def errors (log : Log) : Nat := log.count .error

def warnings (log : Log) : Nat := log.count .warning

def sorted (log : Log) : List Diagnostic := log.kept.mergeSort Diagnostic.le

def lines (log : Log) : List String := log.sorted.map Diagnostic.text

end Log

end ApiCompat
