import ApiCompat.Diagnostic.SeverityTable
import ApiCompat.Toml.Reader

/-! Settings: severity overrides and report preferences from a file. Unknown keys are passed
over, a section may be left out, and a value of the wrong form makes the file unusable. A
section may also be written as a list of its values in order. -/
namespace ApiCompat

structure Settings where
  error : List Nat
  warning : List Nat
  hide : List Nat
  format : Option String
  color : Option Bool
  deriving DecidableEq, Repr

namespace Settings

open Toml (Value Entries)

def none : Settings := ⟨[], [], [], .none, .none⟩

/-- A category code: an integer of 32 bits. -/
def codeOf? : Value → Option Nat
  | .integer n => if 0 ≤ n ∧ n.toNat < UInt32.size then some n.toNat else .none
  | _ => .none

def codesOf? : Value → Option (List Nat)
  | .list items => items.mapM codeOf?
  | .tables rows => rows.mapM codeOf?
  | _ => .none

def textOf? : Value → Option String
  | .string text => some text
  | _ => .none

def truthOf? : Value → Option Bool
  | .boolean b => some b
  | _ => .none

def partsOf? (keys : List String) : Value → Option (List (Option Value))
  | .table _ entries => some (keys.map fun key => List.lookup key entries)
  | .list items => some ((List.range keys.length).map fun i => items[i]?)
  | .tables rows => some ((List.range keys.length).map fun i => rows[i]?)
  | .moment => some (keys.map fun _ => .none)
  | _ => .none

/-- The parts of a section of a document; of an absent section all are absent. -/
def sectionParts? (document : Entries) (name : String) (keys : List String) :
    Option (List (Option Value)) :=
  match List.lookup name document with
  | .none => some (keys.map fun _ => .none)
  | some value => partsOf? keys value

def part? {α : Type} (read : Value → Option α) (parts : List (Option Value)) (index : Nat) :
    Option (Option α) :=
  match parts[index]?.join with
  | .none => some .none
  | some value => (read value).map some

def ofEntries? (document : Entries) : Option Settings := do
  let severity ← sectionParts? document "severity" ["error", "warning", "hide"]
  let error ← part? codesOf? severity 0
  let warning ← part? codesOf? severity 1
  let hide ← part? codesOf? severity 2
  let output ← sectionParts? document "output" ["format", "color"]
  let format ← part? textOf? output 0
  let color ← part? truthOf? output 1
  return ⟨error.getD [], warning.getD [], hide.getD [], format, color⟩

def parse? (document : String) : Option Settings := (Toml.read document).bind ofEntries?

/-- The overrides in the order in which they apply: errors, warnings, hidden. -/
def overrides (s : Settings) : List (Nat × Severity) :=
  s.error.map (·, .error) ++ s.warning.map (·, .warning) ++ s.hide.map (·, .hidden)

end Settings

end ApiCompat
