import ApiCompat.Diagnostic.Category

/-! Severity tables: the default severities with overrides. Of two overrides of one category
the later one holds. -/
namespace ApiCompat

structure SeverityTable where
  override : Category → Option Severity

namespace SeverityTable

def default : SeverityTable := ⟨fun _ => none⟩

def set (table : SeverityTable) (category : Category) (severity : Severity) : SeverityTable :=
  ⟨fun c => if c = category then some severity else table.override c⟩

def severity (table : SeverityTable) (category : Category) : Severity :=
  (table.override category).getD category.defaultSeverity

def isOverridden (table : SeverityTable) (category : Category) : Bool :=
  (table.override category).isSome

/-- Overrides by code, from first to last; the first code that names no category is the error. -/
def applyAll (table : SeverityTable) : List (Nat × Severity) → Except Nat SeverityTable
  | [] => .ok table
  | (code, severity) :: rest =>
    match Category.ofCode? code with
    | some category => (table.set category severity).applyAll rest
    | none => .error code

def unknownCodeText (code : Nat) : String :=
  "unknown diagnostic category code " ++ Nat.repr code

@[simp] theorem severity_default (c : Category) : default.severity c = c.defaultSeverity := rfl

@[simp] theorem severity_set (table : SeverityTable) (c category : Category) (s : Severity) :
    (table.set category s).severity c = if c = category then s else table.severity c := by
  unfold severity set
  by_cases h : c = category <;> simp [h]

end SeverityTable

end ApiCompat
