import ApiCompat.Proofs.Report.JsonText
import ApiCompat.Proofs.Report.TableText
import ApiCompat.Report.Content
import ApiCompat.Report.Format

/-! What a reader finds in reports: the diagnostics of a comparison with its counts, and the
categories with the severities in force. JSON gives all of it back; a table gives the
diagnostics back as far as its cells do. -/
namespace ApiCompat

def Category.ofKey? (key : String) : Option Category := all.find? (·.key == key)

theorem Category.ofKey?_key (c : Category) : ofKey? c.key = some c := by cases c <;> decide

namespace Report

structure Account where
  old : String
  new : String
  errors : Nat
  warnings : Nat
  suppressed : Nat
  diagnostics : List Diagnostic
  deriving DecidableEq

structure ListedCategory where
  category : Category
  default : Severity
  severity : Severity
  deriving DecidableEq

namespace Json

def member? (key : String) : Json → Option Json
  | object members => members.lookup key
  | _ => none

@[simp] theorem member?_cons (key name : String) (value : Json) (rest : List (String × Json)) :
    (object ((name, value) :: rest)).member? key =
      if key = name then some value else (object rest).member? key := by
  by_cases same : key = name
  · simp [member?, same]
  · simp [member?, List.lookup_cons, beq_false_of_ne same, same]

@[simp] theorem member?_nil (key : String) : (object []).member? key = none := rfl

def text? : Json → Option String
  | text value => some value
  | _ => none

def number? : Json → Option Nat
  | number n => some n
  | _ => none

def items? : Json → Option (List Json)
  | list items => some items
  | _ => none

def textAt? (key : String) (value : Json) : Option String := (value.member? key).bind text?

def numberAt? (key : String) (value : Json) : Option Nat := (value.member? key).bind number?

def severityAt? (key : String) (value : Json) : Option Severity :=
  (value.textAt? key).bind Severity.ofText?

/-- A category is given by its key, and its code has to agree. -/
def categoryAt? (key : String) (value : Json) : Option Category := do
  let category ← (value.textAt? key).bind Category.ofKey?
  let code ← value.numberAt? "code"
  if category.code = code then some category else none

def position? (value : Json) : Option Position := do
  let file ← value.textAt? "file"
  let line ← value.numberAt? "line"
  if line < UInt32.size then some ⟨file, UInt32.ofNat line⟩ else none

def diagnostic? (value : Json) : Option Diagnostic := do
  let category ← value.categoryAt? "category"
  let severity ← value.severityAt? "severity"
  let message ← value.textAt? "message"
  match value.member? "location" with
  | none => return ⟨⟨category, message, none⟩, severity⟩
  | some place => return ⟨⟨category, message, some (← place.position?)⟩, severity⟩

def account? (value : Json) : Option Account := do
  let diagnostics ← (value.member? "diagnostics").bind items?
  return {
    old := ← value.textAt? "old"
    new := ← value.textAt? "new"
    errors := ← value.numberAt? "errors"
    warnings := ← value.numberAt? "warnings"
    suppressed := ← value.numberAt? "suppressed"
    diagnostics := ← diagnostics.mapM diagnostic? }

def listed? (value : Json) : Option ListedCategory := do
  return ⟨← value.categoryAt? "key", ← value.severityAt? "default", ← value.severityAt? "severity"⟩

theorem position?_positionJson (p : Position) : position? (positionJson p) = some p := by
  simp [position?, positionJson, textAt?, numberAt?, text?, number?, UInt32.toNat_lt_size]

theorem diagnostic?_diagnosticJson (d : Diagnostic) : diagnostic? (diagnosticJson d) = some d := by
  obtain ⟨⟨category, message, location⟩, severity⟩ := d
  cases location with
  | none =>
    simp [diagnostic?, diagnosticJson, categoryAt?, severityAt?, textAt?, numberAt?, text?, number?,
      Category.ofKey?_key, Severity.ofText?_text]
  | some p =>
    simp [diagnostic?, diagnosticJson, categoryAt?, severityAt?, textAt?, numberAt?, text?, number?,
      Category.ofKey?_key, Severity.ofText?_text, position?_positionJson]

theorem listed?_categoryJson (table : SeverityTable) (c : Category) :
    listed? (categoryJson table c) = some ⟨c, c.defaultSeverity, table.severity c⟩ := by
  simp [listed?, categoryJson, categoryAt?, severityAt?, textAt?, numberAt?, text?, number?,
    Category.ofKey?_key, Severity.ofText?_text]

theorem account?_comparisonJson (old new : String) (log : Log) :
    account? (comparisonJson old new log) =
      some ⟨old, new, log.errors, log.warnings, log.suppressed, log.sorted⟩ := by
  have diagnostics := mapM_map_eq_some fun d (_ : d ∈ log.sorted) => diagnostic?_diagnosticJson d
  simp [account?, comparisonJson, textAt?, numberAt?, text?, number?, items?, diagnostics]

end Json

section Table

open Table (readCell IsWord IsLed Regular linesOf_eq)

/-- The text stands on one line and does not end with a blank. -/
def Tidy (text : String) : Prop := '\n' ∉ text.toList ∧ text.toList.getLast? ≠ some ' '

theorem readCell_of_tidy {cell : String} (tidy : Tidy cell) : readCell cell = cell := by
  obtain ⟨single, ends⟩ := tidy
  have kept : Table.unfill cell.toList = cell.toList := by
    apply List.rdropWhile_eq_self_iff.mpr
    intro ne
    rw [List.getLast?_eq_some_getLast ne] at ends
    simpa using ends
  rw [readCell, Table.cellLines, linesOf_eq single, List.map_singleton, kept, Table.unlines]
  apply String.toList_inj.mp
  cases text : cell.toList with
  | nil => simp [List.rdropWhile]
  | cons c rest => simp [List.rdropWhile]

theorem tidy_repr (n : Nat) : Tidy (Nat.repr n) := by
  rw [Tidy, Nat.toList_repr]
  have digits : ∀ c ∈ Nat.toDigits 10 n, Text.isDecimalDigit c = true :=
    fun c => Text.isDecimalDigit_of_mem_toDigits
  refine ⟨fun broken => absurd (digits _ broken) (by decide), fun blank => ?_⟩
  exact absurd (digits _ (List.mem_of_getLast? blank)) (by decide)

theorem tidy_severity (severity : Severity) : Tidy severity.text := by
  cases severity <;> exact ⟨by decide, by decide⟩

theorem isLed_repr (n : Nat) (others : List String) : IsLed (Nat.repr n :: others) := by
  refine ⟨_, others, _, rfl, linesOf_eq (tidy_repr n).1, ?_⟩
  rw [Table.unfill, ne_eq, List.rdropWhile_eq_nil_iff, Nat.toList_repr]
  intro blank
  obtain ⟨c, rest, digits⟩ := List.exists_cons_of_ne_nil (Nat.toDigits_ne_nil (b := 10) (n := n))
  have first : c ∈ Nat.toDigits 10 n := digits ▸ List.mem_cons_self
  have digit := Text.isDecimalDigit_of_mem_toDigits first
  rw [of_decide_eq_true (blank c first)] at digit
  exact absurd digit (by decide)

theorem regular_diagnosticsTable (diagnostics : List Diagnostic) :
    (diagnosticsTable diagnostics).Regular where
  columns := by simp [diagnosticsTable]
  words := show ∀ word ∈ ["code", "severity", "location", "message"], IsWord word.toList by
    decide
  filled := by simp [diagnosticsTable, diagnosticRow]
  led := List.forall_mem_map.mpr fun d _ => isLed_repr _ _

theorem regular_categoriesTable (table : SeverityTable) : (categoriesTable table).Regular where
  columns := by simp [categoriesTable]
  words := show ∀ word ∈ ["code", "key", "default", "severity"], IsWord word.toList by
    decide
  filled := by simp [categoriesTable, categoryRow]
  led := List.forall_mem_map.mpr fun c _ => isLed_repr _ _

def cellsOf (d : Diagnostic) : List String :=
  [Nat.repr d.category.code, d.severity.text,
    (d.location.map fun p => p.file ++ ":" ++ Nat.repr p.line.toNat).getD "", d.message]

def diagnosticOfCells? : List String → Option Diagnostic
  | [code, severity, location, message] => do
    let category ← (Text.readDecimal? code.toList).bind Category.ofCode?
    let severity ← Severity.ofText? severity
    if location = "" then return ⟨⟨category, message, none⟩, severity⟩
    else return ⟨⟨category, message, some (← Diagnostic.readPosition? location.toList)⟩, severity⟩
  | _ => none

def listedOfCells? : List String → Option ListedCategory
  | [code, key, default, severity] => do
    let category ← Category.ofKey? key
    let default ← Severity.ofText? default
    let severity ← Severity.ofText? severity
    if Nat.repr category.code = code then some ⟨category, default, severity⟩ else none
  | _ => none

theorem diagnosticOfCells?_cellsOf (d : Diagnostic) : diagnosticOfCells? (cellsOf d) = some d := by
  obtain ⟨⟨category, message, location⟩, severity⟩ := d
  cases location with
  | none =>
    simp [diagnosticOfCells?, cellsOf, Text.readDecimal?_toDigits, Category.ofCode?_code,
      Severity.ofText?_text]
  | some p =>
    have position := Diagnostic.readPosition?_append p
    have ne : p.file ++ ":" ++ Nat.repr p.line.toNat ≠ "" := by
      intro empty
      have chars := congrArg String.toList empty
      simp at chars
    simp [diagnosticOfCells?, cellsOf, Text.readDecimal?_toDigits, Category.ofCode?_code,
      Severity.ofText?_text, ne, position]

/-- No cell of the diagnostic loses anything in a table. -/
structure Neat (d : Diagnostic) : Prop where
  file : ∀ p ∈ d.location, '\n' ∉ p.file.toList
  message : Tidy d.message

theorem Neat.readCell_cellsOf {d : Diagnostic} (neat : Neat d) :
    (cellsOf d).map readCell = cellsOf d := by
  have location : Tidy ((d.location.map fun p =>
      p.file ++ ":" ++ Nat.repr p.line.toNat).getD "") := by
    cases place : d.location with
    | none => exact ⟨by decide, by decide⟩
    | some p =>
      have digits := tidy_repr p.line.toNat
      have ne : (Nat.repr p.line.toNat).toList ≠ [] := by
        rw [Nat.toList_repr]
        exact Nat.toDigits_ne_nil
      simp only [Option.map_some, Option.getD_some, Tidy, String.toList_append,
        List.getLast?_append_of_ne_nil _ ne]
      refine ⟨?_, digits.2⟩
      have file := neat.file p place
      simpa [file] using digits.1
  simp [cellsOf, readCell_of_tidy (tidy_repr _), readCell_of_tidy (tidy_severity _),
    readCell_of_tidy location, readCell_of_tidy neat.message]

theorem tidy_key (c : Category) : Tidy c.key := by
  cases c <;> exact ⟨by decide, by decide⟩

theorem listedOfCells?_categoryRow (table : SeverityTable) (c : Category) :
    listedOfCells? ((categoryRow table c).map readCell) =
      some ⟨c, c.defaultSeverity, table.severity c⟩ := by
  simp [categoryRow, readCell_of_tidy (tidy_repr _), readCell_of_tidy (tidy_severity _),
    readCell_of_tidy (tidy_key c), listedOfCells?, Category.ofKey?_key, Severity.ofText?_text]

end Table

def Account.of (old new : String) (log : Log) : Account :=
  ⟨old, new, log.errors, log.warnings, log.suppressed, log.sorted⟩

@[simp] theorem Account.diagnostics_of (old new : String) (log : Log) :
    (Account.of old new log).diagnostics = log.sorted := rfl

def readAccount? (output : String) : Option Account := (Json.read? output).bind Json.account?

def readTable? (output : String) : Option (List Diagnostic) := do
  let rows ← Table.readRows? output
  rows.mapM diagnosticOfCells?

/-- Categories are listed as JSON, or else as a table. -/
def readListing? (output : String) : Format → Option (List ListedCategory)
  | .json => do
    let items ← (Json.read? output).bind Json.items?
    items.mapM Json.listed?
  | _ => do
    let rows ← Table.readRows? output
    rows.mapM listedOfCells?

theorem readAccount?_write (old new : String) (log : Log) (layout : Json.Layout) :
    readAccount? ((comparisonJson old new log).write layout ++ "\n") = some (.of old new log) := by
  rw [readAccount?, Json.read?_write]
  exact Json.account?_comparisonJson old new log

theorem readRows?_diagnosticsTable (diagnostics : List Diagnostic) (framed : Bool) :
    Table.readRows? ((diagnosticsTable diagnostics).write framed ++ "\n") =
      some (diagnostics.map fun d => (cellsOf d).map Table.readCell) := by
  rw [Table.readRows?_write (regular_diagnosticsTable diagnostics), diagnosticsTable, List.map_map]
  rfl

/-- Diagnostics that fit into cells are read back from their rows. -/
theorem readTable?_of_rows {diagnostics : List Diagnostic} {output : String}
    (rows : Table.readRows? output = some (diagnostics.map fun d => (cellsOf d).map Table.readCell))
    (neat : ∀ d ∈ diagnostics, Neat d) : readTable? output = some diagnostics := by
  rw [readTable?, rows]
  apply mapM_map_eq_some
  intro d h
  rw [(neat d h).readCell_cellsOf, diagnosticOfCells?_cellsOf]

theorem readListing?_json (table : SeverityTable) (layout : Json.Layout) :
    readListing? ((categoriesJson table).write layout ++ "\n") .json =
      some (Category.all.map fun c => ⟨c, c.defaultSeverity, table.severity c⟩) := by
  rw [readListing?, Json.read?_write]
  exact mapM_map_eq_map fun c _ => Json.listed?_categoryJson table c

theorem readListing?_of_rows {output : String} {rows : List (List String)}
    (read : Table.readRows? output = some rows) {form : Format} (other : form ≠ .json) :
    readListing? output form = rows.mapM listedOfCells? := by
  cases form with
  | json => exact absurd rfl other
  | text => simp [readListing?, read]
  | table => simp [readListing?, read]

theorem readListing?_table (table : SeverityTable) (framed : Bool) {form : Format}
    (other : form ≠ .json) :
    readListing? ((categoriesTable table).write framed ++ "\n") form =
      some (Category.all.map fun c => ⟨c, c.defaultSeverity, table.severity c⟩) := by
  have read := Table.readRows?_write (regular_categoriesTable table) framed
  simp only [categoriesTable, List.map_map] at read
  exact (readListing?_of_rows read other).trans
    (mapM_map_eq_map fun c _ => listedOfCells?_categoryRow table c)

end Report

end ApiCompat
