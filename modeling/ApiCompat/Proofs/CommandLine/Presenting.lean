import ApiCompat.CommandLine.Run
import ApiCompat.Proofs.Diagnostic.Sorting
import ApiCompat.Proofs.Report.Account

/-! What a run shows. A comparison is read from its JSON as a whole, and its diagnostics are read
from lines or from the rows of a table, in their order. So runs that differ in form
alone have one account to give. -/
namespace ApiCompat.CommandLine

open Report

/-- What a reader finds of a comparison in the two texts of a run, by the form of the report. -/
inductive Presents (account : Account) (outcome : Outcome) : Format → Prop where
  | text : outcome.output = "" → Prints account.diagnostics outcome.errors →
      ((∀ d ∈ account.diagnostics, Readable d) →
        readLines? outcome.errors = some account.diagnostics) →
      Presents account outcome .text
  | json : readAccount? outcome.output = some account → outcome.errors = "" →
      Presents account outcome .json
  | table : account.diagnostics ≠ [] → Table.readRows? outcome.output =
        some (account.diagnostics.map fun d => (cellsOf d).map Table.readCell) →
      ((∀ d ∈ account.diagnostics, Neat d) →
        readTable? outcome.output = some account.diagnostics) →
      outcome.errors = "" → Presents account outcome .table
  | noTable : account.diagnostics = [] → outcome.output = "(no diagnostics)\n" →
      outcome.errors = "" → Presents account outcome .table

/-- The categories are listed in the order of their codes, each with its severity. -/
structure Lists (severity : Category → Severity) (outcome : Outcome) (form : Format) : Prop where
  rows : readListing? outcome.output form =
    some (Category.all.map fun c => ⟨c, c.defaultSeverity, severity c⟩)
  silent : outcome.errors = ""

/-- The account tells of the findings that are not hidden, errors first, each under the severity of
its category; the others are counted. -/
structure Graded (severity : Category → Severity) (findings : List Finding) (account : Account) :
    Prop where
  kept : Arranged (findings.filterMap fun f =>
    if severity f.category = .hidden then none else some ⟨f, severity f.category⟩)
    account.diagnostics
  errors : account.errors = findings.countP fun f => severity f.category = .error
  warnings : account.warnings = findings.countP fun f => severity f.category = .warning
  suppressed : account.suppressed = findings.countP fun f => severity f.category = .hidden

theorem graded_recordAll (table : SeverityTable) (old new : String) (findings : List Finding) :
    Graded table.severity findings (.of old new ((Log.empty table).recordAll findings)) where
  kept := by
    have visible := ((Log.accounted_empty table).recordAll findings).visible
    change Arranged (findings.filterMap table.diagnose?)
      (((Log.empty table).recordAll findings).kept.mergeSort Diagnostic.le)
    rw [← Log.kept_recordAll_empty]
    exact arranged_mergeSort visible
  errors := Log.count_recordAll_empty table findings (by decide)
  warnings := Log.count_recordAll_empty table findings (by decide)
  suppressed := Log.suppressed_recordAll_empty table findings

theorem presents_outcome (style : Style) (old new : String) (log : Log) :
    Presents (.of old new log) (style.outcome (.ok (.comparison old new log))) style.format := by
  cases form : style.format with
  | text =>
    have lines := prints_lines style.colored log.sorted
    apply Presents.text
    · simp [Style.outcome, Style.output, form]
    · simpa [Style.outcome, Style.errors, form] using lines
    · intro readable
      simpa [Style.outcome, Style.errors, form] using readLines?_of_prints lines readable
  | json =>
    apply Presents.json
    · simp only [Style.outcome, Style.output, form]
      exact readAccount?_write old new log _
    · simp [Style.outcome, Style.errors, form]
  | table =>
    by_cases none : log.sorted = []
    · apply Presents.noTable none
      · simp [Style.outcome, Style.output, form, none]
      · simp [Style.outcome, Style.errors, form]
    · have output : (style.outcome (.ok (.comparison old new log))).output =
          (diagnosticsTable log.sorted).write (!style.compact) ++ "\n" := by
        simp [Style.outcome, Style.output, Style.writeTable, form, none]
      have rows := readRows?_diagnosticsTable log.sorted (!style.compact)
      rw [← output] at rows
      apply Presents.table none rows (readTable?_of_rows rows)
      simp [Style.outcome, Style.errors, form]

theorem status_eq_one_iff (style : Style) (old new : String) (log : Log) :
    (style.outcome (.ok (.comparison old new log))).status = 1 ↔ log.hadError = true := by
  simp [Style.outcome, Result.status]

theorem lists_outcome (style : Style) (table : SeverityTable) :
    Lists table.severity (style.outcome (.ok (.categories table))) style.format := by
  refine ⟨?_, rfl⟩
  cases form : style.format with
  | json =>
    simp only [Style.outcome, Style.output, form]
    exact readListing?_json table _
  | text =>
    simp only [Style.outcome, Style.output, form]
    apply readListing?_table
    decide
  | table =>
    simp only [Style.outcome, Style.output, form]
    apply readListing?_table
    decide

end ApiCompat.CommandLine
