import ApiCompat.Diagnostic.Log

/-! What recording leaves behind. A log is a fold over findings, and each of its parts is a
function of the findings and the table: those not hidden are kept in order, the others are
counted, and an error is had exactly if the category of some finding counts as one. -/
namespace ApiCompat

namespace SeverityTable

/-- The diagnostic that a finding is kept as, unless it is hidden. -/
def diagnose? (table : SeverityTable) (f : Finding) : Option Diagnostic :=
  if table.severity f.category = .hidden then none else some ⟨f, table.severity f.category⟩

end SeverityTable

namespace Log

theorem table_record (log : Log) (f : Finding) : (log.record f).table = log.table := by
  unfold record
  split <;> rfl

theorem kept_record (log : Log) (f : Finding) :
    (log.record f).kept = log.kept ++ (log.table.diagnose? f).toList := by
  unfold record SeverityTable.diagnose?
  cases h : log.table.severity f.category <;> simp

theorem suppressed_record (log : Log) (f : Finding) :
    (log.record f).suppressed =
      log.suppressed + if log.table.severity f.category = .hidden then 1 else 0 := by
  unfold record
  cases h : log.table.severity f.category <;> simp

theorem hadError_record (log : Log) (f : Finding) :
    (log.record f).hadError = (log.hadError || log.table.severity f.category == .error) := by
  unfold record
  cases h : log.table.severity f.category <;> simp

theorem kept_recordAll (log : Log) (findings : List Finding) :
    (log.recordAll findings).kept = log.kept ++ findings.filterMap log.table.diagnose? := by
  induction findings generalizing log with
  | nil => simp [recordAll]
  | cons f rest ih =>
    have step := ih (log.record f)
    rw [table_record, kept_record] at step
    rw [recordAll, List.foldl_cons, ← recordAll, step, List.append_assoc]
    cases h : log.table.diagnose? f <;> simp [h]

theorem suppressed_recordAll (log : Log) (findings : List Finding) :
    (log.recordAll findings).suppressed = log.suppressed +
      findings.countP fun f => log.table.severity f.category = .hidden := by
  induction findings generalizing log with
  | nil => rfl
  | cons f rest ih =>
    have step := ih (log.record f)
    rw [table_record, suppressed_record] at step
    rw [recordAll, List.foldl_cons, ← recordAll, step, List.countP_cons]
    simp only [decide_eq_true_eq]
    omega

theorem hadError_recordAll (log : Log) (findings : List Finding) :
    (log.recordAll findings).hadError =
      (log.hadError || findings.any fun f => log.table.severity f.category == .error) := by
  induction findings generalizing log with
  | nil => simp [recordAll]
  | cons f rest ih =>
    have step := ih (log.record f)
    rw [table_record, hadError_record] at step
    rw [recordAll, List.foldl_cons, ← recordAll, step, List.any_cons, Bool.or_assoc]

section Fresh

variable (table : SeverityTable) (findings : List Finding)

theorem kept_recordAll_empty :
    ((empty table).recordAll findings).kept = findings.filterMap table.diagnose? := by
  rw [kept_recordAll, empty, List.nil_append]

theorem suppressed_recordAll_empty : ((empty table).recordAll findings).suppressed =
    findings.countP fun f => table.severity f.category = .hidden := by
  rw [suppressed_recordAll, empty, Nat.zero_add]

theorem count_recordAll_empty {severity : Severity} (shown : severity ≠ .hidden) :
    ((empty table).recordAll findings).count severity =
      findings.countP fun f => table.severity f.category = severity := by
  rw [count, kept_recordAll_empty, List.countP_filterMap]
  apply List.countP_congr
  intro f _
  by_cases hidden : table.severity f.category = .hidden
  · simp [SeverityTable.diagnose?, hidden, Ne.symm shown]
  · simp [SeverityTable.diagnose?, hidden]

theorem hadError_recordAll_empty_iff : ((empty table).recordAll findings).hadError = true ↔
    ∃ f ∈ findings, table.severity f.category = .error := by
  simp [hadError_recordAll, empty]

end Fresh

/-- An error was had if the category of a recorded diagnostic counts as one. -/
theorem hadError_recordAll_iff (table : SeverityTable) (findings : List Finding) :
    ((empty table).recordAll findings).hadError = true ↔
      ∃ d ∈ ((empty table).recordAll findings).kept, table.severity d.category = .error := by
  rw [hadError_recordAll_empty_iff, kept_recordAll_empty]
  simp only [List.mem_filterMap, SeverityTable.diagnose?]
  constructor
  · rintro ⟨f, hf, error⟩
    exact ⟨⟨f, .error⟩, ⟨f, hf, by simp [error]⟩, error⟩
  · rintro ⟨d, ⟨f, hf, recorded⟩, error⟩
    split at recorded
    · cases recorded
    · cases recorded
      exact ⟨f, hf, error⟩

end Log

/-- No finding of the list has such a category. -/
def Avoids (bad : Category → Prop) (findings : List Finding) : Prop :=
  ∀ f ∈ findings, ¬bad f.category

def Category.IsError (c : Category) : Prop := c.defaultSeverity = .error

abbrev Harmless (findings : List Finding) : Prop := Avoids Category.IsError findings

namespace Avoids

variable {bad : Category → Prop}

theorem nil : Avoids bad [] := by
  intro f hf
  cases hf

theorem append_iff {first second : List Finding} :
    Avoids bad (first ++ second) ↔ Avoids bad first ∧ Avoids bad second :=
  List.forall_mem_append

theorem singleton_iff {f : Finding} : Avoids bad [f] ↔ ¬bad f.category :=
  List.forall_mem_singleton

theorem map_iff {α : Type} {list : List α} {finding : α → Finding} :
    Avoids bad (list.map finding) ↔ ∀ a ∈ list, ¬bad (finding a).category :=
  List.forall_mem_map

theorem flatMap_iff {α : Type} {list : List α} {findings : α → List Finding} :
    Avoids bad (list.flatMap findings) ↔ ∀ a ∈ list, Avoids bad (findings a) := by
  constructor
  · intro h a ha f hf
    exact h f (List.mem_flatMap.mpr ⟨a, ha, hf⟩)
  · intro h f hf
    obtain ⟨a, ha, hfa⟩ := List.mem_flatMap.mp hf
    exact h a ha f hfa

end Avoids

theorem Log.hadError_default_iff (findings : List Finding) :
    ((Log.empty .default).recordAll findings).hadError = false ↔ Harmless findings := by
  rw [hadError_recordAll]
  simp only [empty, SeverityTable.severity_default, Bool.false_or, List.any_eq_false,
    beq_iff_eq]
  rfl

end ApiCompat
