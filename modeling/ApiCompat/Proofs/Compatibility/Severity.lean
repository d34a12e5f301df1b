import ApiCompat.Proofs.Compatibility.Session
import ApiCompat.Proofs.Compatibility.Verdict

/-! Severities do not steer a comparison. A run under one table hands over what it hands over
under every other one, since no step looks at the log, and a table decides only what becomes of
it: what is kept under it is read off what is kept under a table that hides nothing. -/
namespace ApiCompat

def SeverityTable.regrade (table : SeverityTable) (d : Diagnostic) : Diagnostic :=
  { d with severity := table.severity d.category }

def SeverityTable.HidesNothing (table : SeverityTable) : Prop :=
  ∀ c, table.severity c ≠ .hidden

namespace Log

variable {findings : List Finding} {table full : SeverityTable}

theorem kept_of_hidesNothing (all : full.HidesNothing) :
    ((empty full).recordAll findings).kept =
      findings.map fun f => ⟨f, full.severity f.category⟩ := by
  rw [kept_recordAll]
  change [] ++ findings.filterMap full.diagnose? = _
  rw [List.nil_append, ← List.filterMap_eq_map]
  refine List.filterMap_congr fun f _ => ?_
  exact if_neg (all f.category)

theorem kept_eq_regraded (all : full.HidesNothing) :
    ((empty table).recordAll findings).kept =
      (((empty full).recordAll findings).kept.filter fun d =>
        table.severity d.category ≠ .hidden).map table.regrade := by
  rw [kept_of_hidesNothing all, kept_recordAll]
  change [] ++ findings.filterMap table.diagnose? = _
  rw [List.nil_append]
  induction findings with
  | nil => rfl
  | cons f rest ih =>
    by_cases hidden : table.severity f.category = .hidden
    · simpa [SeverityTable.diagnose?, hidden] using ih
    · simpa [SeverityTable.diagnose?, SeverityTable.regrade, hidden] using ih

theorem countP_kept_of_hidesNothing (all : full.HidesNothing) (p : Category → Bool) :
    (((empty full).recordAll findings).kept.countP fun d => p d.category) =
      findings.countP fun f => p f.category := by
  rw [kept_of_hidesNothing all, List.countP_map]
  rfl

theorem errors_recordAll (table : SeverityTable) (findings : List Finding) :
    ((empty table).recordAll findings).errors =
      findings.countP fun f => table.severity f.category == .error := by
  rw [errors, count, kept_recordAll]
  change ([] ++ findings.filterMap table.diagnose?).countP _ = _
  rw [List.nil_append]
  induction findings with
  | nil => rfl
  | cons f rest ih =>
    cases graded : table.severity f.category <;>
      simpa [SeverityTable.diagnose?, graded] using ih

end Log

namespace Compatibility

open Session (run)

/-- What a run hands over and counts is the same under all tables, its log is the one of the
check, and that log is told from the log under any table that hides nothing. -/
theorem severity_only_grades (old new : Snapshot) (table other : SeverityTable) :
    (run table old new).handed = (run other old new).handed ∧
      (run table old new).tally = (run other old new).tally ∧
      (run table old new).log = check table old new ∧
      (run table old new).tally = tally old new ∧
      (other.HidesNothing →
        (check table old new).kept = ((check other old new).kept.filter fun d =>
          table.severity d.category ≠ .hidden).map table.regrade ∧
        (check table old new).suppressed = (check other old new).kept.countP (fun d =>
          table.severity d.category == .hidden) ∧
        (check table old new).errors = (check other old new).kept.countP (fun d =>
          table.severity d.category == .error) ∧
        (check table old new).hadError = (check other old new).kept.any (fun d =>
          table.severity d.category == .error)) := by
  rw [Session.run_eq, Session.run_eq]
  refine ⟨rfl, rfl, rfl, rfl, ?_⟩
  intro all
  refine ⟨Log.kept_eq_regraded all, ?_, ?_, ?_⟩
  · rw [check, check, Log.countP_kept_of_hidesNothing all fun c => table.severity c == .hidden,
      Log.suppressed_recordAll]
    exact Nat.zero_add _
  · rw [check, check, Log.countP_kept_of_hidesNothing all fun c => table.severity c == .error,
      Log.errors_recordAll]
  · rw [check, check, Log.kept_of_hidesNothing all, List.any_map, Log.hadError_recordAll]
    rfl

/-- Under a table that hides removed methods nothing of a removed method is kept, though the run
goes as it goes where everything is a warning. -/
theorem hidden_removal_graded :
    (run (.set .default .removedMethod .hidden) (twoClasses ["run"] []) (twoClasses [] [])).handed =
      (run ⟨fun _ => some .warning⟩ (twoClasses ["run"] []) (twoClasses [] [])).handed ∧
    (check (.set .default .removedMethod .hidden) (twoClasses ["run"] [])
      (twoClasses [] [])).kept = [] ∧
    (check (.set .default .removedMethod .hidden) (twoClasses ["run"] [])
      (twoClasses [] [])).suppressed = 1 := by
  have all : SeverityTable.HidesNothing ⟨fun _ => some .warning⟩ := by
    intro c
    simp [SeverityTable.severity]
  obtain ⟨handed, _, _, _, graded⟩ := severity_only_grades (twoClasses ["run"] []) (twoClasses [] [])
    (.set .default .removedMethod .hidden) ⟨fun _ => some .warning⟩
  obtain ⟨kept, suppressed, _, _⟩ := graded all
  refine ⟨handed, kept.trans ?_, suppressed.trans ?_⟩ <;> decide +kernel

end Compatibility

end ApiCompat
