import ApiCompat.Proofs.Diagnostic.Lines
import ApiCompat.Proofs.Diagnostic.Recording
import Mathlib.Data.Prod.Lex
import Mathlib.Data.String.Basic
import Mathlib.Order.WithBot

/-! The accounts of a log and the order in which it is shown. Every finding is kept under the severity
of its category or counted as hidden, and an error is had exactly if one is kept. The shown
diagnostics are the kept ones arranged by their standings; those of one standing stay in the order
of recording, so only one list is so arranged. -/
namespace ApiCompat

/-- What the order of the shown diagnostics looks at. -/
structure Standing where
  severity : Severity
  location : Option Position
  deriving DecidableEq

/-- The first standing comes before the second. Files are compared by their code points. -/
inductive Standing.Before : Standing → Standing → Prop where
  | severity (first second : Option Position) : Before ⟨.error, first⟩ ⟨.warning, second⟩
  | located (severity : Severity) (p : Position) : Before ⟨severity, some p⟩ ⟨severity, none⟩
  | file (severity : Severity) {p q : Position} :
      p.file.toList.map Char.toNat < q.file.toList.map Char.toNat →
      Before ⟨severity, some p⟩ ⟨severity, some q⟩
  | line (severity : Severity) {p q : Position} : p.file = q.file → p.line < q.line →
      Before ⟨severity, some p⟩ ⟨severity, some q⟩

def Diagnostic.standing (d : Diagnostic) : Standing := ⟨d.severity, d.location⟩

/-- The recorded diagnostics are shown by their standings, those of one standing as recorded. -/
structure Arranged (recorded shown : List Diagnostic) : Prop where
  perm : shown.Perm recorded
  ordered : shown.Pairwise fun earlier later => ¬later.standing.Before earlier.standing
  stable : ∀ standing,
    shown.filter (·.standing = standing) = recorded.filter (·.standing = standing)

section Key

theorem Severity.rank_injective : Function.Injective Severity.rank := by
  intro first second same
  cases first <;> cases second <;> first | rfl | cases same

theorem Severity.rank_lt_iff {first second : Severity} (hfirst : first ≠ .hidden)
    (hsecond : second ≠ .hidden) :
    first.rank < second.rank ↔ first = .error ∧ second = .warning := by
  cases first <;> cases second <;> first | contradiction | decide

theorem file_lt_iff {first second : String} :
    first.toList.map Char.toNat < second.toList.map Char.toNat ↔ first < second := by
  have codes : ∀ {a b : String}, a < b → a.toList.map Char.toNat < b.toList.map Char.toNat := by
    intro a b less
    exact List.map_lt (fun _ _ below => below) (String.lt_iff_toList_lt.mp less)
  constructor
  · intro less
    rcases lt_trichotomy first second with before | same | after
    · exact before
    · exact absurd (same ▸ less) (lt_irrefl _)
    · exact absurd less (codes after).asymm
  · exact codes

/-- Positions as elements of a linear order. -/
def Position.key (p : Position) : String ×ₗ ℕ := toLex (p.file, p.line.toNat)

theorem Position.key_injective : Function.Injective Position.key := by
  rintro ⟨file, line⟩ ⟨file', line'⟩ same
  obtain ⟨files, lines⟩ := Prod.mk.inj same
  exact Position.mk.injEq .. ▸ ⟨files, UInt32.toNat_inj.mp lines⟩

theorem Position.key_lt_iff {p q : Position} :
    p.key < q.key ↔ p.file < q.file ∨ p.file = q.file ∧ p.line < q.line := by
  rw [key, key, Prod.Lex.toLex_lt_toLex]
  rfl

theorem Position.le_iff {p q : Position} : p.le q = true ↔ p.key ≤ q.key := by
  rw [key, key, Prod.Lex.toLex_le_toLex]
  simp only [le, Bool.or_eq_true, Bool.and_eq_true, decide_eq_true_eq, beq_iff_eq]
  rfl

/-- Locations likewise; a missing one is at the top. -/
def locationKey : Option Position → WithTop (String ×ₗ ℕ)
  | some position => position.key
  | none => ⊤

theorem locationKey_injective : Function.Injective locationKey := by
  intro first second same
  cases first with
  | none =>
    cases second with
    | none => rfl
    | some q => cases same
  | some p =>
    cases second with
    | none => cases same
    | some q => rw [Position.key_injective (WithTop.coe_injective same)]

theorem locationLe_iff {first second : Option Position} :
    Diagnostic.locationLe first second = true ↔ locationKey first ≤ locationKey second := by
  cases first <;> cases second <;>
    simp [Diagnostic.locationLe, locationKey, Position.le_iff]

def Standing.key (p : Standing) : ℕ ×ₗ WithTop (String ×ₗ ℕ) :=
  toLex (p.severity.rank, locationKey p.location)

theorem Standing.key_injective : Function.Injective Standing.key := by
  rintro ⟨severity, location⟩ ⟨severity', location'⟩ same
  obtain ⟨ranks, places⟩ := Prod.mk.inj same
  obtain rfl : severity = severity' := Severity.rank_injective ranks
  obtain rfl : location = location' := locationKey_injective places
  rfl

theorem Diagnostic.le_iff {a b : Diagnostic} : a.le b = true ↔ a.standing.key ≤ b.standing.key := by
  rw [Standing.key, Standing.key, Prod.Lex.toLex_le_toLex, ← locationLe_iff]
  simp only [le, Bool.or_eq_true, Bool.and_eq_true, decide_eq_true_eq, beq_iff_eq]
  rfl

/-- Among kept diagnostics the order is that of the keys. -/
theorem Standing.before_iff {p q : Standing} (hp : p.severity ≠ .hidden) (hq : q.severity ≠ .hidden) :
    p.Before q ↔ p.key < q.key := by
  rw [key, key, Prod.Lex.toLex_lt_toLex]
  constructor
  · intro before
    cases before with
    | severity => exact .inl Nat.zero_lt_one
    | located severity p => exact .inr ⟨rfl, WithTop.coe_lt_top p.key⟩
    | file severity files =>
      exact .inr ⟨rfl, WithTop.coe_lt_coe.mpr (Position.key_lt_iff.mpr (.inl (file_lt_iff.mp files)))⟩
    | line severity files lines =>
      exact .inr ⟨rfl, WithTop.coe_lt_coe.mpr (Position.key_lt_iff.mpr (.inr ⟨files, lines⟩))⟩
  · rcases p with ⟨severity, location⟩
    rcases q with ⟨severity', location'⟩
    rintro (ranks | ⟨ranks, locations⟩)
    · obtain ⟨rfl, rfl⟩ := (Severity.rank_lt_iff hp hq).mp ranks
      exact .severity location location'
    · obtain rfl : severity = severity' := Severity.rank_injective ranks
      cases location with
      | none => exact absurd locations not_top_lt
      | some p =>
        cases location' with
        | none => exact .located severity p
        | some q =>
          rcases Position.key_lt_iff.mp (WithTop.coe_lt_coe.mp locations) with files | ⟨files, lines⟩
          · exact .file severity (file_lt_iff.mpr files)
          · exact .line severity files lines

end Key

section Arranged

variable {recorded shown other : List Diagnostic}

/-- Lists with the same keys in the same order and the same elements of each key are equal. -/
theorem eq_of_map_eq_of_filter_eq {α κ : Type} [DecidableEq κ] {key : α → κ} {xs ys : List α}
    (keys : xs.map key = ys.map key)
    (each : ∀ k, xs.filter (key · = k) = ys.filter (key · = k)) : xs = ys := by
  induction xs generalizing ys with
  | nil => exact (List.map_eq_nil_iff.mp keys.symm).symm
  | cons x xs ih =>
    cases ys with
    | nil => cases keys
    | cons y ys =>
      obtain ⟨head, tail⟩ := List.cons.inj keys
      obtain rfl : x = y := by
        have first := each (key x)
        rw [List.filter_cons_of_pos (by simp), List.filter_cons_of_pos (by simp [head])] at first
        exact (List.cons.inj first).1
      have rest : ∀ k, xs.filter (key · = k) = ys.filter (key · = k) := by
        intro k
        have whole := each k
        by_cases here : key x = k
        · rw [List.filter_cons_of_pos (by simpa using here),
            List.filter_cons_of_pos (by simpa using here)] at whole
          exact (List.cons.inj whole).2
        · rwa [List.filter_cons_of_neg (by simpa using here),
            List.filter_cons_of_neg (by simpa using here)] at whole
      rw [ih tail rest]

theorem Diagnostic.le_trans (a b c : Diagnostic) (hab : a.le b = true) (hbc : b.le c = true) :
    a.le c = true :=
  le_iff.mpr ((le_iff.mp hab).trans (le_iff.mp hbc))

theorem Diagnostic.le_total (a b : Diagnostic) : (a.le b || b.le a) = true := by
  rw [Bool.or_eq_true, le_iff, le_iff]
  exact Std.le_total

theorem Diagnostic.not_before_iff {a b : Diagnostic} (ha : a.severity ≠ .hidden)
    (hb : b.severity ≠ .hidden) : ¬b.standing.Before a.standing ↔ a.standing.key ≤ b.standing.key := by
  rw [Standing.before_iff hb ha, not_lt]

theorem filter_mergeSort (recorded : List Diagnostic) (standing : Standing) :
    (recorded.mergeSort Diagnostic.le).filter (·.standing = standing) =
      recorded.filter (·.standing = standing) := by
  have perm : ((recorded.mergeSort Diagnostic.le).filter (·.standing = standing)).Perm
      (recorded.filter (·.standing = standing)) :=
    (List.mergeSort_perm recorded Diagnostic.le).filter _
  have ordered : (recorded.filter (·.standing = standing)).Pairwise (fun a b => a.le b = true) := by
    apply List.pairwise_of_forall_mem_list
    intro a ha b hb
    have here := List.of_mem_filter ha
    have there := List.of_mem_filter hb
    simp only [decide_eq_true_eq] at here there
    rw [Diagnostic.le_iff, here, there]
  have inside : (recorded.filter (·.standing = standing)).Sublist
      (recorded.mergeSort Diagnostic.le) :=
    List.sublist_mergeSort Diagnostic.le_trans Diagnostic.le_total ordered List.filter_sublist
  have kept := inside.filter (·.standing = standing)
  rw [List.filter_filter] at kept
  simp only [Bool.and_self] at kept
  exact (kept.eq_of_length perm.length_eq.symm).symm

theorem arranged_mergeSort (visible : ∀ d ∈ recorded, d.severity ≠ .hidden) :
    Arranged recorded (recorded.mergeSort Diagnostic.le) where
  perm := List.mergeSort_perm recorded Diagnostic.le
  ordered := by
    apply (List.pairwise_mergeSort Diagnostic.le_trans Diagnostic.le_total recorded).imp_of_mem
    intro a b ha hb before
    rw [Diagnostic.not_before_iff (visible a (List.mem_mergeSort.mp ha))
      (visible b (List.mem_mergeSort.mp hb)), ← Diagnostic.le_iff]
    exact before
  stable := filter_mergeSort recorded

theorem Arranged.keys_pairwise (visible : ∀ d ∈ recorded, d.severity ≠ .hidden)
    (arranged : Arranged recorded shown) :
    (shown.map Diagnostic.standing).Pairwise (fun p q => p.key ≤ q.key) := by
  rw [List.pairwise_map]
  apply arranged.ordered.imp_of_mem
  intro a b ha hb ordered
  exact (Diagnostic.not_before_iff (visible a (arranged.perm.mem_iff.mp ha))
    (visible b (arranged.perm.mem_iff.mp hb))).mp ordered

theorem Arranged.unique (visible : ∀ d ∈ recorded, d.severity ≠ .hidden)
    (first : Arranged recorded shown) (second : Arranged recorded other) : shown = other := by
  have standings : shown.map Diagnostic.standing = other.map Diagnostic.standing := by
    apply List.Perm.eq_of_pairwise _ (first.keys_pairwise visible) (second.keys_pairwise visible)
      ((first.perm.trans second.perm.symm).map Diagnostic.standing)
    intro p q _ _ le ge
    exact Standing.key_injective (le.antisymm ge)
  apply eq_of_map_eq_of_filter_eq standings
  intro standing
  exact (first.stable standing).trans (second.stable standing).symm

theorem arranged_iff (visible : ∀ d ∈ recorded, d.severity ≠ .hidden) :
    Arranged recorded shown ↔ shown = recorded.mergeSort Diagnostic.le := by
  constructor
  · intro arranged
    exact arranged.unique visible (arranged_mergeSort visible)
  · rintro rfl
    exact arranged_mergeSort visible

end Arranged

namespace Log

variable {log : Log} {calls : ℕ}

/-- A finding is counted, or it is kept and an error sets the flag. -/
theorem record_cases (log : Log) (f : Finding) :
    log.record f = { log with suppressed := log.suppressed + 1 } ∨
      ∃ severity, severity ≠ .hidden ∧ log.record f = { log with
        kept := log.kept ++ [⟨f, severity⟩], hadError := log.hadError || severity == .error } := by
  unfold record
  cases log.table.severity f.category with
  | hidden => exact .inl rfl
  | warning => exact .inr ⟨.warning, by decide, by simp⟩
  | error => exact .inr ⟨.error, by decide, by simp⟩

/-- The invariant of recording. -/
structure Accounted (log : Log) (calls : ℕ) : Prop where
  counted : log.kept.length + log.suppressed = calls
  visible : ∀ d ∈ log.kept, d.severity ≠ .hidden
  flag : log.hadError = true ↔ 0 < log.errors

theorem accounted_empty (table : SeverityTable) : (empty table).Accounted 0 where
  counted := rfl
  visible := by simp [empty]
  flag := by simp [empty, errors, count]

theorem Accounted.record (accounted : log.Accounted calls) (f : Finding) :
    (log.record f).Accounted (calls + 1) := by
  have counted := accounted.counted
  obtain step | ⟨severity, shown, step⟩ := log.record_cases f
  · rw [step]
    exact ⟨by simp only; omega, accounted.visible, accounted.flag⟩
  · rw [step]
    constructor
    · simp only [List.length_append, List.length_singleton]
      omega
    · intro d hd
      rcases List.mem_append.mp hd with old | new
      · exact accounted.visible d old
      · rw [List.mem_singleton.mp new]
        exact shown
    · have flag := accounted.flag
      simp only [errors, count] at flag ⊢
      cases severity with
      | error => simp
      | warning => simpa using flag
      | hidden => exact absurd rfl shown

theorem Accounted.recordAll (accounted : log.Accounted calls) (findings : List Finding) :
    (log.recordAll findings).Accounted (calls + findings.length) := by
  induction findings generalizing log calls with
  | nil => exact accounted
  | cons f rest ih =>
    have step := ih (accounted.record f)
    rw [Nat.add_assoc, Nat.add_comm 1] at step
    exact step

theorem Accounted.errors_add_warnings (accounted : log.Accounted calls) :
    log.errors + log.warnings = log.kept.length := by
  have others : log.kept.countP (·.severity == .warning) =
      log.kept.countP (fun d => ¬(d.severity == .error) = true) := by
    apply List.countP_congr
    intro d hd
    cases severity : d.severity with
    | error => decide
    | warning => decide
    | hidden => exact absurd severity (accounted.visible d hd)
  rw [errors, warnings, count, count, others]
  exact (List.length_eq_countP_add_countP fun d : Diagnostic => d.severity == .error).symm

/-- Every finding is kept under the severity of its category or counted as hidden, so what is kept is
an error or a warning. The kept diagnostics have one arrangement, by which they are written, and
each line tells of its diagnostic. -/
theorem accounted_and_arranged (table : SeverityTable) (findings : List Finding) :
    let log := (empty table).recordAll findings
    log.kept.length + log.suppressed = findings.length ∧
    (log.kept = findings.filterMap fun f => if table.severity f.category = .hidden then none
      else some ⟨f, table.severity f.category⟩) ∧
    (log.suppressed = findings.countP fun f => table.severity f.category = .hidden) ∧
    (∀ d ∈ log.kept, d.severity ≠ .hidden) ∧ log.errors + log.warnings = log.kept.length ∧
    (log.hadError = true ↔ 0 < log.errors) ∧
    (∀ more, log.hadError = true → (log.recordAll more).hadError = true) ∧
    (∀ shown, Arranged log.kept shown ↔ shown = log.sorted) ∧
    log.lines = log.sorted.map Diagnostic.text ∧
    List.Forall₂ (Diagnostic.Told Eq) log.sorted log.lines := by
  intro log
  have accounted : log.Accounted findings.length :=
    Nat.zero_add findings.length ▸ (accounted_empty table).recordAll findings
  refine ⟨accounted.counted, kept_recordAll_empty table findings,
    suppressed_recordAll_empty table findings, accounted.visible, accounted.errors_add_warnings,
    accounted.flag, ?_, fun shown => arranged_iff accounted.visible, rfl, ?_⟩
  · intro more had
    rw [hadError_recordAll, had, Bool.true_or]
  · exact List.forall₂_map_right_iff.mpr (List.forall₂_same.mpr fun d _ => d.told_text)

end Log

end ApiCompat
