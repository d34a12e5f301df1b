import ApiCompat.Diagnostic.SeverityTable
import ApiCompat.Settings

/-! What overrides leave behind. They are applied only if every code names a category, and the first
that names none is the error; then the last override of a category's code is its severity. -/
namespace ApiCompat

namespace Category

/-- Some category has the code. -/
def Known (code : Nat) : Prop := ∃ c : Category, c.code = code

theorem code_of_ofCode? {code : Nat} {c : Category} (h : ofCode? code = some c) : c.code = code := by
  simpa using List.find?_some h

theorem ofCode?_eq_some_iff {code : Nat} {c : Category} : ofCode? code = some c ↔ c.code = code := by
  constructor
  · exact code_of_ofCode?
  · rintro rfl
    exact ofCode?_code c

theorem isSome_ofCode?_iff {code : Nat} : (ofCode? code).isSome = true ↔ Known code := by
  simp only [Option.isSome_iff_exists, ofCode?_eq_some_iff, Known]

instance (code : Nat) : Decidable (Known code) := decidable_of_iff _ isSome_ofCode?_iff

theorem ofCode?_eq_none_iff {code : Nat} : ofCode? code = none ↔ ¬Known code := by
  rw [← isSome_ofCode?_iff, Bool.not_eq_true, Option.isSome_eq_false_iff, Option.isNone_iff_eq_none]

theorem code_eq_iff {c d : Category} : c.code = d.code ↔ c = d := by
  rw [← ofCode?_eq_some_iff, ofCode?_code, Option.some_inj, eq_comm]

end Category

/-- The severity that the last override of a code gives it. -/
def lastOverride? (overrides : List (Nat × Severity)) (code : Nat) : Option Severity :=
  (overrides.filter (·.1 == code)).getLast?.map (·.2)

theorem lastOverride?_append (first second : List (Nat × Severity)) (code : Nat) :
    lastOverride? (first ++ second) code =
      (lastOverride? second code).or (lastOverride? first code) := by
  simp only [lastOverride?, List.filter_append, List.getLast?_append, Option.map_or]

theorem lastOverride?_cons (code other : Nat) (severity : Severity) (rest : List (Nat × Severity)) :
    lastOverride? ((other, severity) :: rest) code =
      (lastOverride? rest code).or (if other = code then some severity else none) := by
  unfold lastOverride?
  by_cases same : other = code
  · rw [List.filter_cons_of_pos (by simpa using same), List.getLast?_cons, if_pos same]
    cases (rest.filter (·.1 == code)).getLast? <;> rfl
  · rw [List.filter_cons_of_neg (by simpa using same), if_neg same, Option.or_none]

theorem lastOverride?_map (codes : List Nat) (severity : Severity) (code : Nat) :
    lastOverride? (codes.map (·, severity)) code = if code ∈ codes then some severity else none := by
  induction codes with
  | nil => rfl
  | cons first rest ih =>
    rw [List.map_cons, lastOverride?_cons, ih]
    by_cases later : code ∈ rest
    · simp [later]
    · simp [later, eq_comm]

namespace SeverityTable

/-- Of overrides with known codes, the last one of a category's code holds. -/
theorem severity_of_applyAll {overrides : List (Nat × Severity)} {table applied : SeverityTable}
    (h : table.applyAll overrides = .ok applied) (c : Category) :
    applied.severity c = (lastOverride? overrides c.code).getD (table.severity c) := by
  induction overrides generalizing table with
  | nil =>
    cases h
    rfl
  | cons override rest ih =>
    obtain ⟨code, severity⟩ := override
    rw [applyAll] at h
    split at h
    · rename_i category known
      rw [ih h, severity_set, lastOverride?_cons, ← Category.code_of_ofCode? known]
      cases lastOverride? rest c.code with
      | some later => rfl
      | none => by_cases same : c = category <;> simp [same, Category.code_eq_iff, eq_comm]
    · cases h

/-- Overrides are applied, or else the first code that names no category is the error. -/
theorem applyAll_cases (table : SeverityTable) (overrides : List (Nat × Severity)) :
    (∃ applied, table.applyAll overrides = .ok applied ∧
      ∀ code ∈ overrides.map (·.1), Category.Known code) ∨
    ∃ before code after, overrides.map (·.1) = before ++ code :: after ∧
      (∀ known ∈ before, Category.Known known) ∧ ¬Category.Known code ∧
      table.applyAll overrides = .error code := by
  induction overrides generalizing table with
  | nil => exact .inl ⟨table, rfl, by simp⟩
  | cons override rest ih =>
    obtain ⟨code, severity⟩ := override
    rw [applyAll]
    split
    · rename_i category known
      have first : Category.Known code := ⟨category, Category.code_of_ofCode? known⟩
      obtain ⟨applied, result, others⟩ | ⟨before, unknown, after, split, others, failed⟩ :=
        ih (table.set category severity)
      · exact .inl ⟨applied, result, by simpa using ⟨first, by simpa using others⟩⟩
      · refine .inr ⟨code :: before, unknown, after, by simp [split], ?_, failed⟩
        exact List.forall_mem_cons.mpr ⟨first, others⟩
    · rename_i unknown
      exact .inr ⟨[], code, rest.map (·.1), rfl, by simp, Category.ofCode?_eq_none_iff.mp unknown, rfl⟩

end SeverityTable

/-- Of the lists of a settings file the later ones hold. -/
theorem Settings.lastOverride?_overrides (s : Settings) (code : Nat) :
    lastOverride? s.overrides code =
      if code ∈ s.hide then some .hidden else if code ∈ s.warning then some .warning
      else if code ∈ s.error then some .error else .none := by
  rw [overrides, lastOverride?_append, lastOverride?_append, lastOverride?_map, lastOverride?_map,
    lastOverride?_map]
  split
  · rfl
  · split <;> rfl

end ApiCompat
