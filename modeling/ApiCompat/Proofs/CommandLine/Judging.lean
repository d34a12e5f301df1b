import ApiCompat.CommandLine.Run
import ApiCompat.Proofs.CommandLine.Reading
import ApiCompat.Proofs.Diagnostic.Overrides

/-! What a run comes to. The settings and the line give the severities in force, or else the first
unknown code. Under these severities the categories are listed, or else two snapshots compared. -/
namespace ApiCompat

/-- The codes whose severities the settings change, in the order in which they apply. -/
def Settings.codes (s : Settings) : List Nat := s.error ++ s.warning ++ s.hide

theorem Settings.map_overrides (s : Settings) : s.overrides.map (·.1) = s.codes := by
  simp [overrides, codes, Function.comp_def]

namespace CommandLine

section Run

variable (s : Surroundings) (items : List Item)

/-- The codes that receive severities, settings before the line. -/
def codes (settings : Settings) : List Nat :=
  settings.codes ++ (items.filterMap Item.override?).map (·.1)

/-- The settings apply, and every code that they or the line name is known. -/
structure Configured (settings : Settings) : Prop where
  applied : s.settings (items.findSome? Item.config?) = .ok settings
  known : ∀ code ∈ codes items settings, Category.Known code

/-- The run comes to its two snapshots. -/
structure Loads (settings : Settings) (old new : String) : Prop where
  configured : Configured s items settings
  comparing : .switch .listCategories ∉ items
  operands : items.filterMap Item.operand? = [old, new]
  apart : ¬(old = standardInputPath ∧ new = standardInputPath)

end Run

/-- The severity in force: that of the last mention on the line, or else that of the last of the
settings' lists with the code, or else the default. -/
def inForce (settings : Settings) (items : List Item) (c : Category) : Severity :=
  match ((items.filterMap Item.override?).filter (·.1 == c.code)).getLast? with
  | some mention => mention.2
  | none =>
    if c.code ∈ settings.hide then .hidden
    else if c.code ∈ settings.warning then .warning
    else if c.code ∈ settings.error then .error
    else c.defaultSeverity

/-- The form of the report: the line goes before the settings. -/
def form (settings : Settings) (items : List Item) : Report.Format :=
  ((items.findSome? Item.format?).or (settings.format.bind Report.Format.ofAnyCase?)).getD .text

theorem inForce_eq (settings : Settings) (items : List Item) (c : Category) :
    inForce settings items c =
      (lastOverride? (settings.overrides ++ items.filterMap Item.override?) c.code).getD
        c.defaultSeverity := by
  rw [lastOverride?_append, Settings.lastOverride?_overrides, lastOverride?, inForce]
  cases ((items.filterMap Item.override?).filter (·.1 == c.code)).getLast? with
  | some mention => rfl
  | none =>
    simp only [Option.map_none, Option.none_or]
    split
    · rfl
    · split
      · rfl
      · split <;> rfl

variable {line : List String} {arguments : Arguments} {items : List Item} {s : Surroundings}
  {settings : Settings}

theorem run_of_parse (accepted : Arguments.parse line = .ok arguments) (s : Surroundings) :
    run line s = arguments.run s := by
  rw [run, accepted]

theorem run_of_severities {table : SeverityTable}
    (applied : s.settings arguments.config = .ok settings)
    (made : severities settings arguments = .ok table) :
    arguments.run s = (Style.choose settings arguments).outcome (judge table arguments s) := by
  rw [Arguments.run, applied]
  simp only [made]

section Accepted

variable (accepted : Arguments.parse line = .ok arguments) (spells : Spells items line)
include accepted spells

theorem format_choose (settings : Settings) :
    (Style.choose settings arguments).format = form settings items := by
  have gathered := (Arguments.gathers_of_parse accepted spells).format
  simp only [Arguments.empty, Option.none_or] at gathered
  rw [Style.choose, form, gathered]

/-- The severities in force, or else the first unknown code, settings before arguments. -/
theorem severities_cases (settings : Settings) :
    (∃ table, severities settings arguments = .ok table ∧
      (∀ code ∈ codes items settings, Category.Known code) ∧
      table.severity = inForce settings items) ∨
    ∃ before code after, codes items settings = before ++ code :: after ∧
      (∀ known ∈ before, Category.Known known) ∧ ¬Category.Known code ∧
      severities settings arguments = .error (.unknownCode code) := by
  obtain ⟨overrides, _⟩ := Arguments.parts_of_parse accepted spells
  rw [codes, ← settings.map_overrides, ← List.map_append, ← overrides]
  obtain ⟨table, applied, known⟩ | ⟨before, code, after, split, known, unknown, failed⟩ :=
    SeverityTable.default.applyAll_cases (settings.overrides ++ arguments.overrides)
  · refine .inl ⟨table, by rw [severities, applied]; rfl, known, ?_⟩
    funext c
    rw [SeverityTable.severity_of_applyAll applied, overrides, inForce_eq]
    rfl
  · exact .inr ⟨before, code, after, split, known, unknown, by rw [severities, failed]; rfl⟩

theorem severities_of_known (known : ∀ code ∈ codes items settings, Category.Known code) :
    ∃ table, severities settings arguments = .ok table ∧
      table.severity = inForce settings items := by
  obtain ⟨table, made, _, severity⟩ | ⟨before, code, after, split, _, unknown, _⟩ :=
    severities_cases accepted spells settings
  · exact ⟨table, made, severity⟩
  · apply absurd _ unknown
    apply known
    rw [split]
    simp

theorem judge_cases (table : SeverityTable) :
    (.switch .listCategories ∈ items ∧
      ∀ s, judge table arguments s = .ok (.categories table)) ∨
    .switch .listCategories ∉ items ∧ ∃ old new, items.filterMap Item.operand? = [old, new] ∧
      ∀ s, judge table arguments s = compareSnapshots table old new s := by
  obtain ⟨_, _, operands, switches⟩ := Arguments.parts_of_parse accepted spells
  by_cases listed : arguments.has .listCategories = true
  · exact .inl ⟨(switches _).mp listed, fun s => if_pos listed⟩
  · obtain ⟨old, new, both⟩ := Arguments.exists_operands_of_parse accepted (by simpa using listed)
    refine .inr ⟨fun inside => listed ((switches _).mpr inside), old, new, operands ▸ both, ?_⟩
    intro s
    rw [judge, if_neg listed, both]
    rfl

theorem judge_of_listing (listing : .switch .listCategories ∈ items) (table : SeverityTable)
    (s : Surroundings) : judge table arguments s = .ok (.categories table) := by
  obtain ⟨_, result⟩ | ⟨comparing, _⟩ := judge_cases accepted spells table
  · exact result s
  · exact absurd listing comparing

theorem judge_of_loads {old new : String} (loads : Loads s items settings old new)
    (table : SeverityTable) {before after : Snapshot} (ho : s.snapshot old = .ok before)
    (hn : s.snapshot new = .ok after) : judge table arguments s =
      .ok (.comparison old new (Compatibility.check table before after)) := by
  obtain ⟨listed, _⟩ | ⟨_, _, _, operands, result⟩ := judge_cases accepted spells table
  · exact absurd listed loads.comparing
  · cases operands.symm.trans loads.operands
    rw [result, compareSnapshots, if_neg loads.apart, ho, hn]
    rfl

/-- A run that comes to its snapshots shows their comparison under the severities in force. -/
theorem run_of_loads {old new : String} (loads : Loads s items settings old new)
    {before after : Snapshot} (ho : s.snapshot old = .ok before) (hn : s.snapshot new = .ok after) :
    ∃ table, table.severity = inForce settings items ∧ run line s =
      (Style.choose settings arguments).outcome
        (.ok (.comparison old new (Compatibility.check table before after))) := by
  obtain ⟨_, config, _⟩ := Arguments.parts_of_parse accepted spells
  have applied : s.settings arguments.config = .ok settings := config ▸ loads.configured.applied
  obtain ⟨table, made, severity⟩ := severities_of_known accepted spells loads.configured.known
  refine ⟨table, severity, ?_⟩
  rw [run_of_parse accepted, run_of_severities applied made,
    judge_of_loads accepted spells loads table ho hn]

end Accepted

end CommandLine

end ApiCompat
