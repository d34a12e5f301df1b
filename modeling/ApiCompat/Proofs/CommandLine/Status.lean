import ApiCompat.Proofs.CommandLine.Judging
import ApiCompat.Proofs.CommandLine.Presenting

/-! How a run ends. What can fail is looked at in a fixed order: the settings, the codes, the two
snapshots, and only then the findings; the first failure decides the status. The form of the
report has no part in this, nor in what there is to read of a comparison. -/
namespace ApiCompat.CommandLine

open Report (Account Color)

/-- The item chooses the form of the report and nothing else. -/
def Item.presentational : Item → Bool
  | option .format _ => true
  | switch .noColor => true
  | switch .compact => true
  | _ => false

section Run

variable (s : Surroundings) (items : List Item)

/-- What is said of a snapshot that cannot be loaded, perhaps in color. -/
def IsLoadFailure (side path : String) (fault : SnapshotFault) (outcome : Outcome) : Prop :=
  ∃ mark ∈ ["error:", Color.boldRed.paint "error:"], outcome = ⟨3, "", mark ++ " " ++
    ("failed to load " ++ side ++ " snapshot '" ++ path ++ "': " ++ fault.message) ++ "\n"⟩

/-- The ends of a run. Each of them excludes those before it. -/
inductive Ends (outcome : Outcome) : Prop where
  | badSettings {path : String} {fault : SettingsFault} :
      items.findSome? Item.config? = some path → s.readSettings path = .error fault →
      outcome.status = 2 → Ends outcome
  | unknownCode {settings : Settings} {before after : List Nat} {code : Nat} :
      s.settings (items.findSome? Item.config?) = .ok settings →
      codes items settings = before ++ code :: after → (∀ known ∈ before, Category.Known known) →
      ¬Category.Known code →
      outcome = ⟨2, "", "error: " ++ SeverityTable.unknownCodeText code ++ "\n"⟩ → Ends outcome
  | listing {settings : Settings} : Configured s items settings →
      .switch .listCategories ∈ items →
      Lists (inForce settings items) outcome (form settings items) → outcome.status = 0 →
      Ends outcome
  | inputTwice {settings : Settings} : Configured s items settings →
      .switch .listCategories ∉ items →
      items.filterMap Item.operand? = [standardInputPath, standardInputPath] →
      outcome.status = 2 → Ends outcome
  | badOld {settings : Settings} {old new : String} {fault : SnapshotFault} :
      Loads s items settings old new → s.snapshot old = .error fault →
      IsLoadFailure "old" old fault outcome → Ends outcome
  | badNew {settings : Settings} {old new : String} {before : Snapshot} {fault : SnapshotFault} :
      Loads s items settings old new → s.snapshot old = .ok before →
      s.snapshot new = .error fault → IsLoadFailure "new" new fault outcome → Ends outcome
  | compared {settings : Settings} {old new : String} {before after : Snapshot}
      {table : SeverityTable} : Loads s items settings old new → s.snapshot old = .ok before →
      s.snapshot new = .ok after → table.severity = inForce settings items →
      Presents (.of old new (Compatibility.check table before after)) outcome
        (form settings items) →
      outcome.status = (if ∃ d ∈ (Compatibility.check table before after).kept,
        table.severity d.category = .error then 1 else 0) → Ends outcome

end Run

theorem status_outcome (style other : Style) (result : Except Failure Result) :
    (style.outcome result).status = (other.outcome result).status := by
  cases result <;> rfl

theorem outcome_unknownCode (code : Nat) : (Failure.unknownCode code).outcome false =
    ⟨2, "", "error: " ++ SeverityTable.unknownCodeText code ++ "\n"⟩ := by
  have mark : "error:" ++ " " = "error: " := by decide
  rw [← mark]
  rfl

theorem isLoadFailure_outcome (side : Side) (path : String) (fault : SnapshotFault)
    (colored : Bool) :
    IsLoadFailure side.text path fault ((Failure.snapshot side path fault).outcome colored) := by
  cases colored with
  | false => exact ⟨_, List.mem_cons_self, rfl⟩
  | true => exact ⟨_, List.mem_cons_of_mem _ List.mem_cons_self, rfl⟩

theorem status_comparison (table : SeverityTable) (old new : String) (before after : Snapshot) :
    (Result.comparison old new (Compatibility.check table before after)).status =
      if ∃ d ∈ (Compatibility.check table before after).kept, table.severity d.category = .error
        then 1 else 0 := by
  rw [Result.status, Compatibility.check]
  simp only [Log.hadError_recordAll_iff]

section Settings

variable {s : Surroundings} {named : Option String}

theorem fault_of_settings {path : String} {fault : SettingsFault}
    (failed : s.settings named = .error (path, fault)) :
    named = some path ∧ s.readSettings path = .error fault := by
  cases named with
  | none =>
    rw [Surroundings.settings] at failed
    split at failed <;> cases failed
  | some named =>
    rw [Surroundings.settings] at failed
    cases read : s.readSettings named with
    | ok settings =>
      rw [read] at failed
      cases failed
    | error other =>
      rw [read] at failed
      cases failed
      exact ⟨rfl, read⟩

/-- Of the surroundings the settings need one file. -/
theorem settings_congr {other : Surroundings}
    (same : other.file (named.getD defaultSettingsPath) = s.file (named.getD defaultSettingsPath)) :
    other.settings named = s.settings named := by
  cases named <;>
    · simp only [Option.getD_none, Option.getD_some] at same
      simp only [Surroundings.settings, Surroundings.readSettings, same]

end Settings

section Accepted

variable {line : List String} {arguments : Arguments} {items : List Item} {s : Surroundings}

theorem ends_of_judge (accepted : Arguments.parse line = .ok arguments) (spells : Spells items line)
    {settings : Settings} (configured : Configured s items settings) {table : SeverityTable}
    (severity : table.severity = inForce settings items) :
    Ends s items ((Style.choose settings arguments).outcome (judge table arguments s)) := by
  have style := format_choose accepted spells settings
  obtain ⟨listed, result⟩ | ⟨comparing, old, new, operands, result⟩ :=
    judge_cases accepted spells table
  · rw [result]
    refine .listing configured listed ?_ rfl
    rw [← severity, ← style]
    exact lists_outcome _ table
  · rw [result, compareSnapshots]
    by_cases twice : old = standardInputPath ∧ new = standardInputPath
    · rw [if_pos twice]
      exact .inputTwice configured comparing (by rw [operands, twice.1, twice.2]) rfl
    · rw [if_neg twice]
      have loads : Loads s items settings old new := ⟨configured, comparing, operands, twice⟩
      cases before : s.snapshot old with
      | error fault => exact .badOld loads before (isLoadFailure_outcome .old old fault _)
      | ok before' =>
        cases after : s.snapshot new with
        | error fault => exact .badNew loads before after (isLoadFailure_outcome .new new fault _)
        | ok after' =>
          have presents := presents_outcome (Style.choose settings arguments) old new
            (Compatibility.check table before' after')
          rw [style] at presents
          exact .compared loads before after severity presents
            (status_comparison table old new before' after')

theorem ends_of_parse (accepted : Arguments.parse line = .ok arguments)
    (spells : Spells items line) : Ends s items (run line s) := by
  obtain ⟨_, config, _⟩ := Arguments.parts_of_parse accepted spells
  rw [run_of_parse accepted, Arguments.run]
  cases applied : s.settings arguments.config with
  | error failed =>
    obtain ⟨path, fault⟩ := failed
    obtain ⟨named, unread⟩ := fault_of_settings applied
    exact .badSettings (config ▸ named) unread rfl
  | ok settings =>
    dsimp only
    rw [config] at applied
    obtain ⟨table, made, known, severity⟩ | ⟨before, code, after, split, known, unknown, failed⟩ :=
      severities_cases accepted spells settings
    · simp only [made]
      exact ends_of_judge accepted spells ⟨applied, known⟩ severity
    · simp only [failed]
      exact .unknownCode applied split known unknown (outcome_unknownCode code)

/-- Where no snapshot is loaded, only the settings file matters. -/
theorem run_congr (accepted : Arguments.parse line = .ok arguments) (spells : Spells items line)
    {other : Surroundings}
    (same : other.file ((items.findSome? Item.config?).getD defaultSettingsPath) =
      s.file ((items.findSome? Item.config?).getD defaultSettingsPath))
    (unloaded : ∀ settings old new, ¬Loads s items settings old new) :
    run line other = run line s := by
  obtain ⟨_, config, _⟩ := Arguments.parts_of_parse accepted spells
  simp only [run_of_parse accepted, Arguments.run, config, settings_congr same]
  cases applied : s.settings (items.findSome? Item.config?) with
  | error failed => rfl
  | ok settings =>
    dsimp only
    obtain ⟨table, made, known, _⟩ | ⟨_, code, _, _, _, _, failed⟩ :=
      severities_cases accepted spells settings
    · simp only [made]
      obtain ⟨_, result⟩ | ⟨comparing, old, new, operands, result⟩ :=
        judge_cases accepted spells table
      · rw [result, result]
      · -- two operands that are not loaded can only be the standard input twice
        have twice : old = standardInputPath ∧ new = standardInputPath := by
          by_contra apart
          exact unloaded settings old new ⟨⟨applied, known⟩, comparing, operands, apart⟩
        rw [result, result, compareSnapshots, compareSnapshots, if_pos twice, if_pos twice]
    · simp only [failed]

end Accepted

section Form

/-- The items agree but for those that choose the form of the report. -/
def Alike (items others : List Item) : Prop :=
  others.filter (!·.presentational) = items.filter (!·.presentational)

variable {items others : List Item}

theorem Item.parts_of_presentational {item : Item} (form : item.presentational = true) :
    item.override? = none ∧ item.config? = none ∧ item.operand? = none := by
  unfold presentational at form
  split at form
  · exact ⟨rfl, rfl, rfl⟩
  · exact ⟨rfl, rfl, rfl⟩
  · exact ⟨rfl, rfl, rfl⟩
  · cases form

theorem Alike.filterMap_eq {α : Type} (alike : Alike items others) {part : Item → Option α}
    (blind : ∀ item : Item, item.presentational = true → part item = none) :
    others.filterMap part = items.filterMap part := by
  have without : ∀ list : List Item,
      (list.filter (!·.presentational)).filterMap part = list.filterMap part := by
    intro list
    rw [List.filterMap_filter]
    refine List.filterMap_congr fun item _ => ?_
    cases form : item.presentational
    · rfl
    · exact (blind item form).symm
  rw [← without others, alike, without]

/-- The arguments give the same but for the form of the report. -/
structure Arguments.Alike (a b : Arguments) : Prop where
  overrides : b.overrides = a.overrides
  config : b.config = a.config
  operands : b.operands = a.operands
  listing : b.has .listCategories = a.has .listCategories

theorem Alike.arguments (alike : Alike items others) {line line' : List String} {a b : Arguments}
    (accepted : Arguments.parse line = .ok a) (spells : Spells items line)
    (accepted' : Arguments.parse line' = .ok b) (spells' : Spells others line') : a.Alike b := by
  obtain ⟨overrides, config, operands, switches⟩ := Arguments.parts_of_parse accepted spells
  obtain ⟨overrides', config', operands', switches'⟩ := Arguments.parts_of_parse accepted' spells'
  refine ⟨?_, ?_, ?_, ?_⟩
  · rw [overrides, overrides',
      alike.filterMap_eq fun _ form => (Item.parts_of_presentational form).1]
  · rw [config, config', ← List.head?_filterMap, ← List.head?_filterMap,
      alike.filterMap_eq fun _ form => (Item.parts_of_presentational form).2.1]
  · rw [operands, operands',
      alike.filterMap_eq fun _ form => (Item.parts_of_presentational form).2.2]
  · have same : .switch .listCategories ∈ others ↔ .switch .listCategories ∈ items := by
      have both := congrArg (.switch .listCategories ∈ ·) alike
      simpa [Item.presentational] using both
    rw [Bool.eq_iff_iff, switches', switches, same]

namespace Arguments.Alike

variable {a b : Arguments} (alike : a.Alike b)
include alike

theorem severities_eq (settings : Settings) : severities settings b = severities settings a := by
  rw [severities, severities, alike.overrides]

theorem judge_eq (table : SeverityTable) (s : Surroundings) :
    judge table b s = judge table a s := by
  rw [judge, judge, alike.listing, alike.operands]

/-- The runs have one result, each in its own style. -/
theorem exists_result (s : Surroundings) : ∃ style other result,
    a.run s = Style.outcome style result ∧ b.run s = Style.outcome other result := by
  rw [run, run, alike.config]
  -- a failure before the style is chosen is shown without color, so any two styles will do
  cases s.settings a.config with
  | error failed => exact ⟨⟨.text, false, false⟩, ⟨.text, false, false⟩, .error _, rfl, rfl⟩
  | ok settings =>
    dsimp only
    rw [alike.severities_eq]
    cases severities settings a with
    | error failure => exact ⟨⟨.text, false, false⟩, ⟨.text, false, false⟩, .error _, rfl, rfl⟩
    | ok table => exact ⟨_, _, _, rfl, by rw [← alike.judge_eq]⟩

end Arguments.Alike

end Form

/-- Two snapshots are compared under the severities in force, and each form of the report gives the
same account of it. -/
theorem presents_of_alike {line line' : List String} {a b : Arguments} {items others : List Item}
    {s : Surroundings} (accepted : Arguments.parse line = .ok a) (spells : Spells items line)
    (accepted' : Arguments.parse line' = .ok b) (spells' : Spells others line')
    (agree : a.Alike b) {settings : Settings} {old new : String} {before after : Snapshot}
    (loads : Loads s items settings old new) (ho : s.snapshot old = .ok before)
    (hn : s.snapshot new = .ok after) : ∃ table, table.severity = inForce settings items ∧
      Presents (.of old new (Compatibility.check table before after)) (run line s)
        (form settings items) ∧
      Presents (.of old new (Compatibility.check table before after)) (run line' s)
        (form settings others) := by
  obtain ⟨_, config, _⟩ := Arguments.parts_of_parse accepted spells
  have applied : s.settings a.config = .ok settings := config ▸ loads.configured.applied
  obtain ⟨table, made, severity⟩ := severities_of_known accepted spells loads.configured.known
  have made' := (agree.severities_eq settings).trans made
  have result := judge_of_loads accepted spells loads table ho hn
  refine ⟨table, severity, ?_, ?_⟩
  · rw [run_of_parse accepted, run_of_severities applied made, result,
      ← format_choose accepted spells settings]
    exact presents_outcome _ old new _
  · rw [run_of_parse accepted', run_of_severities (agree.config.symm ▸ applied) made',
      agree.judge_eq, result, ← format_choose accepted' spells' settings]
    exact presents_outcome _ old new _

/-- Every accepted line ends in the first of the ways that apply. Unless the snapshots are come to,
only the settings file matters, and lines that differ in the form of the report have one
status and let one account be read, the same diagnostics in the same order. -/
theorem ends_in_order {line : List String} {arguments : Arguments}
    (accepted : Arguments.parse line = .ok arguments) :
    (∃ items, Spells items line) ∧ ∀ items, Spells items line → ∀ s : Surroundings,
      Ends s items (run line s) ∧
      (∀ other : Surroundings,
        other.file ((items.findSome? Item.config?).getD defaultSettingsPath) =
          s.file ((items.findSome? Item.config?).getD defaultSettingsPath) →
        (∀ settings old new, ¬Loads s items settings old new) → run line other = run line s) ∧
      ∀ line' arguments' items', Arguments.parse line' = .ok arguments' → Spells items' line' →
        Alike items items' →
        (run line' s).status = (run line s).status ∧
        ∀ settings old new before after, Loads s items settings old new →
          s.snapshot old = .ok before → s.snapshot new = .ok after →
          ∃ table, table.severity = inForce settings items ∧
            Presents (.of old new (Compatibility.check table before after)) (run line s)
              (form settings items) ∧
            Presents (.of old new (Compatibility.check table before after)) (run line' s)
              (form settings items') := by
  refine ⟨Arguments.exists_spells_of_parse accepted, fun items spells s =>
    ⟨ends_of_parse accepted spells, fun other => run_congr accepted spells, ?_⟩⟩
  intro line' arguments' items' accepted' spells' alike
  have agree := alike.arguments accepted spells accepted' spells'
  constructor
  · obtain ⟨style, other, result, ran, ran'⟩ := agree.exists_result s
    rw [run_of_parse accepted, run_of_parse accepted', ran, ran']
    exact status_outcome other style result
  · intro settings old new before after loads ho hn
    exact presents_of_alike accepted spells accepted' spells' agree loads ho hn

/-- An old snapshot on the standard input, and JSON asked for. -/
def pipedLine : List String :=
  ["--error", "3", "--warning=8", "-", "--format=json", "--compact", "new.xml"]

def pipedItems : List Item :=
  [.option (.severity .error) "3", .option (.severity .warning) "8", .operand "-",
    .option .format "json", .switch .compact, .operand "new.xml"]

/-- The same without a form, in other words. -/
def barePipedLine : List String := ["-error", "3", "-warning", "8", "--", "-", "new.xml"]

def barePipedItems : List Item :=
  [.option (.severity .error) "3", .option (.severity .warning) "8", .operand "-",
    .operand "new.xml"]

theorem spells_pipedLine : Spells pipedItems pipedLine := by
  have error : "--error" = "--" ++ (ValueOption.severity .error).name := by decide
  have warning : "--warning=8" = "--" ++ (ValueOption.severity .warning).name ++ "=" ++ "8" := by
    decide
  have format : "--format=json" = "--" ++ ValueOption.format.name ++ "=" ++ "json" := by decide
  rw [pipedLine, error, warning, format]
  exact .separate (.inr (by decide)) (.attached (.operand (.inl rfl)
    (.attached (.switch (.operand (.inr (by decide)) .nil)))))

theorem spells_barePipedLine : Spells barePipedItems barePipedLine := by
  have error : "-error" = "-" ++ (ValueOption.severity .error).name := by decide
  have warning : "-warning" = "-" ++ (ValueOption.severity .warning).name := by decide
  rw [barePipedLine, error, warning]
  exact .hyphen (.inr (by decide)) (.hyphen (.inr (by decide))
    (@Spells.terminated ["-", "new.xml"]))

/-- A method is lost, and another one is new. -/
def pipedSurroundings : Surroundings where
  file path :=
    if path = "new.xml" then
      .ok ("<api><package name='p'><class name='C' visibility='public'>" ++
        "<method name='fresh' return='int' visibility='public'/>" ++
        "</class></package></api>").toUTF8.toList
    else .error .absent
  standardInput :=
    ("<api><package name='p'><class name='C' visibility='public'>" ++
      "<method name='gone' return='int' visibility='public' source='p/C.java:4'/>" ++
      "</class></package></api>").toUTF8.toList

def lostMethod : Finding :=
  ⟨.removedMethod, "Removed method p.C.gone()", some ⟨"p/C.java", 4⟩⟩

def freshMethod : Finding := ⟨.addedMethod, "Added method p.C.fresh()", none⟩

theorem log_piped {table : SeverityTable} (severity : table.severity = inForce .none pipedItems) :
    (Log.empty table).recordAll [lostMethod, freshMethod] =
      ⟨table, [⟨lostMethod, .warning⟩, ⟨freshMethod, .error⟩], 0, true⟩ := by
  have lost : table.severity .removedMethod = .warning := by
    rw [severity]
    decide
  have fresh : table.severity .addedMethod = .error := by
    rw [severity]
    decide
  simp [Log.recordAll, Log.record, Log.empty, lostMethod, freshMethod, lost, fresh]

/-- The error is shown first, though the loss was recorded first. -/
theorem mergeSort_piped :
    [⟨lostMethod, .warning⟩, ⟨freshMethod, .error⟩].mergeSort Diagnostic.le =
      [⟨freshMethod, .error⟩, ⟨lostMethod, .warning⟩] := by
  simp [List.mergeSort, List.MergeSort.Internal.splitInTwo, Diagnostic.le, Severity.rank]

def pipedAccount : Account :=
  ⟨"-", "new.xml", 1, 1, 0, [⟨freshMethod, .error⟩, ⟨lostMethod, .warning⟩]⟩

theorem account_piped {table : SeverityTable}
    (severity : table.severity = inForce .none pipedItems) :
    Account.of "-" "new.xml" ((Log.empty table).recordAll [lostMethod, freshMethod]) =
      pipedAccount := by
  rw [log_piped severity, Account.of, Log.sorted, mergeSort_piped]
  rfl

theorem ends_in_order_piped : (∃ arguments, Arguments.parse pipedLine = .ok arguments) ∧
    Ends pipedSurroundings pipedItems (run pipedLine pipedSurroundings) ∧
    Presents pipedAccount (run pipedLine pipedSurroundings) .json ∧
    Presents pipedAccount (run barePipedLine pipedSurroundings) .text ∧
    run pipedLine pipedSurroundings =
      ⟨1, "\x7b\"old\":\"-\",\"new\":\"new.xml\",\"errors\":1,\"warnings\":1,\"suppressed\":0," ++
        "\"diagnostics\":[\x7b\"category\":\"added_method\",\"code\":3,\"severity\":\"error\"," ++
        "\"message\":\"Added method p.C.fresh()\"\x7d,\x7b\"category\":\"removed_method\"," ++
        "\"code\":8,\"severity\":\"warning\",\"message\":\"Removed method p.C.gone()\"," ++
        "\"location\":\x7b\"file\":\"p/C.java\",\"line\":4\x7d\x7d]\x7d\n", ""⟩ ∧
    run barePipedLine pipedSurroundings =
      ⟨1, "", "error 3: Added method p.C.fresh()\n" ++
        "p/C.java:4: warning 8: Removed method p.C.gone()\n"⟩ := by
  have accepted : Arguments.parse pipedLine = .ok ⟨9, [⟨2, 3⟩], [⟨4, 8⟩], [], some .json, none,
      [.compact], ["-", "new.xml"]⟩ := by decide +kernel
  have accepted' : Arguments.parse barePipedLine =
      .ok ⟨6, [⟨2, 3⟩], [⟨4, 8⟩], [], none, none, [], ["-", "new.xml"]⟩ := by decide +kernel
  have loads : Loads pipedSurroundings pipedItems .none "-" "new.xml" :=
    ⟨⟨by decide +kernel, by decide +kernel⟩, by decide, by decide +kernel, by decide⟩
  have found : (do
      let before ← pipedSurroundings.snapshot "-"
      let after ← pipedSurroundings.snapshot "new.xml"
      return Compatibility.compare before after) =
        (.ok [lostMethod, freshMethod] : Except _ (List Finding)) := by
    decide +kernel
  obtain ⟨before, ho, found⟩ := ok_of_bind found
  obtain ⟨after, hn, found⟩ := ok_of_bind found
  have found := Except.ok.inj found
  obtain ⟨_, each⟩ := ends_in_order accepted
  obtain ⟨ends, _, forms⟩ := each pipedItems spells_pipedLine pipedSurroundings
  obtain ⟨same, presented⟩ := forms _ _ _ accepted' spells_barePipedLine rfl
  obtain ⟨table, severity, first, second⟩ := presented _ _ _ _ _ loads ho hn
  rw [Compatibility.check, found, account_piped severity] at first second
  refine ⟨⟨_, accepted⟩, ends, first, second, ?_, ?_⟩
  · obtain ⟨table, severity, ran⟩ := run_of_loads accepted spells_pipedLine loads ho hn
    rw [ran, Compatibility.check, found, log_piped severity]
    simp only [Style.outcome, Style.output, Style.errors, Result.status, Report.comparisonJson,
      Log.errors, Log.warnings, Log.count, Log.sorted, mergeSort_piped]
    decide +kernel
  · have loads' : Loads pipedSurroundings barePipedItems .none "-" "new.xml" :=
      ⟨⟨loads.configured.applied, loads.configured.known⟩, by decide, loads.operands, loads.apart⟩
    obtain ⟨table, severity, ran⟩ := run_of_loads accepted' spells_barePipedLine loads' ho hn
    rw [ran, Compatibility.check, found, log_piped severity]
    simp only [Style.outcome, Style.output, Style.errors, Result.status, Report.comparisonJson,
      Log.errors, Log.warnings, Log.count, Log.sorted, mergeSort_piped]
    decide +kernel

end ApiCompat.CommandLine
