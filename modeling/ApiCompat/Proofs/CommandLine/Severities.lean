import ApiCompat.Proofs.CommandLine.Judging
import ApiCompat.Proofs.CommandLine.Presenting

/-! The severities of a run. The last mention of a category on the command line decides, or else the
settings, or else the default; nothing behind two hyphens is a mention. A listing shows these
severities, and the findings of a comparison are kept and counted by them. -/
namespace ApiCompat.CommandLine

variable {line : List String} {s : Surroundings} {arguments : Arguments} {settings : Settings}

/-- The severity of a category is that of its last mention on the line, in any spelling; without one
that of the last of the settings' lists that holds its code; and its default otherwise. With it
the category is listed, and with it every finding is kept or counted. -/
theorem severity_of_last_mention (accepted : Arguments.parse line = .ok arguments)
    (applied : s.settings arguments.config = .ok settings)
    (known : ∀ code ∈ settings.codes ++ arguments.overrides.map (·.1), Category.Known code) :
    (∃ items, Spells items line) ∧ ∀ items, Spells items line →
      (∀ severity value, .option (.severity severity) value ∈ items →
        ∃ code, readCode value = .ok code) ∧
      arguments.overrides = items.filterMap Item.override? ∧
      (∀ before texts, line = before ++ "--" :: texts → "--" ∉ before →
        normalize line = before.map normalizeArgument ++ "--" :: texts ∧
        ∃ said, Spells said before ∧ items = said ++ texts.map .operand) ∧
      (∃ table, run line s = (Style.choose settings arguments).outcome (judge table arguments s) ∧
        table.severity = inForce settings items) ∧
      (.switch .listCategories ∈ items →
        Lists (inForce settings items) (run line s) (form settings items)) ∧
      ∀ old new before after, Loads s items settings old new → s.snapshot old = .ok before →
        s.snapshot new = .ok after → ∃ account,
          Graded (inForce settings items) (Compatibility.compare before after) account ∧
          Presents account (run line s) (form settings items) ∧
          ((run line s).status = 1 ↔ ∃ f ∈ Compatibility.compare before after,
            inForce settings items f.category = .error) := by
  refine ⟨Arguments.exists_spells_of_parse accepted, fun items spells => ?_⟩
  obtain ⟨mentions, _⟩ := Arguments.parts_of_parse accepted spells
  rw [mentions] at known
  obtain ⟨table, made, severity⟩ := severities_of_known accepted spells known
  have ran := (run_of_parse accepted s).trans (run_of_severities applied made)
  have style := format_choose accepted spells settings
  refine ⟨(Arguments.gathers_of_parse accepted spells).codes, mentions, ?_, ⟨table, ran, severity⟩,
    ?_, ?_⟩
  · intro before texts split first
    exact ⟨split ▸ normalize_split first, spells.split split first⟩
  · intro listing
    rw [ran, ← style, ← severity, judge_of_listing accepted spells listing]
    exact lists_outcome _ table
  · intro old new before after loads ho hn
    rw [ran, ← style, ← severity, judge_of_loads accepted spells loads table ho hn]
    refine ⟨_, graded_recordAll table old new _, presents_outcome _ old new _, ?_⟩
    rw [← Log.hadError_recordAll_empty_iff]
    exact status_eq_one_iff _ old new _

/-- A category named three times, one that the settings name as well, and one that they name twice;
the second snapshot has the name of an option. -/
def mixedLine : List String :=
  ["-hide", "8", "old.xml", "--warning=3", "--error", "8", "--", "-error"]

def mixedItems : List Item :=
  [.option (.severity .hidden) "8", .operand "old.xml", .option (.severity .warning) "3",
    .option (.severity .error) "8", .operand "-error"]

theorem spells_mixedLine : Spells mixedItems mixedLine := by
  have hidden : "-hide" = "-" ++ (ValueOption.severity .hidden).name := by decide
  have warning : "--warning=3" = "--" ++ (ValueOption.severity .warning).name ++ "=" ++ "3" := by
    decide
  have error : "--error" = "--" ++ (ValueOption.severity .error).name := by decide
  rw [mixedLine, hidden, warning, error]
  exact .hyphen (.inr (by decide)) (.operand (.inr (by decide)) (.attached
    (.separate (.inr (by decide)) (@Spells.terminated ["-error"]))))

/-- A method is lost, and a method and a field are new. -/
def mixedSurroundings : Surroundings where
  file path :=
    if path = defaultSettingsPath then
      .ok "severity = \x7b error = [3, 4], hide = [4] \x7d".toUTF8.toList
    else if path = "old.xml" then
      .ok ("<api><package name='p'><class name='C' visibility='public'>" ++
        "<method name='gone' return='int' visibility='public'/>" ++
        "</class></package></api>").toUTF8.toList
    else if path = "-error" then
      .ok ("<api><package name='p'><class name='C' visibility='public'>" ++
        "<method name='fresh' return='int' visibility='public'/>" ++
        "<field name='f' type='int' visibility='public'/>" ++
        "</class></package></api>").toUTF8.toList
    else .error .absent
  standardInput := []

theorem severity_of_last_mention_mixed : ∃ arguments settings account,
    Arguments.parse mixedLine = .ok arguments ∧
    mixedSurroundings.settings arguments.config = .ok settings ∧
    (∀ code ∈ settings.codes ++ arguments.overrides.map (·.1), Category.Known code) ∧
    [Category.removedMethod, .addedMethod, .addedField, .removedField].map
      (inForce settings mixedItems) = [.error, .warning, .hidden, .error] ∧
    Presents account (run mixedLine mixedSurroundings) .text ∧
    account.errors = 1 ∧ account.warnings = 1 ∧ account.suppressed = 1 ∧
    (run mixedLine mixedSurroundings).status = 1 := by
  have accepted : Arguments.parse mixedLine =
      .ok ⟨8, [⟨7, 8⟩], [⟨5, 3⟩], [⟨2, 8⟩], none, none, [], ["old.xml", "-error"]⟩ := by
    decide +kernel
  have applied : mixedSurroundings.settings none = .ok ⟨[3, 4], [], [4], none, none⟩ := by
    decide +kernel
  have found : (do
      let before ← mixedSurroundings.snapshot "old.xml"
      let after ← mixedSurroundings.snapshot "-error"
      return (Compatibility.compare before after).map Finding.category) =
        (.ok [.removedMethod, .addedMethod, .addedField] : Except _ (List Category)) := by
    decide +kernel
  obtain ⟨before, ho, found⟩ := ok_of_bind found
  obtain ⟨after, hn, found⟩ := ok_of_bind found
  have categories := Except.ok.inj found
  have mentions := (Arguments.parts_of_parse accepted spells_mixedLine).1
  have known : ∀ code ∈ [3, 4, 4] ++ (mixedItems.filterMap Item.override?).map (·.1),
      Category.Known code := by
    decide
  rw [← mentions] at known
  obtain ⟨_, each⟩ := severity_of_last_mention accepted applied known
  obtain ⟨_, _, _, _, _, compared⟩ := each mixedItems spells_mixedLine
  have loads : Loads mixedSurroundings mixedItems ⟨[3, 4], [], [4], none, none⟩ "old.xml"
      "-error" := ⟨⟨applied, by decide⟩, by decide, by decide, by decide⟩
  obtain ⟨account, graded, presents, status⟩ := compared _ _ _ _ loads ho hn
  have counted : ∀ severity, (Compatibility.compare before after).countP (fun f =>
      inForce ⟨[3, 4], [], [4], none, none⟩ mixedItems f.category = severity) =
      [Category.removedMethod, .addedMethod, .addedField].countP (fun c =>
        inForce ⟨[3, 4], [], [4], none, none⟩ mixedItems c = severity) := by
    intro severity
    rw [← categories, List.countP_map]
    rfl
  refine ⟨_, _, account, accepted, applied, known, by decide, presents, ?_, ?_, ?_, ?_⟩
  · rw [graded.errors, counted]
    decide
  · rw [graded.warnings, counted]
    decide
  · rw [graded.suppressed, counted]
    decide
  · have inside : Category.removedMethod ∈
        (Compatibility.compare before after).map (·.category) := by
      rw [categories]
      decide
    obtain ⟨f, hf, removed⟩ := List.mem_map.mp inside
    exact status.mpr ⟨f, hf, by rw [removed]; decide⟩

end ApiCompat.CommandLine
