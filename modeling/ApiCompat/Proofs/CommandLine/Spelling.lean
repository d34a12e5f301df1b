import ApiCompat.CommandLine.Arguments
import ApiCompat.Proofs.Snapshot.Loading
import Mathlib.Data.List.TakeWhile

/-! What a command line says. A line spells a sequence of items: options with their values, switches
and operands. An argument has one form, by which it is taken, and what stands behind two
hyphens is kept as it is. -/
namespace ApiCompat.CommandLine

inductive Item where
  | option (option : ValueOption) (value : String)
  | switch (switch : Switch)
  | operand (text : String)
  deriving DecidableEq, Repr

/-- An argument that is no option; a hyphen that stands alone is none either. -/
def IsPlain (argument : String) : Prop := argument = "-" ∨ argument.toList.head? ≠ some '-'

/-- The items that a line consists of, in every spelling of each. -/
inductive Spells : List Item → List String → Prop where
  | nil : Spells [] []
  | separate {option : ValueOption} {value : String} {items : List Item} {line : List String} :
      IsPlain value → Spells items line →
      Spells (.option option value :: items) (("--" ++ option.name) :: value :: line)
  | attached {option : ValueOption} {value : String} {items : List Item} {line : List String} :
      Spells items line →
      Spells (.option option value :: items) (("--" ++ option.name ++ "=" ++ value) :: line)
  /-- The old form of the options for severities. -/
  | hyphen {severity : Severity} {value : String} {items : List Item} {line : List String} :
      IsPlain value → Spells items line → Spells (.option (.severity severity) value :: items)
        (("-" ++ (ValueOption.severity severity).name) :: value :: line)
  | switch {switch : Switch} {items : List Item} {line : List String} :
      Spells items line → Spells (.switch switch :: items) (switch.text :: line)
  | letters {switches : List Switch} {letters : List Char} {items : List Item}
      {line : List String} : letters ≠ [] → switches.map Switch.letter? = letters.map some →
      Spells items line →
      Spells (switches.map .switch ++ items) (String.ofList ('-' :: letters) :: line)
  | operand {text : String} {items : List Item} {line : List String} :
      IsPlain text → Spells items line → Spells (.operand text :: items) (text :: line)
  /-- Everything behind two hyphens is an operand, whatever it looks like. -/
  | terminated {texts : List String} : Spells (texts.map .operand) ("--" :: texts)

namespace ValueOption

theorem ofName?_name (option : ValueOption) : ofName? option.name = some option := by
  cases option with
  | severity s => cases s <;> decide
  | _ => decide

theorem name_of_ofName? {name : String} {option : ValueOption} (h : ofName? name = some option) :
    option.name = name := by
  simpa using List.find?_some h

theorem ofName?_switch (switch : Switch) : ofName? switch.name = none := by
  cases switch <;> decide

end ValueOption

namespace Switch

theorem ofName?_name (switch : Switch) : ofName? switch.name = some switch := by
  cases switch <;> decide

theorem name_of_ofName? {name : String} {switch : Switch} (h : ofName? name = some switch) :
    switch.name = name := by
  simpa using List.find?_some h

theorem letter?_of_ofLetter? {c : Char} {switch : Switch} (h : ofLetter? c = some switch) :
    switch.letter? = some c := by
  simpa using List.find?_some h

theorem mem_of_map_letter? {switches : List Switch} {letters : List Char}
    (known : switches.map Switch.letter? = letters.map some) {c : Char} (h : c ∈ letters) :
    c ∈ ['v', 'q', 'V', 'h'] := by
  have given : some c ∈ switches.map Switch.letter? := known ▸ List.mem_map_of_mem h
  obtain ⟨s, _, hs⟩ := List.mem_map.mp given
  cases s <;> cases hs <;> simp

theorem ofLetter?_of_letter? {c : Char} {switch : Switch} (h : switch.letter? = some c) :
    ofLetter? c = some switch := by
  cases switch <;> cases h <;> decide

end Switch

namespace Progress

namespace Word

theorem ofArgument_of_isPlain {argument : String} (plain : IsPlain argument) :
    ofArgument argument = .plain argument := by
  rcases plain with rfl | apart
  · decide
  · unfold ofArgument
    split
    · rename_i whole
      simp [whole] at apart
    · rename_i whole
      simp [whole] at apart
    · rfl

/-- Behind two hyphens the first equals sign separates a value. -/
theorem ofArgument_long_cases {argument : String} {text : List Char}
    (whole : argument.toList = '-' :: '-' :: text) :
    (∃ name, argument = "--" ++ name ∧ ofArgument argument = .long name none) ∨
    ∃ name value, argument = "--" ++ name ++ "=" ++ value ∧
      ofArgument argument = .long name (some value) := by
  have cut := @List.takeWhile_append_dropWhile _ (fun c => decide (c ≠ '=')) text
  simp only [ofArgument, whole]
  split
  · rename_i nothing
    rw [nothing, List.append_nil] at cut
    refine .inl ⟨_, String.toList_inj.mp ?_, rfl⟩
    simpa [whole] using cut.symm
  · rename_i mark value rest
    have first : mark = '=' := by
      have stopped := List.head?_dropWhile_not (fun c => decide (c ≠ '=')) text
      rw [rest] at stopped
      simpa using stopped
    rw [rest, first] at cut
    refine .inr ⟨_, _, String.toList_inj.mp ?_, rfl⟩
    simpa [whole] using cut.symm

theorem ofArgument_of_hyphen {argument : String} {c : Char} {rest : List Char} (other : c ≠ '-')
    (whole : argument.toList = '-' :: c :: rest) : ofArgument argument = .letters (c :: rest) := by
  unfold ofArgument
  split
  · rename_i again
    cases whole.symm.trans again
    exact absurd rfl other
  · rename_i again
    cases whole.symm.trans again
    rfl
  · rename_i further
    exact (further c rest whole).elim

/-- The forms of an argument, and how each is taken. -/
theorem ofArgument_cases (argument : String) :
    (∃ name, argument = "--" ++ name ∧ ofArgument argument = .long name none) ∨
    (∃ name value, argument = "--" ++ name ++ "=" ++ value ∧
      ofArgument argument = .long name (some value)) ∨
    (∃ letters, letters ≠ [] ∧ argument = String.ofList ('-' :: letters) ∧
      ofArgument argument = .letters letters) ∨
    (IsPlain argument ∧ ofArgument argument = .plain argument) := by
  by_cases plain : IsPlain argument
  · exact .inr (.inr (.inr ⟨plain, ofArgument_of_isPlain plain⟩))
  · obtain ⟨alone, hyphen⟩ := not_or.mp plain
    obtain ⟨behind, whole⟩ := List.head?_eq_some_iff.mp (not_not.mp hyphen)
    cases behind with
    | nil => exact absurd (String.toList_inj.mp whole) alone
    | cons c rest =>
      by_cases two : c = '-'
      · subst two
        obtain bare | valued := ofArgument_long_cases whole
        · exact .inl bare
        · exact .inr (.inl valued)
      · refine .inr (.inr (.inl ⟨c :: rest, List.cons_ne_nil _ _, ?_, ofArgument_of_hyphen two whole⟩))
        apply String.toList_inj.mp
        simp [whole]

section Names

variable {name : String} (whole : '=' ∉ name.toList)
include whole

theorem ofArgument_long : ofArgument ("--" ++ name) = .long name none := by
  have apart : ∀ c ∈ name.toList, decide (c ≠ '=') = true :=
    fun c hc => decide_eq_true (ne_of_mem_of_not_mem hc whole)
  have begins : ("--" ++ name).toList = '-' :: '-' :: name.toList := by simp
  simp only [ofArgument, begins, List.takeWhile_eq_self_iff.mpr apart,
    List.dropWhile_eq_nil_iff.mpr apart, String.ofList_toList]

theorem ofArgument_attached (value : String) :
    ofArgument ("--" ++ name ++ "=" ++ value) = .long name (some value) := by
  have apart : ∀ c ∈ name.toList, decide (c ≠ '=') = true :=
    fun c hc => decide_eq_true (ne_of_mem_of_not_mem hc whole)
  have begins : ("--" ++ name ++ "=" ++ value).toList =
      '-' :: '-' :: (name.toList ++ '=' :: value.toList) := by simp
  simp only [ofArgument, begins, List.takeWhile_append_of_pos apart,
    List.dropWhile_append_of_pos apart]
  simp

end Names

theorem ofArgument_hyphen (severity : Severity) :
    ofArgument ("-" ++ (ValueOption.severity severity).name) =
      .letters (ValueOption.severity severity).name.toList := by
  cases severity <;> decide

theorem ofArgument_letters {switches : List Switch} {letters : List Char} (filled : letters ≠ [])
    (known : switches.map Switch.letter? = letters.map some) :
    ofArgument (String.ofList ('-' :: letters)) = .letters letters := by
  obtain ⟨c, rest, rfl⟩ := List.exists_cons_of_ne_nil filled
  have apart : c ≠ '-' := by
    rintro rfl
    simpa using Switch.mem_of_map_letter? known List.mem_cons_self
  exact ofArgument_of_hyphen apart String.toList_ofList

end Word

end Progress

theorem ValueOption.equals_notMem_name (option : ValueOption) : '=' ∉ option.name.toList := by
  cases option with
  | severity s => cases s <;> decide
  | _ => decide

theorem ValueOption.name_ne_empty (option : ValueOption) : option.name ≠ "" := by
  cases option with
  | severity s => cases s <;> decide
  | _ => decide

open Progress

theorem Progress.Word.ofArgument_option (option : ValueOption) :
    ofArgument ("--" ++ option.name) = .long option.name none :=
  ofArgument_long option.equals_notMem_name

theorem Progress.Word.ofArgument_switch (switch : Switch) :
    ofArgument switch.text = .long switch.name none := by
  cases switch <;> decide

theorem ne_terminator {argument : String} {word : Word} (form : Word.ofArgument argument = word)
    (apart : word ≠ .long "" none) : argument ≠ "--" := by
  rintro rfl
  subst form
  exact apart (by decide)

section Arguments

variable {option : ValueOption} {argument : String}

theorem ne_terminator_of_option : "--" ++ option.name ≠ "--" :=
  ne_terminator (Word.ofArgument_option option) (by simp [option.name_ne_empty])

theorem ne_terminator_of_attached (value : String) : "--" ++ option.name ++ "=" ++ value ≠ "--" :=
  ne_terminator (Word.ofArgument_attached option.equals_notMem_name value) (by simp)

theorem ne_terminator_of_hyphen (severity : Severity) :
    "-" ++ (ValueOption.severity severity).name ≠ "--" :=
  ne_terminator (Word.ofArgument_hyphen severity) (by simp)

theorem ne_terminator_of_switch (switch : Switch) : switch.text ≠ "--" :=
  ne_terminator (Word.ofArgument_switch switch) (by cases switch <;> decide)

theorem ne_terminator_of_letters {switches : List Switch} {letters : List Char}
    (filled : letters ≠ []) (known : switches.map Switch.letter? = letters.map some) :
    String.ofList ('-' :: letters) ≠ "--" :=
  ne_terminator (Word.ofArgument_letters filled known) (by simp)

theorem ne_terminator_of_isPlain (plain : IsPlain argument) : argument ≠ "--" :=
  ne_terminator (Word.ofArgument_of_isPlain plain) (by simp)

end Arguments

/-! What is replaced in front. Only the hyphenated names of severities are, and nothing behind two
hyphens. -/
section Normalize

variable {argument : String} {rest : List String}

theorem normalizeArgument_hyphen (severity : Severity) :
    normalizeArgument ("-" ++ (ValueOption.severity severity).name) =
      "--" ++ (ValueOption.severity severity).name := by
  cases severity <;> decide

theorem normalizeArgument_eq_self
    (apart : ∀ severity, argument ≠ "-" ++ (ValueOption.severity severity).name) :
    normalizeArgument argument = argument := by
  have missing : hyphenated.lookup argument = none := by
    simp only [hyphenated, List.lookup_eq_none_iff, List.forall_mem_cons, bne_iff_ne]
    exact ⟨apart .error, apart .warning, apart .hidden, by simp⟩
  rw [normalizeArgument, missing]
  rfl

theorem normalizeArgument_of_form {word : Word} (form : Word.ofArgument argument = word)
    (apart : ∀ severity, word ≠ .letters (ValueOption.severity severity).name.toList) :
    normalizeArgument argument = argument := by
  apply normalizeArgument_eq_self
  intro severity same
  subst form
  exact apart severity (same ▸ Word.ofArgument_hyphen severity)

theorem normalizeArgument_of_isPlain (plain : IsPlain argument) :
    normalizeArgument argument = argument :=
  normalizeArgument_of_form (Word.ofArgument_of_isPlain plain) (by simp)

theorem normalizeArgument_option (option : ValueOption) :
    normalizeArgument ("--" ++ option.name) = "--" ++ option.name :=
  normalizeArgument_of_form (Word.ofArgument_option option) (by simp)

theorem normalizeArgument_attached (option : ValueOption) (value : String) :
    normalizeArgument ("--" ++ option.name ++ "=" ++ value) = "--" ++ option.name ++ "=" ++ value :=
  normalizeArgument_of_form (Word.ofArgument_attached option.equals_notMem_name value) (by simp)

theorem normalizeArgument_switch (switch : Switch) : normalizeArgument switch.text = switch.text :=
  normalizeArgument_of_form (Word.ofArgument_switch switch) (by simp)

theorem normalizeArgument_letters {switches : List Switch} {letters : List Char}
    (filled : letters ≠ []) (known : switches.map Switch.letter? = letters.map some) :
    normalizeArgument (String.ofList ('-' :: letters)) = String.ofList ('-' :: letters) := by
  apply normalizeArgument_of_form (Word.ofArgument_letters filled known)
  intro severity same
  have named := Word.letters.inj same
  have letter : (ValueOption.severity severity).name.toList.all
      (· ∈ ['v', 'q', 'V', 'h']) = true := by
    apply List.all_eq_true.mpr
    intro c h
    exact decide_eq_true (Switch.mem_of_map_letter? known (named ▸ h))
  cases severity <;> revert letter <;> decide

theorem normalize_cons (apart : argument ≠ "--") :
    normalize (argument :: rest) = normalizeArgument argument :: normalize rest := if_neg apart

theorem normalize_terminated : normalize ("--" :: rest) = "--" :: rest := if_pos rfl

theorem normalize_split {before texts : List String} (first : "--" ∉ before) :
    normalize (before ++ "--" :: texts) = before.map normalizeArgument ++ "--" :: texts := by
  induction before with
  | nil => exact normalize_terminated
  | cons argument rest ih =>
    obtain ⟨apart, others⟩ := not_or.mp (mt List.mem_cons.mpr first)
    rw [List.cons_append, normalize_cons (Ne.symm apart), ih others]
    rfl

end Normalize

theorem exists_split_of_cons {argument : String} {line before texts : List String}
    (split : argument :: line = before ++ "--" :: texts) (apart : argument ≠ "--") :
    ∃ rest, before = argument :: rest ∧ line = rest ++ "--" :: texts := by
  cases before with
  | nil =>
    cases split
    exact absurd rfl apart
  | cons first rest =>
    cases split
    exact ⟨rest, rfl, rfl⟩

/-- What stands behind the first two hyphens is kept as it is, as operands. -/
theorem Spells.split {items : List Item} {line : List String} (spells : Spells items line)
    {before texts : List String} (split : line = before ++ "--" :: texts) (first : "--" ∉ before) :
    ∃ said, Spells said before ∧ items = said ++ texts.map .operand := by
  induction spells generalizing before with
  | nil => simp at split
  | @separate option value items line plain _ ih =>
    obtain ⟨rest, rfl, tail⟩ := exists_split_of_cons split ne_terminator_of_option
    obtain ⟨rest, rfl, behind⟩ := exists_split_of_cons tail (ne_terminator_of_isPlain plain)
    obtain ⟨said, spells, rfl⟩ := ih behind fun inside =>
      first (List.mem_cons_of_mem _ (List.mem_cons_of_mem _ inside))
    exact ⟨_, .separate plain spells, rfl⟩
  | @attached option value items line _ ih =>
    obtain ⟨rest, rfl, tail⟩ := exists_split_of_cons split (ne_terminator_of_attached value)
    obtain ⟨said, spells, rfl⟩ := ih tail fun inside => first (List.mem_cons_of_mem _ inside)
    exact ⟨_, .attached spells, rfl⟩
  | @hyphen severity value items line plain _ ih =>
    obtain ⟨rest, rfl, tail⟩ := exists_split_of_cons split (ne_terminator_of_hyphen severity)
    obtain ⟨rest, rfl, behind⟩ := exists_split_of_cons tail (ne_terminator_of_isPlain plain)
    obtain ⟨said, spells, rfl⟩ := ih behind fun inside =>
      first (List.mem_cons_of_mem _ (List.mem_cons_of_mem _ inside))
    exact ⟨_, .hyphen plain spells, rfl⟩
  | @switch switch items line _ ih =>
    obtain ⟨rest, rfl, tail⟩ := exists_split_of_cons split (ne_terminator_of_switch switch)
    obtain ⟨said, spells, rfl⟩ := ih tail fun inside => first (List.mem_cons_of_mem _ inside)
    exact ⟨_, .switch spells, rfl⟩
  | @letters switches letters items line filled known _ ih =>
    obtain ⟨rest, rfl, tail⟩ := exists_split_of_cons split (ne_terminator_of_letters filled known)
    obtain ⟨said, spells, rfl⟩ := ih tail fun inside => first (List.mem_cons_of_mem _ inside)
    exact ⟨_, .letters filled known spells, (List.append_assoc _ _ _).symm⟩
  | @operand text items line plain _ ih =>
    obtain ⟨rest, rfl, tail⟩ := exists_split_of_cons split (ne_terminator_of_isPlain plain)
    obtain ⟨said, spells, rfl⟩ := ih tail fun inside => first (List.mem_cons_of_mem _ inside)
    exact ⟨_, .operand plain spells, rfl⟩
  | @terminated others =>
    cases before with
    | nil =>
      cases split
      exact ⟨[], .nil, rfl⟩
    | cons argument rest =>
      cases split
      exact absurd List.mem_cons_self first

end ApiCompat.CommandLine
