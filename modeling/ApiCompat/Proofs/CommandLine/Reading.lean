import ApiCompat.Proofs.CommandLine.Merging
import ApiCompat.Proofs.CommandLine.Spelling

/-! What is read of a line. Each argument is taken as the item that it spells, an option waiting for
its value; so what is read is what the items add, one by one from left to right, and no line is
accepted that spells nothing. -/
namespace ApiCompat.CommandLine

namespace Progress

/-- Nothing waits for a value. -/
def Free (progress : Progress) : Prop := ∀ option, progress.pending ≠ some (option, none)

theorem free_of_settle {progress : Progress} {arguments : Arguments}
    (settled : progress.settle = .ok arguments) : progress.Free := by
  intro option waiting
  rw [settle, waiting] at settled
  cases settled

end Progress

/-- What an item adds to what was read. -/
def Arguments.extend (arguments : Arguments) : Item → Except Stop Arguments
  | .option option value => (arguments.take option value).mapError .usage
  | .switch switch => .ok (arguments.addSwitch switch)
  | .operand text => .ok (arguments.addOperand text)

namespace Progress

/-- On the way from one place to another some items are read, once the last of them is settled. -/
structure Reads (p : Progress) (items : List Item) (q : Progress) : Prop where
  free : q.Free
  settled : ∀ c, q.settle = .ok c → ∃ b, p.settle = .ok b ∧ items.foldlM Arguments.extend b = .ok c

namespace Reads

variable {p q r : Progress} {items others : List Item}

theorem nil (free : p.Free) : Reads p [] p := ⟨free, fun c settled => ⟨c, settled, rfl⟩⟩

theorem trans (first : Reads p items q) (second : Reads q others r) : Reads p (items ++ others) r := by
  refine ⟨second.free, fun c settled => ?_⟩
  obtain ⟨b, hb, hc⟩ := second.settled c settled
  obtain ⟨a, ha, hb⟩ := first.settled b hb
  refine ⟨a, ha, ?_⟩
  rw [List.foldlM_append, hb]
  exact hc

theorem single {item : Item} {b c : Arguments} (settled : p.settle = .ok b)
    (added : b.extend item = .ok c) : Reads p [item] ⟨c, none⟩ := by
  refine ⟨free_of_settle rfl, fun d same => ⟨b, settled, ?_⟩⟩
  cases same
  simp [added]

theorem operand {text : String} (taken : p.takeOperand text = .ok q) : Reads p [.operand text] q := by
  unfold takeOperand at taken
  split at taken
  · cases taken
  · obtain ⟨b, settled, taken⟩ := ok_of_bind taken
    cases taken
    exact .single settled rfl

theorem operands {texts : List String} (free : p.Free) (taken : texts.foldlM takeOperand p = .ok q) :
    Reads p (texts.map .operand) q := by
  induction texts generalizing p with
  | nil =>
    cases taken
    exact .nil free
  | cons text rest ih =>
    rw [List.foldlM_cons] at taken
    obtain ⟨_, first, taken⟩ := ok_of_bind taken
    exact (operand first).trans (ih (operand first).free taken)

theorem switch {switch : Switch} {long : Bool} (taken : p.takeSwitch switch long = .ok q) :
    Reads p [.switch switch] q := by
  obtain ⟨b, settled, taken⟩ := ok_of_bind taken
  split at taken
  · cases taken
  · cases taken
  · split at taken
    · cases taken
    · cases taken
      exact .single settled rfl

theorem letters {switches : List Switch} {letters : List Char} (free : p.Free)
    (known : switches.map Switch.letter? = letters.map some) (taken : p.takeLetters letters = .ok q) :
    Reads p (switches.map .switch) q := by
  induction letters generalizing p switches with
  | nil =>
    cases taken
    cases List.map_eq_nil_iff.mp known
    exact .nil free
  | cons c rest ih =>
    obtain ⟨s, others, rfl, first, known⟩ := List.map_eq_cons_iff.mp known
    rw [takeLetters, Switch.ofLetter?_of_letter? first] at taken
    obtain ⟨_, one, taken⟩ := ok_of_bind taken
    exact (switch one).trans (ih (switch one).free known taken)

theorem attached {option : ValueOption} {value : String}
    (taken : p.takeOption option (some value) = .ok q) : Reads p [.option option value] q := by
  obtain ⟨b, settled, taken⟩ := ok_of_bind taken
  obtain ⟨c, added, taken⟩ := ok_of_bind taken
  cases taken
  exact .single settled added

theorem separate {option : ValueOption} {value : String} (named : p.takeOption option none = .ok q)
    (given : q.takePlain value = .ok r) : Reads p [.option option value] r := by
  obtain ⟨b, settled, named⟩ := ok_of_bind named
  cases named
  cases given
  refine ⟨?_, fun c later => ⟨b, settled, ?_⟩⟩
  · intro other waiting
    cases waiting
  · have added : b.extend (.option option value) = .ok c := later
    simp [added]

end Reads

theorem takeLong_option (p : Progress) (option : ValueOption) (attached : Option String) :
    p.takeLong option.name attached = p.takeOption option attached := by
  simp only [takeLong, ValueOption.ofName?_name]

theorem takeLong_switch (p : Progress) (switch : Switch) :
    p.takeLong switch.name none = p.takeSwitch switch true := by
  simp only [takeLong, ValueOption.ofName?_switch, Switch.ofName?_name]

theorem takePlain_of_free {p : Progress} (free : p.Free) (argument : String) :
    p.takePlain argument = p.takeOperand argument := by
  unfold takePlain
  split
  · rename_i option waiting
    exact absurd waiting (free option)
  · rfl

theorem readAll_cons {p : Progress} {argument : String} {word : Word}
    (form : Word.ofArgument argument = word) (apart : argument ≠ "--") (rest : List String) :
    p.readAll (argument :: rest) = p.takeWord word >>= fun q => q.readAll rest := by
  subst form
  exact if_neg apart

/-- An argument that is not replaced is read as it stands. -/
theorem readAll_normalize {p : Progress} {argument : String} {word : Word}
    (form : Word.ofArgument argument = word) (kept : normalizeArgument argument = argument)
    (apart : argument ≠ "--") (rest : List String) :
    p.readAll (normalize (argument :: rest)) =
      p.takeWord word >>= fun q => q.readAll (normalize rest) := by
  rw [normalize_cons apart, kept, readAll_cons form apart]

/-- An option named in either way takes the argument behind it. -/
theorem reads_waiting {p q : Progress} {option : ValueOption} {argument value : String}
    (named : normalizeArgument argument = "--" ++ option.name) (apart : argument ≠ "--")
    (plain : IsPlain value) {rest : List String}
    (read : p.readAll (normalize (argument :: value :: rest)) = .ok q) :
    ∃ after, Reads p [.option option value] after ∧ after.readAll (normalize rest) = .ok q := by
  rw [normalize_cons apart, named,
    readAll_cons (Word.ofArgument_option option) ne_terminator_of_option] at read
  obtain ⟨waiting, named, read⟩ := ok_of_bind read
  rw [readAll_normalize (Word.ofArgument_of_isPlain plain) (normalizeArgument_of_isPlain plain)
    (ne_terminator_of_isPlain plain)] at read
  obtain ⟨after, given, read⟩ := ok_of_bind read
  exact ⟨after, Reads.separate ((takeLong_option p option none).symm.trans named) given, read⟩

end Progress

open Progress

theorem Spells.reads {items : List Item} {line : List String} (spells : Spells items line)
    {p q : Progress} (free : p.Free) (read : p.readAll (normalize line) = .ok q) :
    Reads p items q := by
  induction spells generalizing p with
  | nil =>
    cases read
    exact .nil free
  | @separate option value items line plain _ ih =>
    obtain ⟨after, one, read⟩ :=
      reads_waiting (normalizeArgument_option option) ne_terminator_of_option plain read
    exact one.trans (ih one.free read)
  | @attached option value items line _ ih =>
    rw [readAll_normalize (Word.ofArgument_attached option.equals_notMem_name value)
      (normalizeArgument_attached option value) (ne_terminator_of_attached value)] at read
    obtain ⟨after, taken, read⟩ := ok_of_bind read
    have one := Reads.attached ((takeLong_option p option (some value)).symm.trans taken)
    exact one.trans (ih one.free read)
  | @hyphen severity value items line plain _ ih =>
    obtain ⟨after, one, read⟩ := reads_waiting (normalizeArgument_hyphen severity)
      (ne_terminator_of_hyphen severity) plain read
    exact one.trans (ih one.free read)
  | @switch switch items line _ ih =>
    rw [readAll_normalize (Word.ofArgument_switch switch) (normalizeArgument_switch switch)
      (ne_terminator_of_switch switch)] at read
    obtain ⟨after, taken, read⟩ := ok_of_bind read
    have one := Reads.switch ((takeLong_switch p switch).symm.trans taken)
    exact one.trans (ih one.free read)
  | @letters switches letters items line filled known _ ih =>
    rw [readAll_normalize (Word.ofArgument_letters filled known)
      (normalizeArgument_letters filled known) (ne_terminator_of_letters filled known)] at read
    obtain ⟨after, taken, read⟩ := ok_of_bind read
    have some := Reads.letters free known taken
    exact some.trans (ih some.free read)
  | @operand text items line plain _ ih =>
    rw [readAll_normalize (Word.ofArgument_of_isPlain plain) (normalizeArgument_of_isPlain plain)
      (ne_terminator_of_isPlain plain)] at read
    obtain ⟨after, taken, read⟩ := ok_of_bind read
    have one := Reads.operand ((takePlain_of_free free text).symm.trans taken)
    exact one.trans (ih one.free read)
  | terminated =>
    rw [normalize_terminated, readAll, if_pos rfl] at read
    exact .operands free read

namespace Progress

/-- The option that waits receives the next argument as its value. -/
inductive Continues (p : Progress) (line : List String) : Prop where
  | free (free : p.Free) {items : List Item} (spells : Spells items line) : Continues p line
  | waiting {option : ValueOption} (waiting : p.pending = some (option, none)) {value : String}
      {rest : List String} (begins : line = value :: rest) (plain : IsPlain value)
      {items : List Item} (spells : Spells items rest) : Continues p line

theorem Continues.items {p : Progress} {line : List String} (continues : p.Continues line)
    (free : p.Free) : ∃ items, Spells items line := by
  cases continues with
  | free _ spells => exact ⟨_, spells⟩
  | waiting waiting => exact absurd waiting (free _)

theorem Continues.value {p : Progress} {line : List String} (continues : p.Continues line)
    {option : ValueOption} (waits : p.pending = some (option, none)) :
    ∃ value rest items, line = value :: rest ∧ IsPlain value ∧ Spells items rest := by
  cases continues with
  | free free => exact absurd waits (free option)
  | waiting _ begins plain spells => exact ⟨_, _, _, begins, plain, spells⟩

theorem takeLong_cases {p q : Progress} {name : String} {attached : Option String}
    (taken : p.takeLong name attached = .ok q) :
    (∃ option : ValueOption, option.name = name ∧ p.takeOption option attached = .ok q) ∨
    ∃ switch : Switch, switch.name = name ∧ attached = none ∧ p.takeSwitch switch true = .ok q := by
  unfold takeLong at taken
  split at taken
  · rename_i option found
    exact .inl ⟨option, ValueOption.name_of_ofName? found, taken⟩
  · split at taken
    · rename_i switch found
      exact .inr ⟨switch, Switch.name_of_ofName? found, rfl, taken⟩
    · cases taken
    · cases taken

theorem pending_of_takeOption {p q : Progress} {option : ValueOption}
    (taken : p.takeOption option none = .ok q) : q.pending = some (option, none) := by
  obtain ⟨b, _, taken⟩ := ok_of_bind taken
  cases taken
  rfl

theorem free_of_takeOption {p q : Progress} {option : ValueOption} {value : Option String}
    (taken : p.takeOption option value = .ok q) : p.Free := by
  obtain ⟨b, settled, _⟩ := ok_of_bind taken
  exact free_of_settle settled

theorem free_of_takeSwitch {p q : Progress} {switch : Switch} {long : Bool}
    (taken : p.takeSwitch switch long = .ok q) : p.Free := by
  obtain ⟨b, settled, _⟩ := ok_of_bind taken
  exact free_of_settle settled

theorem free_of_takeOperand {p q : Progress} {text : String} (taken : p.takeOperand text = .ok q) :
    p.Free := by
  unfold takeOperand at taken
  split at taken
  · cases taken
  · obtain ⟨b, settled, _⟩ := ok_of_bind taken
    exact free_of_settle settled

theorem free_of_takeLetters {p q : Progress} {letters : List Char} (filled : letters ≠ [])
    (taken : p.takeLetters letters = .ok q) : p.Free := by
  obtain ⟨c, rest, rfl⟩ := List.exists_cons_of_ne_nil filled
  rw [takeLetters] at taken
  split at taken
  · obtain ⟨_, first, _⟩ := ok_of_bind taken
    exact free_of_takeSwitch first
  · cases taken

theorem exists_switches_of_takeLetters {p q : Progress} {letters : List Char}
    (taken : p.takeLetters letters = .ok q) :
    ∃ switches : List Switch, switches.map Switch.letter? = letters.map some := by
  induction letters generalizing p with
  | nil => exact ⟨[], rfl⟩
  | cons c rest ih =>
    rw [takeLetters] at taken
    split at taken
    · rename_i switch first
      obtain ⟨_, _, taken⟩ := ok_of_bind taken
      obtain ⟨switches, known⟩ := ih taken
      exact ⟨switch :: switches, by simp [Switch.letter?_of_ofLetter? first, known]⟩
    · cases taken

theorem free_of_operands {texts : List String} {p q : Progress} {a : Arguments}
    (taken : texts.foldlM takeOperand p = .ok q) (settled : q.settle = .ok a) : p.Free := by
  cases texts with
  | nil =>
    cases taken
    exact free_of_settle settled
  | cons text rest =>
    rw [List.foldlM_cons] at taken
    obtain ⟨_, first, _⟩ := ok_of_bind taken
    exact free_of_takeOperand first

section Step

variable {p q : Progress} {rest : List String} (later : q.Continues rest)
include later

theorem continues_of_named {option : ValueOption} (taken : p.takeOption option none = .ok q) :
    p.Free ∧ ∃ value others items, rest = value :: others ∧ IsPlain value ∧ Spells items others :=
  ⟨free_of_takeOption taken, later.value (pending_of_takeOption taken)⟩

theorem continues_of_long {name : String} (taken : p.takeLong name none = .ok q) :
    p.Continues (("--" ++ name) :: rest) := by
  obtain ⟨option, rfl, named⟩ | ⟨switch, rfl, _, named⟩ := takeLong_cases taken
  · obtain ⟨free, value, others, items, rfl, plain, spells⟩ := continues_of_named later named
    exact .free free (.separate plain spells)
  · obtain ⟨items, spells⟩ := later.items (Reads.switch named).free
    exact .free (free_of_takeSwitch named) (.switch spells)

theorem continues_of_attached {name value : String}
    (taken : p.takeLong name (some value) = .ok q) :
    p.Continues (("--" ++ name ++ "=" ++ value) :: rest) := by
  obtain ⟨option, rfl, named⟩ | ⟨_, _, impossible, _⟩ := takeLong_cases taken
  · obtain ⟨items, spells⟩ := later.items (Reads.attached named).free
    exact .free (free_of_takeOption named) (.attached spells)
  · cases impossible

theorem continues_of_hyphen {severity : Severity}
    (taken : p.takeLong (ValueOption.severity severity).name none = .ok q) :
    p.Continues (("-" ++ (ValueOption.severity severity).name) :: rest) := by
  have named := (takeLong_option p (.severity severity) none).symm.trans taken
  obtain ⟨free, value, others, items, rfl, plain, spells⟩ := continues_of_named later named
  exact .free free (.hyphen plain spells)

theorem continues_of_letters {letters : List Char} (filled : letters ≠ [])
    (taken : p.takeLetters letters = .ok q) :
    p.Continues (String.ofList ('-' :: letters) :: rest) := by
  have free := free_of_takeLetters filled taken
  obtain ⟨switches, known⟩ := exists_switches_of_takeLetters taken
  obtain ⟨items, spells⟩ := later.items (Reads.letters free known taken).free
  exact .free free (.letters filled known spells)

/-- Without hyphens an argument is the value of the option that waits, or else an operand. -/
theorem continues_of_plain {argument : String} (plain : IsPlain argument)
    (taken : p.takePlain argument = .ok q) : p.Continues (argument :: rest) := by
  by_cases waits : ∃ option, p.pending = some (option, none)
  · obtain ⟨option, waits⟩ := waits
    have given : q = { p with pending := some (option, some argument) } := by
      simpa [takePlain, waits] using taken.symm
    obtain ⟨items, spells⟩ := later.items (by intro other; simp [given])
    exact .waiting waits rfl plain spells
  · have free : p.Free := fun option waiting => waits ⟨option, waiting⟩
    have alone := (takePlain_of_free free argument).symm.trans taken
    obtain ⟨items, spells⟩ := later.items (Reads.operand alone).free
    exact .free free (.operand plain spells)

end Step

theorem continues_of_readAll {line : List String} {p q : Progress}
    (read : p.readAll (normalize line) = .ok q) {a : Arguments} (settled : q.settle = .ok a) : p.Continues line := by
  -- what follows is spelled first: it tells whether an option that waits receives a value
  induction line generalizing p with
  | nil =>
    cases read
    exact .free (free_of_settle settled) .nil
  | cons argument rest ih =>
    by_cases last : argument = "--"
    · subst last
      rw [normalize_terminated, readAll, if_pos rfl] at read
      exact .free (free_of_operands read settled) .terminated
    · by_cases hyphen : ∃ severity, argument = "-" ++ (ValueOption.severity severity).name
      · obtain ⟨severity, rfl⟩ := hyphen
        rw [normalize_cons last, normalizeArgument_hyphen,
          readAll_cons (Word.ofArgument_option _) ne_terminator_of_option] at read
        obtain ⟨after, taken, read⟩ := ok_of_bind read
        exact continues_of_hyphen (ih read) taken
      · have kept := normalizeArgument_eq_self (not_exists.mp hyphen)
        rw [readAll_normalize rfl kept last] at read
        obtain ⟨after, taken, read⟩ := ok_of_bind read
        have later := ih read
        obtain ⟨name, rfl, word⟩ | ⟨name, value, rfl, word⟩ | ⟨letters, filled, rfl, word⟩ |
          ⟨plain, word⟩ := Word.ofArgument_cases argument <;> rw [word] at taken
        · exact continues_of_long later taken
        · exact continues_of_attached later taken
        · exact continues_of_letters later filled taken
        · exact continues_of_plain later plain taken

end Progress

namespace Item

/-- The code and severity of an option for severities. -/
def override? : Item → Option (Nat × Severity)
  | option (.severity s) value => (readCode value).toOption.map (·, s)
  | _ => none

def format? : Item → Option Report.Format
  | option .format value => Report.Format.ofName? value
  | _ => none

def config? : Item → Option String
  | option .config value => some value
  | _ => none

def switch? : Item → Option Switch
  | switch s => some s
  | _ => none

def operand? : Item → Option String
  | operand text => some text
  | _ => none

end Item

namespace Arguments

/-- Each part of what is read comes from the items, in their order. -/
structure Gathers (b : Arguments) (items : List Item) (c : Arguments) : Prop where
  codes : ∀ severity value, .option (.severity severity) value ∈ items →
    ∃ code, readCode value = .ok code
  overrides : ∀ marks, b.Indexed marks → ∃ more, c.Indexed (marks ++ more) ∧
    more.map (·.2) = items.filterMap Item.override?
  format : c.format = b.format.or (items.findSome? Item.format?)
  config : c.config = b.config.or (items.findSome? Item.config?)
  switches : c.switches = b.switches ++ items.filterMap Item.switch?
  operands : c.operands = b.operands ++ items.filterMap Item.operand?

theorem Gathers.nil (b : Arguments) : Gathers b [] b where
  codes _ _ inside := nomatch inside
  overrides marks indexed := ⟨[], by simpa using indexed, rfl⟩
  format := by simp
  config := by simp
  switches := by simp
  operands := by simp

theorem Gathers.append {b c d : Arguments} {items others : List Item} (first : Gathers b items c)
    (second : Gathers c others d) : Gathers b (items ++ others) d where
  codes severity value inside := (List.mem_append.mp inside).elim (first.codes severity value)
    (second.codes severity value)
  overrides marks indexed := by
    obtain ⟨some, indexed, values⟩ := first.overrides marks indexed
    obtain ⟨more, indexed, values'⟩ := second.overrides _ indexed
    refine ⟨some ++ more, by simpa using indexed, ?_⟩
    rw [List.map_append, List.filterMap_append, values, values']
  format := by rw [second.format, first.format, List.findSome?_append, Option.or_assoc]
  config := by rw [second.config, first.config, List.findSome?_append, Option.or_assoc]
  switches := by rw [second.switches, first.switches, List.filterMap_append, List.append_assoc]
  operands := by rw [second.operands, first.operands, List.filterMap_append, List.append_assoc]

theorem indexed_of_unmentioned {b c : Arguments} {marks : List (Nat × Nat × Severity)}
    (indexed : b.Indexed marks) (same : c.indexed = b.indexed) (later : b.index ≤ c.index)
    {item : Item} (silent : item.override? = none) :
    ∃ more, c.Indexed (marks ++ more) ∧ more.map (·.2) = [item].filterMap Item.override? := by
  refine ⟨[], ?_, by simp [silent]⟩
  rw [List.append_nil]
  exact indexed.advance same later

theorem gathers_of_extend {b c : Arguments} {item : Item} (added : b.extend item = .ok c) :
    Gathers b [item] c := by
  cases item with
  | option option value =>
    have taken := ok_of_mapError added
    unfold take at taken
    split at taken
    · rename_i severity
      split at taken
      · rename_i code known
        cases taken
        constructor
        case overrides =>
          intro marks indexed
          refine ⟨_, indexed.mention severity code, ?_⟩
          simp [Item.override?, known, Except.toOption]
        case codes => simp_all
        all_goals cases severity <;>
          simp [mention, Item.format?, Item.config?, Item.switch?, Item.operand?]
      · cases taken
    · split at taken
      · cases taken
      · rename_i unset
        split at taken
        · rename_i format known
          cases taken
          constructor
          case overrides =>
            intro marks indexed
            apply indexed_of_unmentioned indexed
            · rfl
            · exact Nat.le_add_right _ _
            · rfl
          all_goals simp_all [Item.format?, Item.config?, Item.switch?, Item.operand?]
        · cases taken
    · split at taken
      · cases taken
      · rename_i unset
        split at taken
        · cases taken
        · cases taken
          constructor
          case overrides =>
            intro marks indexed
            apply indexed_of_unmentioned indexed
            · rfl
            · exact Nat.le_add_right _ _
            · rfl
          all_goals simp_all [Item.format?, Item.config?, Item.switch?, Item.operand?]
  | switch s =>
    cases added
    constructor
    case overrides =>
      intro marks indexed
      apply indexed_of_unmentioned indexed
      · rfl
      · exact Nat.le_add_right _ _
      · rfl
    all_goals simp [addSwitch, Item.format?, Item.config?, Item.switch?, Item.operand?]
  | operand text =>
    cases added
    constructor
    case overrides =>
      intro marks indexed
      apply indexed_of_unmentioned indexed
      · rfl
      · exact Nat.le_add_right _ _
      · rfl
    all_goals simp [addOperand, Item.format?, Item.config?, Item.switch?, Item.operand?]

theorem gathers_of_foldlM {items : List Item} {b c : Arguments}
    (read : items.foldlM Arguments.extend b = .ok c) : Gathers b items c := by
  induction items generalizing b with
  | nil =>
    cases read
    exact .nil _
  | cons item rest ih =>
    rw [List.foldlM_cons] at read
    obtain ⟨_, added, read⟩ := ok_of_bind read
    exact (gathers_of_extend added).append (ih read)

theorem eq_of_validate {a b : Arguments} (valid : a.validate = .ok b) : b = a := by
  unfold validate at valid
  split at valid
  · cases valid
  · split at valid
    · cases valid
      rfl
    · cases valid

theorem length_operands_of_validate {a b : Arguments} (valid : a.validate = .ok b)
    (comparing : a.has .listCategories = false) : a.operands.length = 2 := by
  unfold validate at valid
  split at valid
  · cases valid
  · split at valid
    · rename_i enough
      exact enough.resolve_right (by simp [comparing])
    · cases valid

theorem exists_operands_of_parse {line : List String} {a : Arguments}
    (accepted : Arguments.parse line = .ok a) (comparing : a.has .listCategories = false) :
    ∃ old new, a.operands = [old, new] := by
  obtain ⟨_, _, accepted⟩ := ok_of_bind accepted
  obtain ⟨b, _, accepted⟩ := ok_of_bind accepted
  have valid := ok_of_mapError accepted
  cases eq_of_validate valid
  exact List.length_eq_two.mp (length_operands_of_validate valid comparing)

/-- Every accepted line spells items, and what is read of it is what they give. -/
theorem exists_spells_of_parse {line : List String} {a : Arguments}
    (accepted : Arguments.parse line = .ok a) : ∃ items, Spells items line := by
  obtain ⟨progress, read, accepted⟩ := ok_of_bind accepted
  obtain ⟨b, settled, _⟩ := ok_of_bind accepted
  exact (continues_of_readAll read settled).items (free_of_settle rfl)

theorem gathers_of_parse {line : List String} {a : Arguments}
    (accepted : Arguments.parse line = .ok a) {items : List Item} (spells : Spells items line) :
    Gathers .empty items a := by
  obtain ⟨progress, read, accepted⟩ := ok_of_bind accepted
  obtain ⟨b, settled, accepted⟩ := ok_of_bind accepted
  cases eq_of_validate (ok_of_mapError accepted)
  obtain ⟨start, begins, read⟩ := (spells.reads (free_of_settle rfl) read).settled a settled
  cases begins
  exact gathers_of_foldlM read

/-- The three lists of codes, sorted together, are the mentions in the order of the line. -/
theorem overrides_of_gathers {items : List Item} {a : Arguments} (gathered : Gathers .empty items a) :
    a.overrides = items.filterMap Item.override? := by
  obtain ⟨marks, indexed, values⟩ := gathered.overrides [] .empty
  rw [indexed.overrides_eq, List.nil_append, values]

theorem parts_of_parse {line : List String} {a : Arguments}
    (accepted : Arguments.parse line = .ok a) {items : List Item} (spells : Spells items line) :
    a.overrides = items.filterMap Item.override? ∧ a.config = items.findSome? Item.config? ∧
      a.operands = items.filterMap Item.operand? ∧
      ∀ switch, a.has switch = true ↔ .switch switch ∈ items := by
  have gathered := gathers_of_parse accepted spells
  refine ⟨overrides_of_gathers gathered, by simpa [empty] using gathered.config,
    by simpa [empty] using gathered.operands, fun switch => ?_⟩
  have given : ∀ item : Item, item.switch? = some switch ↔ item = .switch switch := by
    intro item
    cases item <;> simp [Item.switch?]
  simp [has, gathered.switches, empty, given]

end Arguments

end ApiCompat.CommandLine
