import ApiCompat.Proofs.Signature.Reading
import ApiCompat.Signature.Render

/-! Reading what was written. A well-formed signature shows all that it holds, and reading its
written form gives it back. A type with a name shows blanks only between brackets, so the bounds of
a wildcard come apart where they were joined; arguments come apart at commas, which stand nowhere
else outside brackets. In a declaration the variable is read as a class first and marked after. -/
namespace ApiCompat.Signature

open Text

/-- The characters of names: no blanks, no brackets, and nothing that parts or marks types. -/
def isNamePart (c : Char) : Bool :=
  !isBlank c && !isBracket c && c != ',' && c != '&' && c != '?'

/-- Segments with dots between them. -/
structure Plain (name : String) : Prop where
  segments : ∀ segment ∈ name.toList.splitOn '.', segment ≠ []
  characters : ∀ c ∈ name.toList, isNamePart c = true

theorem plain_iff {name : String} : Plain name ↔
    (name.toList.splitOn '.').all (!·.isEmpty) = true ∧ name.toList.all isNamePart = true := by
  simp only [List.all_eq_true, Bool.not_eq_true', List.isEmpty_eq_false_iff]
  exact ⟨fun h => ⟨h.segments, h.characters⟩, fun h => ⟨h.1, h.2⟩⟩

instance (name : String) : Decidable (Plain name) := decidable_of_iff' _ plain_iff

def brackets (dimensions : Nat) : List Char := (List.replicate dimensions ['[', ']']).flatten

def kindOfName (name : String) : TypeKind :=
  if primitiveNames.contains name then .primitive else .classType

inductive Form where
  | type
  | argument

/-- The signatures that show all that they hold; `declared` is the variable that is being declared. -/
inductive Written (declared : Option String) : Form → Signature → Prop where
  | named {name : String} (dimensions : Nat) {arguments : List Signature} : Plain name →
      (arguments = [] → declared ≠ some name) → (∀ a ∈ arguments, Written declared .argument a) →
      Written declared .type ⟨kindOfName name, name, String.ofList (brackets dimensions), arguments,
        [], [], false, none⟩
  | occurrence {name : String} : declared = some name → Written declared .type (ofName .typeVariable name)
  | argument {s : Signature} : Written declared .type s → Written declared .argument s
  | any : Written declared .argument anyType
  | bounded {side : BoundSide} {bounds : List Signature} : bounds ≠ [] →
      (∀ b ∈ bounds, Written declared .type b) → Written declared .argument (anyType.withBounds side bounds)

/-- A use of a type, or the declaration of a variable with bounds; either may have an ellipsis. -/
inductive WellFormed : Signature → Prop where
  | use {s : Signature} (varargs : Bool) : Written none .argument s →
      WellFormed { s with varargs }
  | declaration {name : String} {bounds : List Signature} (varargs : Bool) : Plain name →
      isBareName name = true → name ∉ primitiveNames → bounds ≠ [] →
      (∀ b ∈ bounds, Written (some name) .type b) →
      WellFormed ⟨.typeVariable, name, "", [], [], bounds, varargs, none⟩

def Form.visible : Form → Char → Bool
  | type => isNamePart
  | argument => (· != ',')

theorem isNamePart_iff {c : Char} : isNamePart c = true ↔
    isBlank c = false ∧ isBracket c = false ∧ c ≠ ',' ∧ c ≠ '&' ∧ c ≠ '?' := by
  simp [isNamePart, and_assoc]

namespace Plain

variable {name : String}

theorem ne_nil (plain : Plain name) : name.toList ≠ [] := by
  intro nothing
  exact plain.segments [] (by simp [nothing]) rfl

theorem nest (plain : Plain name) : Nest isNamePart name.toList :=
  .of_forall fun c hc =>
    ⟨(isNamePart_iff.mp (plain.characters c hc)).2.1, plain.characters c hc⟩

theorem solid (plain : Plain name) : Solid name.toList := by
  have part : ∀ c ∈ name.toList, isBlank c = false :=
    fun c hc => (isNamePart_iff.mp (plain.characters c hc)).1
  constructor
  · obtain ⟨c, rest, same⟩ := List.exists_cons_of_ne_nil plain.ne_nil
    exact ⟨c, rest, same, part c (by simp [same])⟩
  · have last := (List.dropLast_append_getLast plain.ne_nil).symm
    refine ⟨_, _, last, part _ (List.getLast_mem _), ?_⟩
    intro dot
    rw [dot] at last
    -- Behind a closing dot there would be an empty segment.
    refine plain.segments [] ?_ rfl
    rw [last, List.splitOn_append_cons_self]
    simp

theorem ne_of_isBracket (plain : Plain name) {b : Char} (bracket : isBracket b = true) :
    ∀ c ∈ name.toList, c ≠ b := by
  rintro c hc rfl
  rw [(isNamePart_iff.mp (plain.characters c hc)).2.1] at bracket
  cases bracket

theorem append_ne_any (plain : Plain name) (rest : List Char) : name.toList ++ rest ≠ ['?'] := by
  intro same
  obtain ⟨c, others, hname⟩ := List.exists_cons_of_ne_nil plain.ne_nil
  have part := plain.characters c (by simp [hname])
  rw [hname, List.cons_append] at same
  rw [(List.cons.inj same).1] at part
  cases part

end Plain

section Brackets

variable {visible : Char → Bool} {text : List Char}

theorem nest_brackets (dimensions : Nat) : Nest visible (brackets dimensions) := by
  induction dimensions with
  | zero => exact .nil
  | succ n ih => exact .pair ih

theorem mem_brackets {dimensions : Nat} {c : Char} (h : c ∈ brackets dimensions) :
    c = '[' ∨ c = ']' := by
  simp only [brackets, List.mem_flatten, List.mem_replicate] at h
  obtain ⟨_, ⟨_, rfl⟩, hc⟩ := h
  simpa using hc

theorem ends_brackets (ends : Ends text) (dimensions : Nat) : Ends (text ++ brackets dimensions) := by
  induction dimensions generalizing text with
  | zero => simpa [brackets] using ends
  | succ n ih =>
    have longer := @ih (text ++ ['[', ']']) ⟨text ++ ['['], ']', by simp, rfl, by decide⟩
    simpa [brackets, List.replicate_succ] using longer

theorem takeWhile_brackets (dimensions : Nat) :
    (brackets dimensions).takeWhile (· != '[') = [] := by
  cases dimensions with
  | zero => rfl
  | succ n => rfl

/-- The name and the array suffix of a type come apart at the first square bracket. -/
theorem ofBareText_brackets {name : String} (plain : Plain name) (dimensions : Nat) :
    ofBareText (name.toList ++ brackets dimensions) =
      { ofName (kindOfName name) name with dimension := String.ofList (brackets dimensions) } := by
  have passed : ∀ c ∈ name.toList, (c != '[') = true := by
    intro c hc
    simpa using plain.ne_of_isBracket rfl c hc
  have head : (name.toList ++ brackets dimensions).takeWhile (· != '[') = name.toList := by
    rw [List.takeWhile_append_of_pos passed, takeWhile_brackets, List.append_nil]
  have tail : (name.toList ++ brackets dimensions).dropWhile (· != '[') = brackets dimensions := by
    rw [List.dropWhile_append_of_pos passed]
    cases dimensions <;> rfl
  have solid : (brackets dimensions).filter (fun c => !isBlank c) = brackets dimensions := by
    refine List.filter_eq_self.mpr fun c hc => ?_
    rcases mem_brackets hc with rfl | rfl <;> rfl
  simp only [ofBareText, head, tail, solid, plain.solid.trim_self, String.ofList_toList, kindOfName]

end Brackets

/-- The text of a signature, when the variable that is being declared is shown already. -/
def written (declared : Option String) (s : Signature) : List Char :=
  (s.renderWith declared.toList).1.toList

/-- The signature as it is read, with the uses of the declared variable marked. -/
def mark (declared : Option String) : Signature → Signature := markVariables (some · == declared)

/-- The written form can be cut at what is not visible in it, and is read as the signature. -/
structure Legible (declared : Option String) (form : Form) (s : Signature) : Prop where
  shown : (s.renderWith declared.toList).2 = declared.toList
  nest : Nest form.visible (s.written declared)
  solid : Solid (s.written declared)
  read : ∀ whole, ∃ t, readType whole (s.written declared) = .ok t ∧ t.mark declared = s

theorem renderAllWith_of_shown {declared : List String} {list : List Signature}
    (shown : ∀ s ∈ list, (s.renderWith declared).2 = declared) :
    renderAllWith declared list = (list.map fun s => (s.renderWith declared).1, declared) := by
  induction list with
  | nil => rfl
  | cons s rest ih =>
    have first := shown s List.mem_cons_self
    have others := ih fun s h => shown s (List.mem_cons_of_mem _ h)
    simp only [renderAllWith, first, others, List.map_cons]

/-- What stands between the texts of a list: a separator, and blanks around it. -/
structure Glue (separator : Char) (glue : List Char) : Prop where
  ordinary : isBracket separator = false
  solid : isBlank separator = false
  blanks : ∃ before after, glue = before ++ separator :: after ∧
    isBlankText before = true ∧ isBlankText after = true

theorem glue_comma : Glue ',' [',', ' '] :=
  ⟨rfl, rfl, [], [' '], rfl, rfl, rfl⟩

theorem glue_ampersand : Glue '&' [' ', '&', ' '] :=
  ⟨rfl, rfl, [' '], [' '], rfl, rfl, rfl⟩

/-- The texts of a list of signatures come apart where they were joined, and are read one by
one. -/
theorem read_list {declared : Option String} {form : Form} {list : List Signature}
    {separator : Char} {glue : List Char} (some : list ≠ [])
    (legible : ∀ s ∈ list, Legible declared form s) (between : Glue separator glue)
    (hidden : form.visible separator = false) (whole : String) :
    ∃ results, (splitTopLevel separator (glue.intercalate
      (list.map (written declared)))).mapM (readType whole) = .ok results ∧
      results.map (mark declared) = list := by
  obtain ⟨ordinary, solid, before, after, rfl, blankBefore, blankAfter⟩ := between
  have texts : ∀ text ∈ list.map (written declared), Nest form.visible text ∧ Solid text := by
    intro text h
    obtain ⟨s, hs, rfl⟩ := List.mem_map.mp h
    exact ⟨(legible s hs).nest, (legible s hs).solid⟩
  have blankLead : ∀ c ∈ ([] : List Char), isBlank c = true := by simp
  have pieces := forall₂_splitFrom_intercalate ordinary solid hidden
    (List.all_eq_true.mp blankBefore) (List.all_eq_true.mp blankAfter) blankLead
    (by simpa using some) texts
  refine mapM_of_forall₂ ?_
  rw [List.forall₂_map_left_iff] at pieces
  refine ((List.forall₂_and_left _ _).mpr ⟨legible, pieces⟩).imp ?_
  rintro s piece ⟨hs, trimmed⟩
  rw [readType_congr (trimmed.trans hs.solid.trim_self.symm)]
  exact hs.read whole

theorem Legible.of_text {declared : Option String} {form : Form} {s : Signature} {text : List Char}
    (shows : s.renderWith declared.toList = (String.ofList text, declared.toList))
    (nest : Nest form.visible text) (solid : Solid text)
    (read : ∀ whole, ∃ t, readType whole text = .ok t ∧ t.mark declared = s) :
    Legible declared form s := by
  have same : s.written declared = text := by rw [written, shows, String.toList_ofList]
  rw [← same] at nest solid read
  exact ⟨congrArg Prod.snd shows, nest, solid, read⟩

theorem visible_of_isNamePart {c : Char} (part : isNamePart c = true) :
    Form.argument.visible c = true := by
  simpa [Form.visible] using (isNamePart_iff.mp part).2.2.1

theorem Legible.argument {declared : Option String} {s : Signature} (legible : Legible declared .type s) :
    Legible declared .argument s where
  shown := legible.shown
  nest := legible.nest.mono fun _ => visible_of_isNamePart
  solid := legible.solid
  read := legible.read

section Names

variable {name : String} {arguments : List Signature} {inside : List Char} {visible : Char → Bool}

theorem solid_name (plain : Plain name) (dimensions : Nat) :
    Solid (name.toList ++ brackets dimensions) :=
  ⟨plain.solid.starts.append _, ends_brackets plain.solid.ends dimensions⟩

theorem solid_generic (plain : Plain name) (inside : List Char) (dimensions : Nat) :
    Solid (name.toList ++ '<' :: (inside ++ '>' :: brackets dimensions)) := by
  have closing : Ends (name.toList ++ '<' :: (inside ++ ['>'])) :=
    ⟨name.toList ++ '<' :: inside, '>', by simp, rfl, by decide⟩
  refine ⟨plain.solid.starts.append _, ?_⟩
  simpa using ends_brackets closing dimensions

theorem nest_generic (plain : Plain name) (nest : Nest visible inside) (dimensions : Nat) :
    Nest isNamePart (name.toList ++ '<' :: (inside ++ '>' :: brackets dimensions)) :=
  plain.nest.append (.group (nest.mono fun _ _ => rfl) (nest_brackets dimensions))

/-- A text that begins with a name and shows only parts of names, with at most one group. -/
theorem readType_outline (plain : Plain name) (dimensions : Nat) {rest : List Char} {cut : Outline}
    (solid : Solid (name.toList ++ rest)) (nest : Nest isNamePart (name.toList ++ rest))
    (outlined : outline (name.toList ++ rest) = cut)
    (bare : cut.bare = name.toList ++ brackets dimensions) {whole : String}
    {groups : List (List Signature)} (read : cut.insides.mapM (fun inside =>
      (splitTopLevel ',' inside).mapM (readType whole)) = .ok groups) {lastPart : List Char}
    (last : cut.lastPart? = some lastPart) :
    readType whole (name.toList ++ rest) = .ok
      { ofName (kindOfName name) name with
        dimension := String.ofList (brackets dimensions)
        arguments :=
          if isBlankText (lastPart.takeWhile (· != '[')) then groups.getLastD [] else [] } := by
  have trimmed := solid.trim_self
  have some : name.toList ++ rest ≠ [] := by simp [plain.ne_nil]
  have unbounded := boundClause?_eq_none nest rfl
  have named := ofBareText_brackets plain dimensions
  have filled : (ofBareText cut.bare).name ≠ "" := by
    rw [bare, named]
    rintro (rfl : name = "")
    exact plain.ne_nil rfl
  rw [← trimmed] at some unbounded outlined
  rw [readType_unbounded some unbounded (trimmed.symm ▸ plain.append_ne_any rest) outlined read last
    filled, bare, named]

theorem readType_name (plain : Plain name) (dimensions : Nat) (whole : String) :
    readType whole (name.toList ++ brackets dimensions) = .ok
      { ofName (kindOfName name) name with dimension := String.ofList (brackets dimensions) } := by
  have flat : outline (name.toList ++ brackets dimensions) =
      .tail (name.toList ++ brackets dimensions) := by
    refine outline_plain fun c hc => ?_
    rcases List.mem_append.mp hc with part | bracket
    · exact plain.ne_of_isBracket rfl c part
    · rcases mem_brackets bracket with rfl | rfl <;> decide
  have nothing : ([] : List (List Char)).mapM (fun inside =>
      (splitTopLevel ',' inside).mapM (readType whole)) = .ok [] := rfl
  rw [readType_outline plain dimensions (solid_name plain dimensions)
    (plain.nest.append (nest_brackets dimensions)) flat rfl nothing rfl]
  simp [ofName]

theorem readType_bare (plain : Plain name) (whole : String) :
    readType whole name.toList = .ok (ofName (kindOfName name) name) := by
  simpa [brackets, ofName] using readType_name plain 0 whole

/-- A name with arguments, read from the text between the brackets. -/
theorem readType_generic (plain : Plain name) (dimensions : Nat) (nest : Nest visible inside)
    {whole : String} (read : (splitTopLevel ',' inside).mapM (readType whole) = .ok arguments) :
    readType whole (name.toList ++ '<' :: (inside ++ '>' :: brackets dimensions)) = .ok
      { ofName (kindOfName name) name with
        dimension := String.ofList (brackets dimensions), arguments } := by
  have behind : ∀ c ∈ brackets dimensions, c ≠ '<' := by
    intro c hc
    rcases mem_brackets hc with rfl | rfl <;> decide
  have cut := outline_group (plain.ne_of_isBracket rfl) nest behind
  have group : [inside].mapM (fun inside => (splitTopLevel ',' inside).mapM (readType whole)) =
      .ok [arguments] := by
    rw [List.mapM_cons, read]
    rfl
  rw [readType_outline plain dimensions (solid_generic plain inside dimensions)
    (nest_generic plain nest dimensions) cut rfl group rfl, takeWhile_brackets]
  rfl

end Names

section Cases

variable {declared : Option String} {name : String} {arguments bounds : List Signature}

theorem intercalate_renderAllWith {form : Form} {list : List Signature}
    (legible : ∀ s ∈ list, Legible declared form s) (glue : String) :
    (glue.intercalate (renderAllWith declared.toList list).1).toList =
        glue.toList.intercalate (list.map (written declared)) ∧
      (renderAllWith declared.toList list).2 = declared.toList := by
  rw [renderAllWith_of_shown fun s h => (legible s h).shown, String.toList_intercalate,
    List.map_map]
  exact ⟨rfl, rfl⟩

theorem mark_named (kind : TypeKind) (dimension : String) (results : List Signature)
    (free : results = [] → declared ≠ some name) :
    mark declared ⟨kind, name, dimension, results, [], [], false, none⟩ =
      ⟨kind, name, dimension, results.map (mark declared), [], [], false, none⟩ := by
  have kept : (kind == .classType && results.isEmpty && some name == declared) = false := by
    cases results with
    | nil => simp [Ne.symm (free rfl)]
    | cons => simp
  simp only [mark, markVariables, kept, markVariablesAll_eq_map, List.map_nil, Bool.false_eq_true,
    if_false]

theorem legible_named (plain : Plain name) (dimensions : Nat)
    (free : arguments = [] → declared ≠ some name)
    (legible : ∀ a ∈ arguments, Legible declared .argument a) :
    Legible declared .type ⟨kindOfName name, name, String.ofList (brackets dimensions), arguments,
      [], [], false, none⟩ := by
  have kind : kindOfName name ≠ .typeVariable := by
    unfold kindOfName
    split <;> simp
  by_cases some : arguments = []
  · cases some
    have shows : renderWith declared.toList ⟨kindOfName name, name,
        String.ofList (brackets dimensions), [], [], [], false, none⟩ =
          (String.ofList (name.toList ++ brackets dimensions), declared.toList) := by
      simp [renderWith, kind]
    refine .of_text shows (plain.nest.append (nest_brackets dimensions))
      (solid_name plain dimensions) fun whole => ?_
    exact ⟨_, readType_name plain dimensions whole, mark_named _ _ [] free⟩
  · obtain ⟨joined, shown⟩ := intercalate_renderAllWith legible ", "
    have nest : Nest (fun _ => true) ([',', ' '].intercalate (arguments.map (written declared))) := by
      refine .intercalate (.of_all rfl) fun text h => ?_
      obtain ⟨a, ha, rfl⟩ := List.mem_map.mp h
      exact (legible a ha).nest.mono fun _ _ => rfl
    have shows : renderWith declared.toList ⟨kindOfName name, name,
        String.ofList (brackets dimensions), arguments, [], [], false, none⟩ =
          (String.ofList (name.toList ++ '<' :: ([',', ' '].intercalate
            (arguments.map (written declared)) ++ '>' :: brackets dimensions)), declared.toList) := by
      have present : arguments.isEmpty = false := by simpa using some
      simp only [renderWith, kind, false_and, if_false, present, if_true, shown, Prod.mk.injEq, and_true]
      rw [← String.toList_inj]
      simp [joined]
    refine .of_text shows (nest_generic plain nest dimensions) (solid_generic plain _ dimensions)
      fun whole => ?_
    obtain ⟨results, read, marked⟩ := read_list some legible glue_comma rfl whole
    refine ⟨_, readType_generic plain dimensions nest read, ?_⟩
    rw [← marked]
    apply mark_named
    rintro rfl
    exact absurd marked.symm some

theorem legible_occurrence (plain : Plain name) (free : name ∉ primitiveNames) :
    Legible (some name) .type (ofName .typeVariable name) := by
  have shows : (ofName .typeVariable name).renderWith [name] =
      (String.ofList name.toList, [name]) := by
    simp [ofName, renderWith]
  refine .of_text shows plain.nest plain.solid fun whole => ?_
  refine ⟨_, readType_bare plain whole, ?_⟩
  simp [mark, ofName, markVariables, markVariablesAll, kindOfName, free]

theorem legible_any : Legible declared .argument anyType := by
  have shows : anyType.renderWith declared.toList = (String.ofList ['?'], declared.toList) := by
    simp [anyType, ofName, renderWith]
  have solid : Solid ['?'] := ⟨⟨'?', [], rfl, rfl⟩, [], '?', rfl, rfl, by decide⟩
  exact .of_text shows (.char rfl rfl .nil) solid fun whole => ⟨_, readType_any, rfl⟩

/-- A text with bounds behind it, as declarations and wildcards are written. -/
def boundedText (declared : Option String) (head : List Char) (side : BoundSide)
    (bounds : List Signature) : List Char :=
  head ++ ' ' :: (side.keyword.toList ++ ' ' ::
    [' ', '&', ' '].intercalate (bounds.map (written declared)))

theorem ends_bounds (some : bounds ≠ []) (legible : ∀ b ∈ bounds, Legible declared .type b) :
    Ends ([' ', '&', ' '].intercalate (bounds.map (written declared))) := by
  refine ends_intercalate (by simpa using some) fun text h => ?_
  obtain ⟨b, hb, rfl⟩ := List.mem_map.mp h
  exact (legible b hb).solid.ends

theorem solid_bounded {head : List Char} (starts : Starts head) (side : BoundSide)
    (some : bounds ≠ []) (legible : ∀ b ∈ bounds, Legible declared .type b) :
    Solid (boundedText declared head side bounds) := by
  refine ⟨starts.append _, ?_⟩
  have ends := (ends_bounds some legible).append (head ++ ' ' :: (side.keyword.toList ++ [' ']))
  simpa [boundedText] using ends

theorem nest_bounded {head : List Char} (nest : Nest Form.argument.visible head) (side : BoundSide)
    (legible : ∀ b ∈ bounds, Legible declared .type b) :
    Nest Form.argument.visible (boundedText declared head side bounds) := by
  have keyword : Nest Form.argument.visible (' ' :: (side.keyword.toList ++ [' '])) :=
    .of_all (by cases side <;> rfl)
  have joined : Nest Form.argument.visible
      ([' ', '&', ' '].intercalate (bounds.map (written declared))) := by
    refine .intercalate (.of_all rfl) fun text h => ?_
    obtain ⟨b, hb, rfl⟩ := List.mem_map.mp h
    exact (legible b hb).argument.nest
  simpa [boundedText] using nest.append (keyword.append joined)

theorem renderWith_bounded {kind : TypeKind} {shown : List String} (side : BoundSide)
    (some : bounds ≠ []) (legible : ∀ b ∈ bounds, Legible declared .type b)
    (fresh : kind = .typeVariable → name ∉ shown)
    (shows : (if kind = .typeVariable then name :: shown else shown) = declared.toList) :
    ((ofName kind name).withBounds side bounds).renderWith shown =
      (String.ofList (boundedText declared name.toList side bounds), declared.toList) := by
  obtain ⟨joined, kept⟩ := intercalate_renderAllWith legible " & "
  have present : bounds.isEmpty = false := by simpa using some
  have new : ¬(kind = .typeVariable ∧ name ∈ shown) := fun h => fresh h.1 h.2
  cases side <;>
  · simp only [withBounds, ofName, renderWith, if_neg new, shows, List.isEmpty_nil, present, kept,
      Bool.true_eq_false, if_false, if_true, Prod.mk.injEq, and_true]
    rw [← String.toList_inj]
    simp [boundedText, joined, BoundSide.keyword]

theorem readType_bounds {head : List Char} {visible : Char → Bool} (nest : Nest visible head)
    (hidden : visible ' ' = false) (solid : Solid head) (side : BoundSide) (some : bounds ≠ [])
    (legible : ∀ b ∈ bounds, Legible declared .type b) (whole : String) :
    ∃ results, results.map (mark declared) = bounds ∧
      readType whole (boundedText declared head side bounds) =
      if head = ['?'] then .ok (anyType.withBounds side results)
      else do
        let found ← readType whole head
        return { found with kind := .typeVariable }.withBounds side
          (markVariablesAll (· == found.name) results) := by
  obtain ⟨results, read, marked⟩ := read_list some legible glue_ampersand rfl whole
  have clause : boundClause? (boundedText declared head side bounds) = Option.some ⟨head, side, _⟩ :=
    boundClause?_eq_some nest hidden solid side _
  rw [← (solid_bounded solid.starts side some legible).trim_self] at clause
  exact ⟨results, marked, readType_bounded clause (ends_bounds some legible).isBlankText read⟩

theorem legible_bounded (side : BoundSide) (some : bounds ≠ [])
    (legible : ∀ b ∈ bounds, Legible declared .type b) :
    Legible declared .argument (anyType.withBounds side bounds) := by
  have nest : Nest (· == '?') ['?'] := .char rfl rfl .nil
  have solid : Solid ['?'] := ⟨⟨'?', [], rfl, rfl⟩, [], '?', rfl, rfl, by decide⟩
  refine .of_text (renderWith_bounded side some legible (by simp) (by simp))
    (nest_bounded (.char rfl rfl .nil) side legible) (solid_bounded solid.starts side some legible)
    fun whole => ?_
  obtain ⟨results, marked, read⟩ := readType_bounds nest rfl solid side some legible whole
  refine ⟨_, read, ?_⟩
  rw [← marked, mark]
  cases side <;> simp [withBounds, anyType, ofName, markVariables, markVariablesAll_eq_map]

theorem legible_of_written (plain : ∀ name, declared = some name → Plain name ∧ name ∉ primitiveNames)
    {form : Form} {s : Signature} (written : Written declared form s) : Legible declared form s := by
  induction written with
  | named dimensions name free _ ih => exact legible_named name dimensions free ih
  | @occurrence name same =>
    obtain ⟨hname, free⟩ := plain name same
    exact same ▸ legible_occurrence hname free
  | argument _ ih => exact ih.argument
  | any => exact legible_any
  | bounded some _ ih => exact legible_bounded _ some ih

end Cases

mutual

theorem markVariables_never : ∀ s : Signature, markVariables (fun _ => false) s = s
  | ⟨_, _, _, arguments, supers, uppers, _, _⟩ => by
    simp only [markVariables, Bool.and_false, Bool.false_eq_true, if_false,
      markVariablesAll_never arguments, markVariablesAll_never supers,
      markVariablesAll_never uppers]

theorem markVariablesAll_never :
    ∀ list : List Signature, markVariablesAll (fun _ => false) list = list
  | [] => rfl
  | s :: rest => by rw [markVariablesAll, markVariables_never s, markVariablesAll_never rest]

end

section Expressions

variable {visible : Char → Bool} {text : List Char} {s : Signature}

def ellipsis (varargs : Bool) : List Char := if varargs then ['.', '.', '.'] else []

theorem trim_ellipsis (solid : Solid text) (varargs : Bool) :
    trim (text ++ ellipsis varargs) = text ++ ellipsis varargs := by
  cases varargs with
  | false => simpa [ellipsis] using solid.trim_self
  | true =>
    rw [trim, trimStart_self (solid.starts.append _)]
    exact trimEnd_self ⟨text ++ ['.', '.'], '.', by simp [ellipsis], rfl⟩

theorem splitEllipsis_ellipsis (solid : Solid text) (varargs : Bool) :
    splitEllipsis (text ++ ellipsis varargs) = (text, varargs) := by
  cases varargs with
  | false =>
    obtain ⟨rest, c, rfl, _, other⟩ := solid.ends
    simp [ellipsis, splitEllipsis, other]
  | true => simp [ellipsis, splitEllipsis, solid.trimEnd_self]

/-- An expression is read as its type, with the ellipsis cut off. -/
theorem parse_of_readType (nest : Nest visible text) (solid : Solid text)
    (read : ∀ whole, readType whole text = .ok s) (varargs : Bool) :
    parse (String.ofList (text ++ ellipsis varargs)) = .ok { s with varargs } := by
  have some : text ++ ellipsis varargs ≠ [] := by
    obtain ⟨c, rest, rfl, _⟩ := solid.starts
    simp
  have balance : balanced (text ++ ellipsis varargs) = true := by
    have dots : Nest (fun _ => true) (ellipsis varargs) :=
      .of_all (by cases varargs <;> rfl)
    exact ((nest.mono fun _ _ => rfl).append dots).balanced
  simp only [parse, String.toList_ofList, trim_ellipsis solid, if_neg some, balance,
    splitEllipsis_ellipsis solid, read]
  rfl

theorem displayName_eq (varargs : Bool) (shows : (s.renderWith []).1 = String.ofList text) :
    displayName { s with varargs } = String.ofList (text ++ ellipsis varargs) := by
  have same : ({ s with varargs } : Signature).fullName = String.ofList text := by
    rw [← shows]
    cases s
    simp only [fullName, renderWith]
  rw [displayName, same, ← String.toList_inj]
  cases varargs <;> simp [ellipsis]

end Expressions

/-- Reading the written form of a well-formed signature gives the signature. -/
theorem parse_displayName {s : Signature} (wf : s.WellFormed) : parse s.displayName = .ok s := by
  cases wf with
  | @use s varargs written =>
    have legible := legible_of_written (by rintro _ ⟨⟩) written
    have read : ∀ whole, readType whole (s.written none) = .ok s := by
      intro whole
      obtain ⟨t, read, marked⟩ := legible.read whole
      rw [read, ← marked]
      exact congrArg _ (markVariables_never t).symm
    rw [displayName_eq varargs (String.ofList_toList.symm)]
    exact parse_of_readType legible.nest legible.solid read varargs
  | @declaration name bounds varargs plain bare free some written =>
    have legible : ∀ b ∈ bounds, Legible (Option.some name) .type b := fun b hb =>
      legible_of_written (by rintro _ ⟨⟩; exact ⟨plain, free⟩) (written b hb)
    have shows : ((ofName .typeVariable name).withBounds .upper bounds).renderWith [] = _ :=
      renderWith_bounded .upper some legible (by simp) rfl
    have read : ∀ whole, readType whole (boundedText (Option.some name) name.toList .upper bounds) =
        .ok ((ofName .typeVariable name).withBounds .upper bounds) := by
      intro whole
      obtain ⟨results, marked, read⟩ :=
        readType_bounds plain.nest rfl plain.solid .upper some legible whole
      have apart := plain.append_ne_any []
      rw [List.append_nil] at apart
      rw [read, if_neg apart, readType_bare plain, ← marked]
      exact congrArg (fun bounds => Except.ok ((ofName .typeVariable name).withBounds .upper bounds))
        (markVariablesAll_eq_map (· == name) results)
    have solid := solid_bounded plain.solid.starts .upper some legible
    have nest := nest_bounded (plain.nest.mono fun _ => visible_of_isNamePart) .upper legible
    have shown := displayName_eq varargs (congrArg Prod.fst shows)
    exact (congrArg parse shown).trans (parse_of_readType nest solid read varargs)

/-- A declared variable that stands in its own bounds, also below a wildcard. -/
def tangled : Signature :=
  ⟨.typeVariable, "T", "", [], [],
    [⟨.classType, "java.lang.Comparable", "", [ofName .typeVariable "T"], [], [], false, none⟩,
      ⟨.classType, "Map.Entry", "[]", [anyType.withBounds .lower [ofName .typeVariable "T"],
        ⟨.primitive, "int", "[][]", [], [], [], false, none⟩], [], [], false, none⟩], true, none⟩

example : tangled.displayName =
    "T extends java.lang.Comparable<T> & Map.Entry<? super T, int[][]>[]..." := by decide +kernel

theorem parse_displayName_tangled :
    tangled.WellFormed ∧ parse tangled.displayName = .ok tangled := by
  have use : Written (some "T") .type (ofName .typeVariable "T") := .occurrence rfl
  have lower : Written (some "T") .argument (anyType.withBounds .lower [ofName .typeVariable "T"]) :=
    .bounded (by simp) (by simpa using use)
  have array : Written (some "T") .type ⟨.primitive, "int", "[][]", [], [], [], false, none⟩ :=
    @Written.named _ "int" 2 [] (by decide) (by simp) (by simp)
  have wf : tangled.WellFormed := by
    refine .declaration true (by decide) (by decide) (by decide) (by simp) ?_
    intro b hb
    rcases List.mem_cons.mp hb with rfl | hb
    · exact @Written.named _ "java.lang.Comparable" 0 [ofName .typeVariable "T"] (by decide) (by simp)
        (by simpa using use.argument)
    · cases List.mem_singleton.mp hb
      refine @Written.named _ "Map.Entry" 1 [_, _] (by decide) (by simp) ?_
      simpa using ⟨lower, array.argument⟩
  exact ⟨wf, parse_displayName wf⟩

end ApiCompat.Signature
