import ApiCompat.Text.Bracket
import ApiCompat.Text.Blank
import Mathlib.Data.List.Forall2

/-! Texts with nested brackets. In such a text the angle brackets form groups and the square ones
stand in empty pairs, so a scan that counts brackets comes out of it at the depth at which it went
in, and sees nothing of what is inside a group. -/
namespace ApiCompat.Text

def isBracket (c : Char) : Bool := c == '<' || c == '>' || c == '[' || c == ']'

/-- Nested brackets, and outside every group only characters that are `visible`. -/
inductive Nest : (Char → Bool) → List Char → Prop where
  | nil {visible : Char → Bool} : Nest visible []
  | char {visible : Char → Bool} {c : Char} {rest : List Char} : isBracket c = false →
      visible c = true → Nest visible rest → Nest visible (c :: rest)
  | pair {visible : Char → Bool} {rest : List Char} : Nest visible rest →
      Nest visible ('[' :: ']' :: rest)
  | group {visible : Char → Bool} {inside rest : List Char} : Nest (fun _ => true) inside →
      Nest visible rest → Nest visible ('<' :: (inside ++ '>' :: rest))

theorem depthAfter_of_isBracket {c : Char} (h : isBracket c = false) (depth : Nat) :
    depthAfter depth c = depth := by
  simp only [isBracket, Bool.or_eq_false_iff, beq_eq_false_iff_ne] at h
  simp [depthAfter, h]

theorem splitTopLevel_ne_nil (separator : Char) (text : List Char) :
    splitTopLevel separator text ≠ [] := by
  have extended (c : Char) (pieces : List (List Char)) : extendFirst c pieces ≠ [] := by
    cases pieces <;> simp [extendFirst]
  cases text with
  | nil => simp [splitTopLevel, splitFrom]
  | cons c rest =>
    rw [splitTopLevel, splitFrom]
    split
    · exact List.cons_ne_nil _ _
    · exact extended c _

theorem splitFrom_of_ne {separator c : Char} {depth : Nat} (h : c ≠ separator ∨ 0 < depth)
    (rest : List Char) : splitFrom separator depth (c :: rest) =
      extendFirst c (splitFrom separator (depthAfter depth c) rest) := by
  rw [splitFrom, if_neg]
  rintro ⟨same, outside⟩
  rcases h with other | inside
  · exact other same
  · omega

theorem takeGroup_of_ne {c : Char} {inner : Nat} (h : c ≠ '>' ∨ 0 < inner) (rest : List Char) :
    takeGroup inner (c :: rest) =
      (takeGroup (depthAfter inner c) rest).map fun group => (c :: group.1, group.2) := by
  rw [takeGroup, if_neg]
  rintro ⟨same, outside⟩
  rcases h with other | inside
  · exact other same
  · omega

namespace Nest

variable {visible visible' : Char → Bool} {text more : List Char}

theorem append (nest : Nest visible text) (others : Nest visible more) :
    Nest visible (text ++ more) := by
  induction nest with
  | nil => exact others
  | char plain seen _ ih => exact .char plain seen (ih others)
  | pair _ ih => exact .pair (ih others)
  | @group visible inside rest content _ _ ih =>
    have whole := Nest.group content (ih others)
    simpa using whole

theorem mono (nest : Nest visible text) (wider : ∀ c, visible c = true → visible' c = true) :
    Nest visible' text := by
  induction nest generalizing visible' with
  | nil => exact .nil
  | char plain seen _ ih => exact .char plain (wider _ seen) (ih wider)
  | pair _ ih => exact .pair (ih wider)
  | group content _ _ ih => exact .group content (ih wider)

theorem of_forall (plain : ∀ c ∈ text, isBracket c = false ∧ visible c = true) :
    Nest visible text := by
  induction text with
  | nil => exact .nil
  | cons c rest ih =>
    obtain ⟨hc, seen⟩ := plain c List.mem_cons_self
    exact .char hc seen (ih fun d hd => plain d (List.mem_cons_of_mem c hd))

theorem of_all (plain : text.all (fun c => !isBracket c && visible c) = true) :
    Nest visible text := by
  refine .of_forall fun c hc => ?_
  simpa using List.all_eq_true.mp plain c hc

/-- The scan cuts the text nowhere: the separator is not visible, or the text is in a group. -/
theorem splitFrom {separator : Char} (ordinary : isBracket separator = false)
    (nest : Nest visible text) {depth : Nat} (hidden : visible separator = false ∨ 0 < depth)
    (rest : List Char) : Text.splitFrom separator depth (text ++ rest) =
      text.foldr extendFirst (Text.splitFrom separator depth rest) := by
  have bracket {c : Char} (h : isBracket c = true) : c ≠ separator := by
    rintro rfl
    rw [h] at ordinary
    cases ordinary
  induction nest generalizing depth rest with
  | nil => rfl
  | @char visible c _ plain seen _ ih =>
    have passes : c ≠ separator ∨ 0 < depth := by
      refine hidden.imp_left ?_
      rintro unseen rfl
      rw [seen] at unseen
      cases unseen
    rw [List.cons_append, splitFrom_of_ne passes, depthAfter_of_isBracket plain, ih hidden]
    rfl
  | pair _ ih =>
    rw [List.cons_append, List.cons_append, splitFrom_of_ne (.inl (bracket rfl)),
      splitFrom_of_ne (.inl (bracket rfl))]
    exact congrArg _ (congrArg _ (ih hidden rest))
  | @group visible inside others _ _ ihInside ihRest =>
    have opening : depthAfter depth '<' = depth + 1 := rfl
    have closing : depthAfter (depth + 1) '>' = depth := rfl
    have tail : others.foldr extendFirst (Text.splitFrom separator depth rest) =
        Text.splitFrom separator depth (others ++ rest) := (ihRest hidden rest).symm
    rw [List.cons_append, List.append_assoc, List.cons_append,
      splitFrom_of_ne (.inl (bracket rfl)), opening, ihInside (.inr (Nat.succ_pos _)),
      splitFrom_of_ne (.inl (bracket rfl)), closing, ← tail]
    simp

/-- A group goes on over the text. -/
theorem takeGroup (nest : Nest visible text) (inner : Nat) (rest : List Char) :
    Text.takeGroup inner (text ++ rest) =
      (Text.takeGroup inner rest).map fun group => (text ++ group.1, group.2) := by
  induction nest generalizing inner rest with
  | nil => simp
  | @char visible c _ plain _ _ ih =>
    have passes : c ≠ '>' := by
      rintro rfl
      cases plain
    rw [List.cons_append, takeGroup_of_ne (.inl passes), depthAfter_of_isBracket plain, ih,
      Option.map_map]
    rfl
  | pair _ ih =>
    rw [List.cons_append, List.cons_append, takeGroup_of_ne (.inl (by decide)),
      takeGroup_of_ne (.inl (by decide))]
    have same : depthAfter (depthAfter inner '[') ']' = inner := rfl
    rw [same, ih, Option.map_map, Option.map_map]
    rfl
  | @group visible inside others _ _ ihInside ihRest =>
    have opening : depthAfter inner '<' = inner + 1 := rfl
    have closing : depthAfter (inner + 1) '>' = inner := rfl
    rw [List.cons_append, List.append_assoc, List.cons_append,
      takeGroup_of_ne (.inl (by decide)), opening, ihInside,
      takeGroup_of_ne (.inr (Nat.succ_pos _)), closing, ihRest]
    cases Text.takeGroup inner rest <;> simp

theorem balancedFrom (nest : Nest visible text) (angle : Nat) (rest : List Char) :
    Text.balancedFrom angle false (text ++ rest) = Text.balancedFrom angle false rest := by
  induction nest generalizing angle rest with
  | nil => rfl
  | char plain _ _ ih =>
    simp only [isBracket, Bool.or_eq_false_iff, beq_eq_false_iff_ne] at plain
    simp [Text.balancedFrom, plain, ih]
  | pair _ ih => simp [Text.balancedFrom, ih]
  | group _ _ ihInside ihRest =>
    simp [Text.balancedFrom, ihInside, ihRest]

theorem balanced (nest : Nest visible text) : Text.balanced text = true := by
  have whole := nest.balancedFrom 0 []
  rwa [List.append_nil] at whole

end Nest

def Starts (text : List Char) : Prop := ∃ c rest, text = c :: rest ∧ isBlank c = false

/-- The text has an end that is no blank, and that does not look like the end of an ellipsis. -/
def Ends (text : List Char) : Prop :=
  ∃ rest c, text = rest ++ [c] ∧ isBlank c = false ∧ c ≠ '.'

/-- A text that trimming leaves as it is. -/
structure Solid (text : List Char) : Prop where
  starts : Starts text
  ends : Ends text

theorem Starts.append {text : List Char} (starts : Starts text) (rest : List Char) :
    Starts (text ++ rest) := by
  obtain ⟨c, others, rfl, solid⟩ := starts
  exact ⟨c, others ++ rest, rfl, solid⟩

theorem Ends.append {text : List Char} (ends : Ends text) (lead : List Char) :
    Ends (lead ++ text) := by
  obtain ⟨rest, c, rfl, solid⟩ := ends
  exact ⟨lead ++ rest, c, (List.append_assoc _ _ _).symm, solid⟩

theorem Ends.isBlankText {text : List Char} (ends : Ends text) : isBlankText text = false := by
  obtain ⟨rest, c, rfl, solid, _⟩ := ends
  simp [Text.isBlankText, solid]

theorem trimStart_append {lead text : List Char} (blank : ∀ c ∈ lead, isBlank c = true)
    (starts : Starts text) : trimStart (lead ++ text) = text := by
  obtain ⟨c, rest, rfl, solid⟩ := starts
  rw [trimStart, List.dropWhile_append_of_pos blank, List.dropWhile_cons_of_neg (by simp [solid])]

theorem trimEnd_append {text trail : List Char} (blank : ∀ c ∈ trail, isBlank c = true)
    (ends : ∃ rest c, text = rest ++ [c] ∧ isBlank c = false) : trimEnd (text ++ trail) = text := by
  obtain ⟨rest, c, rfl, solid⟩ := ends
  rw [trimEnd, List.reverse_append, List.dropWhile_append_of_pos (by simpa using blank)]
  simp [solid]

theorem Solid.trim {lead text trail : List Char} (solid : Solid text)
    (before : ∀ c ∈ lead, isBlank c = true) (after : ∀ c ∈ trail, isBlank c = true) :
    Text.trim (lead ++ (text ++ trail)) = text := by
  obtain ⟨rest, c, same, hc, _⟩ := solid.ends
  rw [Text.trim, trimStart_append before (solid.starts.append trail),
    trimEnd_append after ⟨rest, c, same, hc⟩]

theorem trimStart_self {text : List Char} (starts : Starts text) : trimStart text = text := by
  have blank : ∀ c ∈ ([] : List Char), isBlank c = true := by simp
  exact trimStart_append blank starts

theorem trimEnd_self {text : List Char}
    (ends : ∃ rest c, text = rest ++ [c] ∧ isBlank c = false) : trimEnd text = text := by
  have blank : ∀ c ∈ ([] : List Char), isBlank c = true := by simp
  simpa using trimEnd_append blank ends

theorem Solid.trimEnd_self {text : List Char} (solid : Solid text) : trimEnd text = text := by
  obtain ⟨rest, c, same, hc, _⟩ := solid.ends
  exact Text.trimEnd_self ⟨rest, c, same, hc⟩

theorem Solid.trim_self {text : List Char} (solid : Solid text) : Text.trim text = text := by
  rw [Text.trim, trimStart_self solid.starts, solid.trimEnd_self]

theorem foldr_extendFirst (text piece : List Char) (pieces : List (List Char)) :
    text.foldr extendFirst (piece :: pieces) = (text ++ piece) :: pieces := by
  induction text with
  | nil => rfl
  | cons c rest ih => rw [List.foldr_cons, ih, extendFirst, List.cons_append]

theorem isBracket_of_isBlank {c : Char} (blank : isBlank c = true) : isBracket c = false := by
  cases bracket : isBracket c with
  | false => rfl
  | true =>
    simp only [isBracket, Bool.or_eq_true, beq_iff_eq] at bracket
    rcases bracket with ((rfl | rfl) | rfl) | rfl <;> cases blank

theorem Nest.intercalate {visible : Char → Bool} {glue : List Char} (between : Nest visible glue)
    {texts : List (List Char)} (nests : ∀ text ∈ texts, Nest visible text) :
    Nest visible (glue.intercalate texts) := by
  induction texts with
  | nil => exact .nil
  | cons text texts ih =>
    have first := nests text List.mem_cons_self
    have others := ih fun text h => nests text (List.mem_cons_of_mem _ h)
    cases texts with
    | nil => rwa [List.intercalate_singleton]
    | cons next rest =>
      rw [List.intercalate_cons_cons]
      exact (first.append between).append others

theorem ends_intercalate {glue : List Char} {texts : List (List Char)} (some : texts ≠ [])
    (ends : ∀ text ∈ texts, Ends text) : Ends (glue.intercalate texts) := by
  induction texts with
  | nil => exact absurd rfl some
  | cons text texts ih =>
    cases texts with
    | nil =>
      rw [List.intercalate_singleton]
      exact ends text List.mem_cons_self
    | cons next rest =>
      have later := ih (by simp) fun text h => ends text (List.mem_cons_of_mem _ h)
      rw [List.intercalate_cons_cons]
      exact later.append _

theorem outline_plain {text : List Char} (plain : ∀ c ∈ text, c ≠ '<') :
    outline text = .tail text := by
  have nothing : text.dropWhile (· != '<') = [] := by
    rw [← List.append_nil text, List.dropWhile_append_of_pos (by simpa using plain)]
    rfl
  rw [outline]
  split
  · rfl
  · rename_i opening
    rw [nothing] at opening
    cases opening

/-- A text with one group, and parts without brackets around it. -/
theorem outline_group {before inside behind : List Char} {visible : Char → Bool}
    (plainBefore : ∀ c ∈ before, c ≠ '<') (nest : Nest visible inside)
    (plainBehind : ∀ c ∈ behind, c ≠ '<') :
    outline (before ++ '<' :: (inside ++ '>' :: behind)) = .group before inside (.tail behind) := by
  have passed : ∀ c ∈ before, (c != '<') = true := by simpa using plainBefore
  have opening : (before ++ '<' :: (inside ++ '>' :: behind)).dropWhile (· != '<') =
      '<' :: (inside ++ '>' :: behind) := by
    rw [List.dropWhile_append_of_pos passed]
    rfl
  have taken : takeGroup 0 (inside ++ '>' :: behind) = some (inside, behind) := by
    rw [nest.takeGroup, takeGroup, if_pos ⟨rfl, rfl⟩, Option.map_some, List.append_nil]
  have start : (before ++ '<' :: (inside ++ '>' :: behind)).takeWhile (· != '<') = before := by
    rw [List.takeWhile_append_of_pos passed]
    simp
  rw [outline]
  split
  · rename_i closed
    rw [opening] at closed
    cases closed
  · rename_i c more found
    rw [opening] at found
    cases found
    split
    · rename_i unclosed
      rw [taken] at unclosed
      cases unclosed
    · rename_i group closed
      rw [taken] at closed
      cases closed
      rw [start, outline_plain plainBehind]

section Join

variable {separator : Char} {visible : Char → Bool} {before after : List Char}

/-- Texts put together with a separator that stands between blanks come apart at it again. -/
theorem forall₂_splitFrom_intercalate (ordinary : isBracket separator = false)
    (solid : isBlank separator = false) (hidden : visible separator = false)
    (blankBefore : ∀ c ∈ before, isBlank c = true) (blankAfter : ∀ c ∈ after, isBlank c = true)
    {lead : List Char} (blankLead : ∀ c ∈ lead, isBlank c = true) {texts : List (List Char)}
    (some : texts ≠ []) (nests : ∀ text ∈ texts, Nest visible text ∧ Solid text) :
    List.Forall₂ (fun text piece => trim piece = text) texts
      (splitFrom separator 0 (lead ++ (before ++ separator :: after).intercalate texts)) := by
  have passes {blanks : List Char} (blank : ∀ c ∈ blanks, isBlank c = true) :
      Nest isBlank blanks :=
    .of_forall fun c hc => ⟨isBracket_of_isBlank (blank c hc), blank c hc⟩
  -- The blanks behind a separator lead the text that comes next, so the lead is arbitrary.
  induction texts generalizing lead with
  | nil => exact absurd rfl some
  | cons text texts ih =>
    obtain ⟨nest, whole⟩ := nests text List.mem_cons_self
    rw [(passes blankLead).splitFrom ordinary (.inl solid)]
    cases texts with
    | nil =>
      have scanned : splitFrom separator 0 (text ++ []) = _ :=
        nest.splitFrom ordinary (.inl hidden) []
      rw [List.append_nil] at scanned
      rw [List.intercalate_singleton, scanned, splitFrom, foldr_extendFirst, foldr_extendFirst]
      exact .cons (whole.trim blankLead (by simp)) .nil
    | cons next others =>
      have later := ih blankAfter (by simp) fun text h => nests text (List.mem_cons_of_mem _ h)
      rw [List.intercalate_cons_cons, List.append_assoc, List.append_assoc, List.cons_append,
        nest.splitFrom ordinary (.inl hidden), (passes blankBefore).splitFrom ordinary (.inl solid),
        splitFrom, if_pos ⟨rfl, rfl⟩, foldr_extendFirst, foldr_extendFirst, foldr_extendFirst,
        List.append_nil]
      exact .cons (whole.trim blankLead blankBefore) later

end Join

end ApiCompat.Text
