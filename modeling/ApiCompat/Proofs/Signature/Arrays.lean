import ApiCompat.Proofs.Signature.Shown

/-! Array suffixes. Everything from the first square bracket on is taken for the suffix, and square
brackets are counted over the whole expression only. So the suffix is made of groups exactly if
each text that is read as a name has groups and nothing else behind the name; text behind a
group, or a group that is cut apart at an angle bracket or a comma, is accepted as well. -/
namespace ApiCompat.Signature

open Text

def SquareFree (text : List Char) : Prop := ∀ c ∈ text, c ≠ '[' ∧ c ≠ ']'

/-- Groups of square brackets in a row, between which certain characters may stand. -/
inductive Groups (between : Char → Bool) : List Char → Prop where
  | nil : Groups between []
  | skip {c : Char} {rest : List Char} : between c = true → Groups between rest →
      Groups between (c :: rest)
  | group {inside rest : List Char} : SquareFree inside → Groups between rest →
      Groups between ('[' :: (inside ++ ']' :: rest))

/-- Groups that follow one another directly. -/
def ArraySuffix (dimension : String) : Prop := Groups (fun _ => false) dimension.toList

/-- A name and the groups behind it. -/
def ArrayType (bare : List Char) : Prop :=
  ∃ name groups, bare = name ++ groups ∧ SquareFree name ∧ Groups isBlank groups

section Groups

variable {between : Char → Bool} {text name groups : List Char}

theorem Groups.of_blank (blank : ∀ c ∈ text, isBlank c = true) (behind : Groups isBlank groups) :
    Groups isBlank (text ++ groups) := by
  induction text with
  | nil => exact behind
  | cons c rest ih =>
    exact .skip (blank c List.mem_cons_self) (ih fun d hd => blank d (List.mem_cons_of_mem c hd))

theorem square_of_isBlank {c : Char} (blank : isBlank c = true) : c ≠ '[' ∧ c ≠ ']' := by
  constructor <;>
  · rintro rfl
    cases blank

theorem SquareFree.of_filter (free : SquareFree (text.filter fun c => !isBlank c)) :
    SquareFree text := by
  intro c h
  by_cases blank : isBlank c = true
  · exact square_of_isBlank blank
  · exact free c (List.mem_filter.mpr ⟨h, by simpa using blank⟩)

/-- Without its blanks a text is made of groups exactly if only blanks stand between its groups. -/
theorem groups_filter_iff :
    Groups (fun _ => false) (text.filter fun c => !isBlank c) ↔ Groups isBlank text := by
  constructor
  · intro suffix
    generalize same : text.filter (fun c => !isBlank c) = solid at suffix
    induction suffix generalizing text with
    | nil =>
      have blank : ∀ c ∈ text, isBlank c = true := by simpa using same
      simpa using Groups.of_blank blank .nil
    | skip never _ _ => cases never
    | @group inside rest free _ ih =>
      obtain ⟨lead, more, rfl, blank, _, opened⟩ := List.filter_eq_cons_iff.mp same
      obtain ⟨inner, behind, rfl, rfl, closed⟩ := List.filter_eq_append_iff.mp opened
      obtain ⟨trail, others, rfl, blank', _, later⟩ := List.filter_eq_cons_iff.mp closed
      have whole : SquareFree (inner ++ trail) := by
        refine SquareFree.of_filter ?_
        rw [List.filter_append, List.filter_eq_nil_iff.mpr blank', List.append_nil]
        exact free
      have cut : Groups isBlank ('[' :: ((inner ++ trail) ++ ']' :: others)) := .group whole (ih later)
      rw [List.append_assoc] at cut
      exact Groups.of_blank (by simpa using blank) cut
  · intro groups
    induction groups with
    | nil => exact .nil
    | skip blank _ ih => simpa [blank] using ih
    | @group inside rest free _ ih =>
      have kept : SquareFree (inside.filter fun c => !isBlank c) :=
        fun c h => free c (List.mem_of_mem_filter h)
      have solid : isBlank '[' = false ∧ isBlank ']' = false := by decide
      simpa [solid] using Groups.group kept ih

theorem Groups.split (groups : Groups isBlank text) :
    (∀ c ∈ text.takeWhile (· != '['), isBlank c = true) ∧
      Groups isBlank (text.dropWhile (· != '[')) := by
  induction groups with
  | nil => exact ⟨by simp, .nil⟩
  | @skip c rest blank _ ih =>
    have other : c ≠ '[' := by
      rintro rfl
      cases blank
    simpa [List.takeWhile_cons, List.dropWhile_cons, other, blank] using ih
  | group free rest _ => exact ⟨by simp, by simpa using Groups.group free rest⟩

end Groups

theorem squareFree_trim_iff {text : List Char} : SquareFree (trim text) ↔ SquareFree text := by
  obtain ⟨lead, trail, same, before, behind⟩ := exists_trim text
  refine ⟨fun free => ?_, fun free c h => free c (mem_of_mem_trim h)⟩
  rw [same]
  intro c h
  simp only [List.mem_append] at h
  rcases h with h | h | h
  · exact square_of_isBlank (before c h)
  · exact free c h
  · exact square_of_isBlank (behind c h)

/-- A text gives a name without square brackets and a suffix of groups exactly if it is a name with
groups behind it. -/
theorem arrayType_iff (bare : List Char) :
    SquareFree (ofBareText bare).name.toList ∧ ArraySuffix (ofBareText bare).dimension ↔
      ArrayType bare := by
  simp only [ofBareText, ofName, ArraySuffix, String.toList_ofList, groups_filter_iff,
    squareFree_trim_iff]
  constructor
  · rintro ⟨free, groups⟩
    exact ⟨_, _, List.takeWhile_append_dropWhile.symm, free, groups⟩
  · rintro ⟨name, groups, rfl, free, made⟩
    have passed : ∀ c ∈ name, (c != '[') = true := fun c h => bne_iff_ne.mpr (free c h).1
    obtain ⟨blank, rest⟩ := made.split
    rw [List.takeWhile_append_of_pos passed, List.dropWhile_append_of_pos passed]
    refine ⟨fun c h => ?_, rest⟩
    rcases List.mem_append.mp h with h | h
    · exact free c h
    · exact square_of_isBlank (blank c h)

/-- Nothing stands behind the last of the groups. -/
theorem ArraySuffix.ends {dimension : String} (suffix : ArraySuffix dimension) :
    dimension = "" ∨ dimension.toList.getLast? = some ']' := by
  have ends {text : List Char} (groups : Groups (fun _ => false) text) :
      text = [] ∨ text.getLast? = some ']' := by
    induction groups with
    | nil => exact .inl rfl
    | skip never _ _ => cases never
    | @group inside rest _ _ ih =>
      refine .inr ?_
      rw [← List.cons_append, List.getLast?_append_cons]
      rcases ih with rfl | last
      · rfl
      · rw [List.getLast?_cons, last, Option.getD_some]
  exact (ends suffix).imp_left fun nothing => String.ext nothing

/-- In what is read, every name is free of square brackets and every suffix is made of groups exactly
if behind the name each text that names a type has groups and nothing else. -/
theorem arraySuffixes_iff {expression : String} {s : Signature}
    (read : parse expression = .ok s) :
    (∀ n ∈ s.nodes, SquareFree n.name.toList ∧ ArraySuffix n.dimension) ↔
      ∀ bare, Shows (splitEllipsis (trim expression.toList)).1 bare → ArrayType bare := by
  have any : SquareFree "?".toList ∧ ArraySuffix "" := ⟨by simp [SquareFree], .nil⟩
  have whole : (∀ n ∈ s.nodes, SquareFree n.name.toList ∧ ArraySuffix n.dimension) ↔ _ :=
    @throughout_parse_iff (fun name dimension => SquareFree name.toList ∧ ArraySuffix dimension)
      s any expression read
  simpa only [arrayType_iff] using whole

/-- Arrays in arguments and behind them. -/
theorem arraySuffixes_nested : ∃ s, parse "java.util.Map<T[], int[] []>[]..." = .ok s ∧
    ((∀ n ∈ s.nodes, SquareFree n.name.toList ∧ ArraySuffix n.dimension) ↔
      ∀ bare, Shows "java.util.Map<T[], int[] []>[]".toList bare → ArrayType bare) := by
  obtain ⟨s, read, _⟩ := exists_ok_of_any (x := parse "java.util.Map<T[], int[] []>[]...")
    (p := fun s => s.dimension == "[]") (by decide +kernel)
  exact ⟨s, read, arraySuffixes_iff read⟩

/-- Text behind the last group is accepted, and so is a group that is cut apart at an angle bracket. -/
theorem suffix_with_more :
    (∃ s, parse "int[]x" = .ok s ∧ ∃ n ∈ s.nodes, ¬ArraySuffix n.dimension) ∧
      ∃ s, parse "p.A<p.B[>]" = .ok s ∧ ∃ n ∈ s.nodes, ¬SquareFree n.name.toList := by
  constructor
  · obtain ⟨s, read, behind⟩ := exists_ok_of_any (x := parse "int[]x")
      (p := fun s => s.dimension == "[]x") (by decide +kernel)
    refine ⟨s, read, s, mem_nodes_self s, fun suffix => ?_⟩
    have ends := suffix.ends
    rw [eq_of_beq behind] at ends
    revert ends
    decide
  · obtain ⟨s, read, cut⟩ := exists_ok_of_any (x := parse "p.A<p.B[>]")
      (p := fun s => s.name.toList.contains ']') (by decide +kernel)
    exact ⟨s, read, s, mem_nodes_self s, fun free => (free ']' (by simpa using cut)).2 rfl⟩

end ApiCompat.Signature
