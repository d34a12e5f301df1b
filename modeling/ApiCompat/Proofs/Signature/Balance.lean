import ApiCompat.Proofs.Signature.Shown

/-! Which expressions are refused as unbalanced. The check at the start counts the brackets of the whole
expression, and every slice that is read later has its angle brackets closed again. So the check
alone decides, and no name or array suffix in what is read has an angle bracket. -/
namespace ApiCompat.Signature

open Text
open Relation (ReflTransGen)

def AngleFree (text : String) : Prop := ∀ c ∈ text.toList, c ≠ '<' ∧ c ≠ '>'

theorem mem_of_mem_ofBareText {bare : List Char} {c : Char} :
    (c ∈ (ofBareText bare).name.toList → c ∈ bare) ∧
      (c ∈ (ofBareText bare).dimension.toList → c ∈ bare) := by
  simp only [ofBareText, ofName, String.toList_ofList]
  constructor
  · exact fun h => List.takeWhile_subset _ (mem_of_mem_trim h)
  · exact fun h => List.dropWhile_subset _ (List.mem_of_mem_filter h)

theorem mem_of_mem_simpleName {s : Signature} {c : Char} (h : c ∈ s.simpleName.toList) :
    c ∈ s.name.toList := by
  rw [simpleName, String.toList_ofList, List.mem_reverse] at h
  exact List.mem_reverse.mp (List.takeWhile_subset _ h)

/-- No bracket comes into a name or an array suffix from a text whose brackets close. -/
theorem Shows.angleFree {text bare : List Char} (shows : Shows text bare) (closes : Closes 0 text) :
    AngleFree (ofBareText bare).name ∧ AngleFree (ofBareText bare).dimension :=
  ⟨fun c h => shows.plain closes c (mem_of_mem_ofBareText.1 h),
    fun c h => shows.plain closes c (mem_of_mem_ofBareText.2 h)⟩

theorem angleFree_any : AngleFree "?" ∧ AngleFree "" := by simp [AngleFree]

theorem closes_splitEllipsis {text : List Char} (closes : Closes 0 text) :
    Closes 0 (splitEllipsis text).1 := by
  unfold splitEllipsis
  split
  · rename_i rest dots
    have same : text = rest.reverse ++ ['.', '.', '.'] := by
      simpa using congrArg List.reverse dots
    obtain ⟨trail, ends, blank⟩ := exists_trimEnd rest.reverse
    rw [same, ends, List.append_assoc] at closes
    refine closes.strip fun c h => ?_
    rcases List.mem_append.mp h with h | h
    · exact angle_of_isBlank (blank c h)
    · simp only [List.mem_cons, List.not_mem_nil, or_false, or_self] at h
      subst h
      decide
  · exact closes

section Expressions

variable {expression shown : String}

/-- An expression is refused as unbalanced by the check at the start or when it is read. -/
theorem parse_unbalanced_cases (refused : parse expression = .error (.unbalanced shown)) :
    trim expression.toList ≠ [] ∧
      (¬Paired (trim expression.toList) ∧ shown = String.ofList (trim expression.toList) ∨
        Paired (trim expression.toList) ∧ readType expression
          (splitEllipsis (trim expression.toList)).1 = .error (.unbalanced shown)) := by
  unfold parse at refused
  dsimp only at refused
  split at refused
  · cases refused
  rename_i some
  refine ⟨some, ?_⟩
  rw [← balanced_iff]
  split at refused
  · rename_i unbalanced
    cases refused
    exact .inl ⟨by simp [unbalanced], rfl⟩
  · rename_i balance
    rcases error_of_bind refused with refused | ⟨_, _, refused⟩
    · exact .inr ⟨Bool.not_eq_false _ |>.mp balance, refused⟩
    · cases refused

theorem parse_of_unpaired (some : trim expression.toList ≠ [])
    (unpaired : ¬Paired (trim expression.toList)) :
    parse expression = .error (.unbalanced (String.ofList (trim expression.toList))) := by
  have unbalanced : balanced (trim expression.toList) = false := by
    rw [← Bool.not_eq_true, balanced_iff]
    exact unpaired
  simp only [parse, if_neg some, unbalanced, if_true]

/-- In every slice of a text whose brackets pair up, every group is closed. -/
theorem lastPart?_ne_none_of_paired {text part : List Char} (paired : Paired text)
    (slices : ReflTransGen Slice (splitEllipsis text).1 part) :
    (outline (trim part)).lastPart? ≠ none := by
  intro stays
  have shut := (closes_of_slices (closes_splitEllipsis paired.angles) slices).trim.depth_eq
  exact (outlines_outline _).lastPart?_eq_none_iff.mp stays shut

theorem angleFree_of_parse {s : Signature} (read : parse expression = .ok s) :
    s.Throughout fun name dimension => AngleFree name ∧ AngleFree dimension := by
  have paired := (balanced_iff _).mp (exists_readType_of_parse read).1
  have closes := closes_splitEllipsis paired.angles
  exact (throughout_parse_iff angleFree_any read).mpr fun _ shows => shows.angleFree closes

end Expressions

/-- Exactly the expressions whose brackets do not pair up are refused as unbalanced, and they are
shown without the blanks around them. For the others every group of every slice is closed, and no
name, simple name or array suffix in what is read has an angle bracket. -/
theorem parse_unbalanced_iff (expression : String) :
    (∀ shown, parse expression = .error (.unbalanced shown) ↔
      trim expression.toList ≠ [] ∧ ¬Paired (trim expression.toList) ∧
        shown = String.ofList (trim expression.toList)) ∧
    (Paired (trim expression.toList) → ∀ part,
      ReflTransGen Slice (splitEllipsis (trim expression.toList)).1 part →
        (outline (trim part)).lastPart? ≠ none) ∧
    ∀ s, parse expression = .ok s → ∀ n ∈ s.nodes,
      AngleFree n.name ∧ AngleFree n.simpleName ∧ AngleFree n.dimension := by
  refine ⟨fun shown => ⟨fun refused => ?_, ?_⟩, ?_, fun s read n hn => ?_⟩
  · obtain ⟨some, ⟨unpaired, rfl⟩ | ⟨paired, later⟩⟩ := parse_unbalanced_cases refused
    · exact ⟨some, unpaired, rfl⟩
    · obtain ⟨part, slices, stays⟩ := exists_slice_of_unbalanced later
      exact absurd stays (lastPart?_ne_none_of_paired paired slices)
  · rintro ⟨some, unpaired, rfl⟩
    exact parse_of_unpaired some unpaired
  · exact fun paired part slices => lastPart?_ne_none_of_paired paired slices
  · obtain ⟨name, dimension⟩ := angleFree_of_parse read n hn
    exact ⟨name, fun c h => name c (mem_of_mem_simpleName h), dimension⟩

/-- A bracket that is closed before it is opened, and brackets of the two kinds that interleave. -/
theorem parse_unbalanced_crossed :
    parse " p.A>.B< " = .error (.unbalanced "p.A>.B<") ∧
      Paired (trim "p.Outer<A[>].Inner<? super B>".toList) ∧
      ∃ s, parse "p.Outer<A[>].Inner<? super B>" = .ok s ∧ ∀ n ∈ s.nodes,
        AngleFree n.name ∧ AngleFree n.simpleName ∧ AngleFree n.dimension := by
  have crossed : Paired (trim "p.Outer<A[>].Inner<? super B>".toList) :=
    (balanced_iff _).mp (by decide +kernel)
  refine ⟨?_, crossed, ?_⟩
  · have unpaired : ¬Paired (trim " p.A>.B< ".toList) := by
      rw [← balanced_iff]
      decide +kernel
    exact ((parse_unbalanced_iff " p.A>.B< ").1 _).mpr ⟨by decide +kernel, unpaired, rfl⟩
  · obtain ⟨s, read, _⟩ := exists_ok_of_any (x := parse "p.Outer<A[>].Inner<? super B>")
      (p := fun s => s.arguments.length == 1) (by decide +kernel)
    exact ⟨s, read, (parse_unbalanced_iff _).2.2 s read⟩

end ApiCompat.Signature
