import ApiCompat.Proofs.Signature.Slices

/-! Where names and array suffixes come from. The arguments of an outer type are read and then dropped;
of the slices that are kept, each one without bounds gives the name and the suffix of one node, from
its text outside the groups. Nothing else in what is read has a name but wildcards, so a property
of names and suffixes holds at every depth exactly if it holds of all these texts. -/
namespace ApiCompat.Signature

open Text

/-- The slices of a text whose types are kept. -/
inductive Kept (text : List Char) : List Char → Prop where
  | bound {clause : BoundClause} {piece : List Char} : boundClause? (trim text) = some clause →
      piece ∈ splitTopLevel '&' clause.tail → Kept text piece
  | head {clause : BoundClause} : boundClause? (trim text) = some clause →
      clause.head ≠ ['?'] → Kept text clause.head
  | argument {inside piece lastPart : List Char} : boundClause? (trim text) = none →
      trim text ≠ ['?'] → (outline (trim text)).lastPart? = some lastPart →
      isBlankText (lastPart.takeWhile (· != '[')) = true →
      (outline (trim text)).insides.getLast? = some inside → piece ∈ splitTopLevel ',' inside →
      Kept text piece

/-- The text outside the groups of a slice that is kept. -/
inductive Shows : List Char → List Char → Prop where
  | own {text : List Char} : boundClause? (trim text) = none → trim text ≠ ['?'] →
      Shows text (outline (trim text)).bare
  | kept {text piece bare : List Char} : Kept text piece → Shows piece bare → Shows text bare

theorem Kept.slice {text piece : List Char} (kept : Kept text piece) : Slice text piece := by
  cases kept with
  | bound found h => exact .bound found h
  | head found other => exact .head found other
  | argument unbounded _ _ _ last h => exact .argument unbounded (List.mem_of_getLast? last) h

/-- Without bounds, the arguments of the innermost type are kept, if it has any. -/
theorem Kept.of_unbounded {text piece : List Char} (kept : Kept text piece)
    (unbounded : boundClause? (trim text) = none) : trim text ≠ ['?'] ∧ ∃ inside lastPart,
      (outline (trim text)).lastPart? = some lastPart ∧
      isBlankText (lastPart.takeWhile (· != '[')) = true ∧
      (outline (trim text)).insides.getLast? = some inside ∧ piece ∈ splitTopLevel ',' inside := by
  cases kept with
  | bound found _ => cases unbounded.symm.trans found
  | head found _ => cases unbounded.symm.trans found
  | argument _ other last own inside h => exact ⟨other, _, _, last, own, inside, h⟩

theorem Shows.plain {text bare : List Char} (shows : Shows text bare) (closes : Closes 0 text) :
    ∀ c ∈ bare, c ≠ '<' ∧ c ≠ '>' := by
  induction shows with
  | own _ _ => exact (outlines_outline _).plain_bare closes.trim
  | kept kept _ ih => exact ih (kept.slice.closes closes)

section Nodes

variable {good : String → String → Prop} {s : Signature}

/-- A property of the name and the array suffix, at every depth. -/
def Throughout (good : String → String → Prop) (s : Signature) : Prop :=
  ∀ n ∈ s.nodes, good n.name n.dimension

theorem throughout_iff : s.Throughout good ↔
    good s.name s.dimension ∧ ∀ t ∈ s.children, t.Throughout good := by
  rw [Throughout, nodes_eq, List.forall_mem_cons]
  simp only [List.mem_flatMap, forall_exists_index, and_imp]
  exact and_congr_right fun _ =>
    ⟨fun h t ht n hn => h n t ht hn, fun h n t ht hn => h t ht n hn⟩

theorem throughout_congr {t : Signature} (name : s.name = t.name)
    (dimension : s.dimension = t.dimension) (children : s.children = t.children) :
    s.Throughout good ↔ t.Throughout good := by
  rw [throughout_iff, throughout_iff (s := t), name, dimension, children]

@[simp] theorem throughout_markVariables (isVariable : String → Bool) :
    (s.markVariables isVariable).Throughout good ↔ s.Throughout good := by
  simp only [Throughout, nodes_markVariables, List.forall_mem_map, name_markVariables,
    dimension_markVariables]

@[simp] theorem throughout_markChildren (isVariable : String → Bool) :
    (s.markChildren isVariable).Throughout good ↔ s.Throughout good := by
  rw [throughout_iff, throughout_iff (s := s), children_markChildren, List.forall_mem_map]
  simp only [throughout_markVariables]
  rfl

theorem throughout_withBounds (side : BoundSide) {bounds : List Signature}
    (lower : s.superBounds = []) (upper : s.extendsBounds = []) :
    (s.withBounds side bounds).Throughout good ↔
      s.Throughout good ∧ ∀ b ∈ bounds, b.Throughout good := by
  rw [throughout_iff, throughout_iff (s := s)]
  cases side <;> simp [withBounds, children, lower, upper, or_imp, forall_and, and_assoc]

end Nodes

section Read

variable {good : String → String → Prop} {whole : String} {text : List Char} {s : Signature}

theorem forall_shows_iff {p : List Char → Prop} : (∀ bare, Shows text bare → p bare) ↔
    (boundClause? (trim text) = none → trim text ≠ ['?'] → p (outline (trim text)).bare) ∧
      ∀ piece, Kept text piece → ∀ bare, Shows piece bare → p bare := by
  constructor
  · intro all
    exact ⟨fun unbounded other => all _ (.own unbounded other),
      fun piece kept bare shows => all bare (.kept kept shows)⟩
  · rintro ⟨own, pieces⟩ bare shows
    cases shows with
    | own unbounded other => exact own unbounded other
    | kept kept shows => exact pieces _ kept bare shows

/-- With bounds, the slices that are kept are the bounds and what they are the bounds of. -/
theorem forall_kept_of_bounded {p : List Char → Prop} {clause : BoundClause}
    (found : boundClause? (trim text) = some clause) : (∀ piece, Kept text piece → p piece) ↔
      (clause.head ≠ ['?'] → p clause.head) ∧ ∀ piece ∈ splitTopLevel '&' clause.tail, p piece := by
  constructor
  · intro all
    exact ⟨fun other => all _ (.head found other), fun piece h => all piece (.bound found h)⟩
  · rintro ⟨head, bounds⟩ piece kept
    cases kept with
    | bound again h =>
      cases found.symm.trans again
      exact bounds piece h
    | head again other =>
      cases found.symm.trans again
      exact head other
    | argument unbounded _ _ _ _ _ => cases found.symm.trans unbounded

/-- Without bounds, they are the arguments of the innermost type. -/
theorem forall_kept_of_named {p : List Char → Prop} {groups : List (List Signature)}
    {lastPart : List Char} (unbounded : boundClause? (trim text) = none) (other : trim text ≠ ['?'])
    (read : (outline (trim text)).insides.mapM (fun inside =>
      (splitTopLevel ',' inside).mapM (readType whole)) = .ok groups)
    (last : (outline (trim text)).lastPart? = some lastPart)
    (each : ∀ piece, Kept text piece → ∀ a, readType whole piece = .ok a →
      (a.Throughout good ↔ p piece)) :
    (∀ a ∈ if isBlankText (lastPart.takeWhile (· != '[')) then groups.getLastD [] else [],
      a.Throughout good) ↔ ∀ piece, Kept text piece → p piece := by
  split_ifs with own
  · rcases getLast?_of_mapM read with ⟨none, rfl⟩ | ⟨inside, group, hinside, hgroup, read⟩
    · refine iff_of_true (fun a ha => by cases ha) fun piece kept => ?_
      obtain ⟨_, inside, _, _, _, hinside, _⟩ := kept.of_unbounded unbounded
      rw [none] at hinside
      cases hinside
    · have inner : ∀ piece ∈ splitTopLevel ',' inside, Kept text piece :=
        fun piece h => .argument unbounded other last own hinside h
      rw [List.getLastD_eq_getLast?, hgroup, Option.getD_some,
        forall_mem_iff_of_mapM read fun piece h => each piece (inner piece h)]
      refine ⟨fun all piece kept => ?_, fun all piece h => all piece (inner piece h)⟩
      obtain ⟨_, _, _, _, _, again, h⟩ := kept.of_unbounded unbounded
      cases hinside.symm.trans again
      exact all piece h
  · refine iff_of_true (fun a ha => by cases ha) fun piece kept => ?_
    obtain ⟨_, _, _, again, owned, _, _⟩ := kept.of_unbounded unbounded
    cases last.symm.trans again
    exact absurd owned own

/-- A property of names and suffixes holds throughout exactly if it holds of all that is shown. -/
theorem throughout_iff_shows (any : good "?" "") (read : readType whole text = .ok s) :
    s.Throughout good ↔ ∀ bare, Shows text bare →
      good (ofBareText bare).name (ofBareText bare).dimension := by
  have ofAny : anyType.Throughout good := by
    rw [throughout_iff]
    exact ⟨any, fun t h => by cases h⟩
  induction text using Slice.induct generalizing s with
  | step text ih =>
    have each (piece : List Char) (kept : Kept text piece) (a : Signature)
        (read : readType whole piece = .ok a) := ih piece kept.slice read
    rw [forall_shows_iff]
    cases reading_of_readType read with
    | any unbounded isAny =>
      refine iff_of_true ofAny ⟨fun _ other => absurd isAny other, fun piece kept => ?_⟩
      exact absurd isAny (kept.of_unbounded unbounded).1
    | wildcard found _ isAny bounds =>
      have inside := forall_mem_iff_of_mapM bounds fun piece h => each piece (.bound found h)
      rw [forall_kept_of_bounded found, throughout_withBounds _ rfl rfl, inside]
      simp [ofAny, isAny, found]
    | @declared clause bounds declared found _ other hbounds head =>
      have inside := forall_mem_iff_of_mapM hbounds fun piece h => each piece (.bound found h)
      obtain ⟨lower, upper⟩ := bounds_of_head found head
      have renamed : ({ declared with kind := .typeVariable } : Signature).Throughout good ↔
          declared.Throughout good := throughout_congr rfl rfl rfl
      have split := @throughout_withBounds good { declared with kind := .typeVariable } clause.side
        (markVariablesAll (· == declared.name) bounds) lower upper
      have before : declared.Throughout good ↔ _ := each _ (.head found other) declared head
      rw [forall_kept_of_bounded found, split, renamed, before, markVariablesAll_eq_map,
        List.forall_mem_map]
      simp only [throughout_markVariables, inside]
      simp [found, other]
    | named unbounded other groups last =>
      have inside := forall_kept_of_named unbounded other groups last each
      rw [throughout_iff, ← inside]
      simp [children, ofBareText, ofName, unbounded, other]

/-- The ellipsis is no part of what an expression shows. -/
theorem throughout_parse_iff (any : good "?" "") {expression : String}
    (read : parse expression = .ok s) : s.Throughout good ↔
      ∀ bare, Shows (splitEllipsis (trim expression.toList)).1 bare →
        good (ofBareText bare).name (ofBareText bare).dimension := by
  obtain ⟨_, t, varargs, ht, rfl⟩ := exists_readType_of_parse read
  rw [← throughout_iff_shows any ht]
  exact throughout_congr rfl rfl rfl

end Read

end ApiCompat.Signature
