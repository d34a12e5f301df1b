import ApiCompat.Proofs.Signature.Balance
import ApiCompat.Proofs.Snapshot.Mentions
import ApiCompat.Proofs.Snapshot.Resolution
import ApiCompat.Proofs.Text.Outside

/-! The names by which classes are linked. A supertype or a thrown type is known by the text of its
expression outside every bracket, taken by one scan; the type of a member is known by the name that
is put together when the expression is read group by group. Where the brackets close, the scan
leaves what stands before, between and behind the groups, so both are the same name. -/
namespace ApiCompat

open Text

namespace Signature

variable {whole expression : String} {text : List Char} {s : Signature}

theorem withBounds_bounded {side : BoundSide} {bounds : List Signature} (some : bounds ≠ [])
    (head : Signature) : ¬((head.withBounds side bounds).superBounds = [] ∧
      (head.withBounds side bounds).extendsBounds = []) := by
  cases side with
  | upper => exact fun none => some none.2
  | lower => exact fun none => some none.1

theorem name_ofBareText {bare : List Char} (plain : (ofBareText bare).dimension = "") :
    (ofBareText bare).name = String.ofList (trim bare) := by
  have shown : (bare.dropWhile (· != '[')).filter (fun c => !isBlank c) = [] := by
    rw [← String.ofList_inj]
    exact plain
  have nothing : bare.dropWhile (· != '[') = [] := by
    have first := List.head?_dropWhile_not (· != '[') bare
    cases suffix : bare.dropWhile (· != '[') with
    | nil => rfl
    | cons c rest =>
      rw [suffix] at first shown
      obtain rfl : c = '[' := by simpa using first
      simp [show isBlank '[' = false by decide] at shown
  have all : bare.takeWhile (· != '[') = bare := by
    have := List.takeWhile_append_dropWhile (p := (· != '[')) (l := bare)
    rwa [nothing, List.append_nil] at this
  simp only [ofBareText, ofName, all]

/-- Without bounds and suffix, a type has for its name what stands outside the brackets. -/
theorem name_of_readType (read : readType whole text = .ok s) (closes : Closes 0 text)
    (lower : s.superBounds = []) (upper : s.extendsBounds = []) (plain : s.dimension = "") :
    s.name = String.ofList (trim (outsideBrackets 0 text)) := by
  rw [← trim_outsideBrackets_trim text]
  cases reading_of_readType read with
  | any _ isAny =>
    rw [isAny]
    rfl
  | wildcard _ _ _ bounds =>
    exact absurd ⟨lower, upper⟩ (withBounds_bounded (bounds_ne_nil_of_pieces bounds) _)
  | @declared _ found head _ _ _ bounds _ =>
    have marked : markVariablesAll (· == head.name) found ≠ [] := by
      rw [markVariablesAll_eq_map]
      exact mt List.map_eq_nil_iff.mp (bounds_ne_nil_of_pieces bounds)
    exact absurd ⟨lower, upper⟩ (withBounds_bounded marked _)
  | named _ _ _ _ =>
    rw [outsideBrackets_eq_bare (outlines_outline _) closes.trim]
    exact name_ofBareText plain

theorem varargs_of_parse (read : parse expression = .ok s) :
    s.varargs = (splitEllipsis (trim expression.toList)).2 := by
  unfold parse at read
  dsimp only at read
  split at read
  · cases read
  split at read
  · cases read
  · obtain ⟨t, _, read⟩ := ok_of_bind read
    cases read
    rfl

theorem splitEllipsis_of_plain (plain : (splitEllipsis text).2 = false) :
    (splitEllipsis text).1 = text := by
  unfold splitEllipsis at plain ⊢
  split at plain
  · cases plain
  · rfl

end Signature

/-- The name that a supertype or a thrown type is known by is the name of the type that the same
expression is read as, if that has neither bounds, nor an array suffix, nor an ellipsis. So the
expression is linked to the same class in either place. -/
theorem eraseArguments_of_parse {expression : String} {s : Signature}
    (read : Signature.parse expression = .ok s) (upper : s.extendsBounds = [])
    (lower : s.superBounds = []) (plain : s.dimension = "") (single : s.varargs = false) :
    eraseArguments expression = s.name ∧
      ∀ find : String → Option ClassId, s.kind = .classType →
        ((ClassRef.named (eraseArguments expression)).link find).id? = (s.link find).linked := by
  have same : eraseArguments expression = s.name := by
    have ellipsis := Signature.varargs_of_parse read
    obtain ⟨balance, t, varargs, ht, rfl⟩ := Signature.exists_readType_of_parse read
    have closes := ((balanced_iff _).mp balance).angles
    rw [Signature.splitEllipsis_of_plain (ellipsis ▸ single)] at ht
    rw [eraseArguments, ← trim_outsideBrackets_trim]
    exact (Signature.name_of_readType ht closes lower upper plain).symm
  have unlinked : s.linked = none := by
    cases link : s.linked with
    | none => rfl
    | some id => exact ((@Signature.linksIn_parse (fun _ => False) _ _ read).own link).elim
  refine ⟨same, fun find kind => ?_⟩
  rw [Signature.linked_link, if_pos ⟨kind, unlinked⟩, same, ClassRef.link]
  cases find s.name <;> rfl

/-- A member of a generic class, with groups inside groups and blanks around the whole. -/
theorem eraseArguments_of_generic_member :
    ∃ s, Signature.parse " p.Outer<K, q.List<? super K[]>>.Inner<V>\t" = .ok s ∧
      s.extendsBounds = [] ∧ s.superBounds = [] ∧ s.dimension = "" ∧ s.varargs = false ∧
      s.kind = .classType ∧ s.name = "p.Outer.Inner" ∧
      eraseArguments " p.Outer<K, q.List<? super K[]>>.Inner<V>\t" = s.name ∧
      ((ClassRef.named (eraseArguments " p.Outer<K, q.List<? super K[]>>.Inner<V>\t")).link
        fun name => if name = "p.Outer.Inner" then some 3 else none).id? =
      (s.link fun name => if name = "p.Outer.Inner" then some 3 else none).linked := by
  obtain ⟨s, read, shape⟩ := exists_ok_of_any
    (x := Signature.parse " p.Outer<K, q.List<? super K[]>>.Inner<V>\t")
    (p := fun s => s.extendsBounds.isEmpty && s.superBounds.isEmpty && s.dimension == "" &&
      !s.varargs && s.kind == .classType && s.name == "p.Outer.Inner") (by decide +kernel)
  simp only [Bool.and_eq_true, List.isEmpty_iff, beq_iff_eq, Bool.not_eq_true'] at shape
  obtain ⟨⟨⟨⟨⟨upper, lower⟩, plain⟩, single⟩, kind⟩, name⟩ := shape
  obtain ⟨same, links⟩ := eraseArguments_of_parse read upper lower plain single
  exact ⟨s, read, upper, lower, plain, single, kind, name, same, links _ kind⟩

end ApiCompat
