import ApiCompat.Proofs.Signature.Reading
import ApiCompat.Proofs.Signature.Nodes
import ApiCompat.Proofs.Text.Scanning
import Mathlib.Logic.Relation

/-! The slices that a text is read in. A text with bounds is cut before and behind the keyword and
at the ampersands, any other text into its groups and these at the commas; each slice is read on
its own. Cuts are made at depth zero only, so the angle brackets of a slice close if those of
the text do, and a text with a bracket that stays open has such a slice and is refused. -/
namespace ApiCompat.Signature

open Text
open Relation (ReflTransGen)

section Clauses

variable {text : List Char}

/-- A word is at the end of the text, or has a blank behind it. -/
theorem eq_of_afterWord? {word tail : List Char} (found : afterWord? word text = some tail) :
    ∃ blank, text = word ++ (blank ++ tail) ∧ (blank = [' '] ∨ blank = [] ∧ tail = []) := by
  unfold afterWord? at found
  split_ifs at found with starts
  have same : text = word ++ text.drop word.length := by
    obtain ⟨rest, rfl⟩ := List.isPrefixOf_iff_prefix.mp starts
    rw [List.drop_left]
  split at found
  · rename_i ends
    cases found
    rw [ends] at same
    exact ⟨[], same, .inr ⟨rfl, rfl⟩⟩
  · rename_i rest behind
    cases found
    rw [behind] at same
    exact ⟨[' '], same, .inl rfl⟩
  · cases found

theorem eq_of_boundsAhead? {side : BoundSide} {tail : List Char}
    (found : boundsAhead? text = some (side, tail)) : ∃ blank,
      text = side.keyword.toList ++ (blank ++ tail) ∧ (blank = [' '] ∨ blank = [] ∧ tail = []) := by
  unfold boundsAhead? at found
  split at found
  · rename_i ahead
    cases found
    exact eq_of_afterWord? ahead
  · obtain ⟨_, ahead, same⟩ := Option.map_eq_some_iff.mp found
    cases same
    exact eq_of_afterWord? ahead

/-- The clause begins at the first blank outside every bracket that has a keyword behind it. -/
theorem eq_of_boundClauseFrom {depth : Nat} {before : List Char} {clause : BoundClause}
    (found : boundClauseFrom depth before text = some clause) : ∃ front back,
      text = front ++ ' ' :: back ∧ depthOf depth front = 0 ∧
      boundsAhead? back = some (clause.side, clause.tail) ∧
      clause.head = trim (before.reverse ++ front) ∧
      ∀ earlier more, text = earlier ++ ' ' :: more → earlier.length < front.length →
        depthOf depth earlier = 0 → boundsAhead? more = none := by
  induction text generalizing depth before with
  | nil => cases found
  | cons c rest ih =>
    rw [boundClauseFrom] at found
    split at found
    · rename_i side tail ahead
      split_ifs at ahead with here
      obtain ⟨rfl, outside⟩ := here
      cases found
      refine ⟨[], rest, rfl, outside, ahead, by simp, fun earlier more _ shorter _ => ?_⟩
      exact absurd shorter (Nat.not_lt_zero _)
    · rename_i nowhere
      obtain ⟨front, back, rfl, outside, ahead, head, first⟩ := ih found
      refine ⟨c :: front, back, rfl, outside, ahead, by simp [head], ?_⟩
      intro earlier more same shorter shut
      cases earlier with
      | nil =>
        obtain ⟨rfl, rfl⟩ := List.cons.inj same
        simpa [show depth = 0 from shut] using nowhere
      | cons d earlier =>
        obtain ⟨rfl, behind⟩ := List.cons.inj same
        exact first earlier more behind (Nat.lt_of_succ_lt_succ shorter) shut

variable {clause : BoundClause}

theorem plain_keyword (side : BoundSide) :
    ∀ c ∈ ' ' :: (side.keyword.toList ++ [' ']), c ≠ '<' ∧ c ≠ '>' := by
  cases side <;> simp [BoundSide.keyword]

theorem exists_cut_of_boundClause? (found : boundClause? text = some clause) :
    ∃ front keyword, text = front ++ (keyword ++ clause.tail) ∧ clause.head = trim front ∧
      depthOf 0 front = 0 ∧ ∀ c ∈ keyword, c ≠ '<' ∧ c ≠ '>' := by
  obtain ⟨front, back, rfl, outside, ahead, head, _⟩ := eq_of_boundClauseFrom found
  obtain ⟨blank, rfl, ends⟩ := eq_of_boundsAhead? ahead
  refine ⟨front, ' ' :: (clause.side.keyword.toList ++ blank), by simp, head, outside, ?_⟩
  intro c h
  refine plain_keyword clause.side c ?_
  rcases ends with rfl | ⟨rfl, _⟩
  · exact h
  · simp only [List.append_nil, List.mem_cons, List.mem_append] at h ⊢
    exact h.imp_right .inl

theorem closes_of_boundClause? (found : boundClause? text = some clause) (closes : Closes 0 text) :
    Closes 0 clause.head ∧ Closes 0 clause.tail := by
  obtain ⟨front, keyword, rfl, head, outside, plain⟩ := exists_cut_of_boundClause? found
  obtain ⟨start, more⟩ := closes.cut_at outside
  exact ⟨head ▸ start.trim, (more.cut_at (depthOf_plain 0 plain)).2⟩

theorem depthOf_tail (found : boundClause? text = some clause) :
    depthOf 0 clause.tail = depthOf 0 text := by
  obtain ⟨front, keyword, rfl, _, outside, plain⟩ := exists_cut_of_boundClause? found
  rw [depthOf_append, depthOf_append, outside, depthOf_plain 0 plain]

/-- What stands before the first keyword has no bounds of its own. -/
theorem tail_eq_nil_of_head (found : boundClause? text = some clause) {inner : BoundClause}
    (again : boundClause? (trim clause.head) = some inner) : inner.tail = [] := by
  obtain ⟨front, back, rfl, _, _, head, first⟩ := eq_of_boundClauseFrom found
  obtain ⟨part, more, same, shut, ahead, _, _⟩ := eq_of_boundClauseFrom again
  obtain ⟨lead, trail, outer, blank, _⟩ := exists_trim front
  obtain ⟨lead', trail', within, blank', _⟩ := exists_trim clause.head
  obtain ⟨gap, rfl, rfl | ⟨_, ends⟩⟩ := eq_of_boundsAhead? ahead
  · -- A keyword with a blank behind it would have been found in the whole text, and earlier.
    have place : front = lead ++ lead' ++ part ++
        ' ' :: (inner.side.keyword.toList ++ ' ' :: (inner.tail ++ trail' ++ trail)) := by
      have inside : clause.head = trim front := head
      rw [outer, ← inside, within, same]
      simp
    have plain : ∀ c ∈ lead ++ lead', c ≠ '<' ∧ c ≠ '>' := by
      intro c h
      rcases List.mem_append.mp h with h | h
      · exact angle_of_isBlank (blank c h)
      · exact angle_of_isBlank (blank' c h)
    have missed := first (lead ++ lead' ++ part)
      (inner.side.keyword.toList ++ ' ' :: (inner.tail ++ trail' ++ trail ++ ' ' :: back))
      (by rw [place]; simp) (by rw [place]; simp)
      (by rw [depthOf_append, depthOf_plain 0 plain]; exact shut)
    rw [boundsAhead?_keyword] at missed
    cases missed
  · exact ends

end Clauses

/-- The slices that a text is cut into when it is read. -/
inductive Slice (text : List Char) : List Char → Prop where
  | bound {clause : BoundClause} {piece : List Char} : boundClause? (trim text) = some clause →
      piece ∈ splitTopLevel '&' clause.tail → Slice text piece
  | head {clause : BoundClause} : boundClause? (trim text) = some clause →
      clause.head ≠ ['?'] → Slice text clause.head
  | argument {inside piece : List Char} : boundClause? (trim text) = none →
      inside ∈ (outline (trim text)).insides → piece ∈ splitTopLevel ',' inside → Slice text piece

namespace Slice

variable {text piece : List Char}

theorem length_lt (slice : Slice text piece) : piece.length < text.length := by
  have := length_trim_le text
  cases slice with
  | bound clause h =>
    have := length_le_of_mem_splitTopLevel h
    have := (length_boundClause? clause).2
    omega
  | head clause _ =>
    have := (length_boundClause? clause).1
    omega
  | argument _ inside h =>
    have := length_le_of_mem_splitTopLevel h
    have := length_lt_of_mem_insides inside
    omega

theorem closes (slice : Slice text piece) (whole : Closes 0 text) : Closes 0 piece := by
  have body := whole.trim
  cases slice with
  | bound clause h =>
    have tail := (closes_of_boundClause? clause body).2
    exact (pieces_splitTopLevel '&' _).closes (by decide) tail piece h
  | head clause _ => exact (closes_of_boundClause? clause body).1
  | argument _ inside h =>
    have group := (outlines_outline _).closes_of_mem_insides inside
    exact (pieces_splitTopLevel ',' _).closes (by decide) group piece h

/-- What holds of a text whenever it holds of its slices holds of every text. -/
theorem induct {motive : List Char → Prop}
    (step : ∀ text, (∀ piece, Slice text piece → motive piece) → motive text) (text : List Char) :
    motive text :=
  step text fun piece _ => induct step piece
termination_by text.length
decreasing_by exact length_lt ‹_›

end Slice

theorem closes_of_slices {text part : List Char} (whole : Closes 0 text)
    (slices : ReflTransGen Slice text part) : Closes 0 part := by
  induction slices with
  | refl => exact whole
  | tail _ slice ih => exact slice.closes ih

section Read

variable {whole : String} {text : List Char} {s : Signature}

/-- The ways in which a type is read, each with the readings of its slices. -/
inductive Reading (whole : String) (text : List Char) : Signature → Prop where
  | any : boundClause? (trim text) = none → trim text = ['?'] → Reading whole text anyType
  | wildcard {clause : BoundClause} {bounds : List Signature} :
      boundClause? (trim text) = some clause → isBlankText clause.tail = false →
      clause.head = ['?'] →
      (splitTopLevel '&' clause.tail).mapM (readType whole) = .ok bounds →
      Reading whole text (anyType.withBounds clause.side bounds)
  | declared {clause : BoundClause} {bounds : List Signature} {head : Signature} :
      boundClause? (trim text) = some clause → isBlankText clause.tail = false →
      clause.head ≠ ['?'] →
      (splitTopLevel '&' clause.tail).mapM (readType whole) = .ok bounds →
      readType whole clause.head = .ok head →
      Reading whole text ({ head with kind := .typeVariable }.withBounds clause.side
        (markVariablesAll (· == head.name) bounds))
  | named {groups : List (List Signature)} {lastPart : List Char} :
      boundClause? (trim text) = none → trim text ≠ ['?'] →
      (outline (trim text)).insides.mapM (fun inside =>
        (splitTopLevel ',' inside).mapM (readType whole)) = .ok groups →
      (outline (trim text)).lastPart? = some lastPart →
      Reading whole text { ofBareText (outline (trim text)).bare with
        arguments :=
          if isBlankText (lastPart.takeWhile (· != '[')) then groups.getLastD [] else [] }

theorem reading_of_readType (read : readType whole text = .ok s) : Reading whole text s := by
  rw [readType] at read
  simp only [List.mapM_subtype, List.unattach_attach] at read
  split at read
  · cases read
  split at read
  · rename_i clause found
    split at read
    · cases read
    rename_i filled
    have filled := Bool.eq_false_iff.mpr filled
    obtain ⟨bounds, hbounds, read⟩ := ok_of_bind read
    split at read
    · rename_i any
      cases read
      exact .wildcard found filled any hbounds
    · rename_i other
      obtain ⟨head, hhead, read⟩ := ok_of_bind read
      cases read
      exact .declared found filled other hbounds hhead
  · rename_i unbounded
    split at read
    · rename_i any
      cases read
      exact .any unbounded any
    · rename_i other
      obtain ⟨groups, hgroups, read⟩ := ok_of_bind read
      split at read
      · cases read
      · rename_i lastPart last
        split at read
        · cases read
        · cases read
          exact .named unbounded other hgroups last

/-- A text that is refused as unbalanced has a slice with a bracket that stays open. -/
theorem exists_slice_of_unbalanced {shown : String}
    (refused : readType whole text = .error (.unbalanced shown)) :
    ∃ part, ReflTransGen Slice text part ∧ (outline (trim part)).lastPart? = none := by
  induction text using Slice.induct with
  | step text ih =>
    have deeper {piece : List Char} (slice : Slice text piece)
        (refused : readType whole piece = .error (.unbalanced shown)) :
        ∃ part, ReflTransGen Slice text part ∧ (outline (trim part)).lastPart? = none := by
      obtain ⟨part, slices, stays⟩ := ih piece slice refused
      exact ⟨part, .head slice slices, stays⟩
    rw [readType] at refused
    simp only [List.mapM_subtype, List.unattach_attach] at refused
    split at refused
    · cases refused
    split at refused
    · rename_i clause found
      split at refused
      · cases refused
      rcases error_of_bind refused with bounds | ⟨bounds, _, refused⟩
      · obtain ⟨piece, hpiece, refused⟩ := exists_error_of_mapM bounds
        exact deeper (.bound found hpiece) refused
      split at refused
      · cases refused
      · rename_i other
        rcases error_of_bind refused with head | ⟨_, _, refused⟩
        · exact deeper (.head found other) head
        · cases refused
    · rename_i unbounded
      split at refused
      · cases refused
      rcases error_of_bind refused with groups | ⟨_, _, refused⟩
      · obtain ⟨inside, hinside, refused⟩ := exists_error_of_mapM groups
        obtain ⟨piece, hpiece, refused⟩ := exists_error_of_mapM refused
        exact deeper (.argument unbounded hinside hpiece) refused
      split at refused
      · rename_i stays
        exact ⟨text, .refl, stays⟩
      · split at refused <;> cases refused

/-- What is declared with bounds has no other bounds. -/
theorem bounds_of_head {clause : BoundClause} (found : boundClause? (trim text) = some clause)
    (read : readType whole clause.head = .ok s) : s.superBounds = [] ∧ s.extendsBounds = [] := by
  have nothing {inner : BoundClause} (again : boundClause? (trim clause.head) = some inner)
      (filled : isBlankText inner.tail = false) : False := by
    rw [tail_eq_nil_of_head found again] at filled
    cases filled
  cases reading_of_readType read with
  | any _ _ => exact ⟨rfl, rfl⟩
  | wildcard again filled _ _ => exact (nothing again filled).elim
  | declared again filled _ _ _ => exact (nothing again filled).elim
  | named _ _ _ _ => exact ⟨rfl, rfl⟩

/-- Whatever is read leaves no bracket open. -/
theorem depthOf_of_readType (read : readType whole text = .ok s) : depthOf 0 text = 0 := by
  induction text using Slice.induct generalizing s with
  | step text ih =>
    have bounded {clause : BoundClause} {bounds : List Signature}
        (found : boundClause? (trim text) = some clause)
        (read : (splitTopLevel '&' clause.tail).mapM (readType whole) = .ok bounds) :
        depthOf 0 (trim text) = 0 := by
      obtain ⟨piece, hpiece, same⟩ :=
        (pieces_splitTopLevel '&' clause.tail).exists_depthOf (by decide)
      obtain ⟨_, _, hread⟩ := exists_mem_of_mapM read hpiece
      rw [← depthOf_tail found, ← same]
      exact ih piece (.bound found hpiece) hread
    rw [← depthOf_trim]
    cases reading_of_readType read with
    | any _ isAny => rw [isAny]; rfl
    | wildcard found _ _ bounds => exact bounded found bounds
    | declared found _ _ bounds _ => exact bounded found bounds
    | named _ _ _ last =>
      by_contra stays
      rw [(outlines_outline _).lastPart?_eq_none_iff.mpr stays] at last
      cases last

end Read

end ApiCompat.Signature
