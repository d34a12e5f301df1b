import ApiCompat.Markup.Entity
import ApiCompat.Proofs.Text.Brackets
import ApiCompat.Proofs.Text.Scanning

/-! Scans that keep offsets. Such a scan goes over a text once and knows how many bytes it has passed;
what it finds it cuts out of the text between two offsets. A cut inside a character is no cut, so that
the offsets have to be right. They are: the scans by offset find the pieces and the groups that the
scans over characters find. Where angle brackets close, separators are left in a piece only inside
brackets, and each bracket has a group, at whose end the count is back for the first time. -/
namespace ApiCompat.Text

open Markup (byteLength)

/-- A text cut behind a number of bytes, unless a character would be cut. -/
def cutAt? : Nat → List Char → Option (List Char × List Char)
  | 0, text => some ([], text)
  | _ + 1, [] => none
  | n + 1, c :: rest =>
    if c.utf8Size ≤ n + 1 then
      (cutAt? (n + 1 - c.utf8Size) rest).map fun parts => (c :: parts.1, parts.2)
    else none

def slice? (start stop : Nat) (text : List Char) : Option (List Char) :=
  if start ≤ stop then
    (cutAt? start text).bind fun parts => (cutAt? (stop - start) parts.2).map (·.1)
  else none

/-- The characters of a text with their offsets, from a first offset on. -/
def charOffsets : Nat → List Char → List (Nat × Char)
  | _, [] => []
  | offset, c :: rest => (offset, c) :: charOffsets (offset + c.utf8Size) rest

/-- A scan for separators under way. -/
structure Cutting where
  parts : List (List Char)
  depth : Nat
  /-- The offset of the piece that the scan is in. -/
  start : Nat

namespace Cutting

/-- One character further; at a separator outside the brackets the piece is cut out. -/
def advance? (separator : Char) (text : List Char) :
    Cutting → Nat × Char → Option Cutting
  | ⟨parts, depth, start⟩, (offset, c) =>
    if c = '<' then some ⟨parts, depth + 1, start⟩
    else if c = '>' then some ⟨parts, depth - 1, start⟩
    else if c = separator ∧ depth = 0 then
      (slice? start offset text).map fun part => ⟨parts ++ [part], depth, offset + c.utf8Size⟩
    else some ⟨parts, depth, start⟩

def finish? (text : List Char) (scan : Cutting) : Option (List (List Char)) :=
  (slice? scan.start (byteLength text) text).map fun last => scan.parts ++ [last]

end Cutting

/-- The pieces between the separators outside every bracket, cut out by offset. -/
def splitByOffset? (separator : Char) (text : List Char) : Option (List (List Char)) :=
  ((charOffsets 0 text).foldlM (Cutting.advance? separator text) ⟨[], 0, 0⟩).bind
    (Cutting.finish? text)

/-- The offset at which the depth comes down to zero, when a number of brackets are open at first. -/
def closeFrom? : Nat → Nat → List Char → Option Nat
  | _, _, [] => none
  | offset, depth, c :: rest =>
    if c = '<' then closeFrom? (offset + c.utf8Size) (depth + 1) rest
    else if c = '>' then
      if depth = 1 then some offset else closeFrom? (offset + c.utf8Size) (depth - 1) rest
    else closeFrom? (offset + c.utf8Size) depth rest

/-- The offset of the bracket that closes the one at an offset. -/
def closingOffset? (text : List Char) (opening : Nat) : Option Nat :=
  (cutAt? opening text).bind fun parts => closeFrom? opening 0 parts.2

section Cuts

variable {front back : List Char}

@[simp] theorem byteLength_nil : byteLength [] = 0 := rfl

@[simp] theorem byteLength_cons (c : Char) (rest : List Char) :
    byteLength (c :: rest) = c.utf8Size + byteLength rest := rfl

@[simp] theorem byteLength_append (front back : List Char) :
    byteLength (front ++ back) = byteLength front + byteLength back := by
  induction front with
  | nil => simp
  | cons c rest ih => simp [ih, Nat.add_assoc]

theorem cutAt?_eq_some_iff {n : Nat} {text : List Char} :
    cutAt? n text = some (front, back) ↔ text = front ++ back ∧ byteLength front = n := by
  fun_induction cutAt? n text generalizing front with
  | case1 text =>
    have nothing : byteLength front = 0 ↔ front = [] := by
      cases front with
      | nil => simp
      | cons c rest =>
        have := c.utf8Size_pos
        simp only [byteLength_cons, reduceCtorEq, iff_false]
        omega
    rw [nothing]
    constructor
    · intro same
      cases same
      exact ⟨rfl, rfl⟩
    · rintro ⟨rfl, rfl⟩
      rfl
  | case2 n =>
    refine iff_of_false (by simp) ?_
    rintro ⟨same, length⟩
    obtain ⟨rfl, rfl⟩ := List.append_eq_nil_iff.mp same.symm
    cases length
  | case3 n c rest fits ih =>
    rw [Option.map_eq_some_iff]
    constructor
    · rintro ⟨⟨others, behind⟩, found, same⟩
      cases same
      obtain ⟨rfl, length⟩ := ih.mp found
      refine ⟨rfl, ?_⟩
      change c.utf8Size + byteLength others = n + 1
      omega
    · rintro ⟨same, length⟩
      cases front with
      | nil => cases length
      | cons d others =>
        obtain ⟨rfl, rfl⟩ := List.cons.inj same
        rw [byteLength_cons] at length
        exact ⟨(others, back), ih.mpr ⟨rfl, by omega⟩, rfl⟩
  | case4 n c rest long =>
    refine iff_of_false (by simp) ?_
    rintro ⟨same, length⟩
    cases front with
    | nil => cases length
    | cons d others =>
      obtain ⟨rfl, rfl⟩ := List.cons.inj same
      rw [byteLength_cons] at length
      omega

theorem cutAt?_byteLength (front back : List Char) :
    cutAt? (byteLength front) (front ++ back) = some (front, back) :=
  cutAt?_eq_some_iff.mpr ⟨rfl, rfl⟩

theorem slice?_byteLength (front part back : List Char) :
    slice? (byteLength front) (byteLength (front ++ part)) (front ++ (part ++ back)) = some part := by
  have length : byteLength (front ++ part) - byteLength front = byteLength part := by
    rw [byteLength_append]
    omega
  rw [slice?, if_pos (by simp), cutAt?_byteLength, Option.bind_some, length, cutAt?_byteLength]
  rfl

end Cuts

section Split

variable {separator : Char} {text before piece rest : List Char}

theorem advance?_of_ne {c : Char} {depth : Nat} (passes : c ≠ separator ∨ 0 < depth)
    (parts : List (List Char)) (start offset : Nat) :
    Cutting.advance? separator text ⟨parts, depth, start⟩ (offset, c) =
      some ⟨parts, depthAfter depth c, start⟩ := by
  have inside : ¬(c = separator ∧ depth = 0) := fun here =>
    passes.elim (· here.1) (by simp [here.2])
  simp only [Cutting.advance?, depthAfter, if_neg inside]
  split_ifs <;> rfl

theorem advance?_separator (plain : separator ≠ '<' ∧ separator ≠ '>')
    (whole : text = before ++ (piece ++ separator :: rest)) (parts : List (List Char)) :
    Cutting.advance? separator text ⟨parts, 0, byteLength before⟩
        (byteLength (before ++ piece), separator) =
      some ⟨parts ++ [piece], 0, byteLength (before ++ piece ++ [separator])⟩ := by
  have cut := slice?_byteLength before piece (separator :: rest)
  rw [← whole] at cut
  simp only [Cutting.advance?, if_neg plain.1, if_neg plain.2, and_self, if_true, cut, Option.map_some]
  rw [byteLength_append _ [separator], byteLength_cons, byteLength_nil, Nat.add_zero]

/-- The rest of a scan that has gone through `piece` since it last cut something out. -/
theorem finish?_foldlM (plain : separator ≠ '<' ∧ separator ≠ '>') (parts : List (List Char))
    (depth : Nat) (whole : text = before ++ (piece ++ rest)) :
    ((charOffsets (byteLength (before ++ piece)) rest).foldlM (Cutting.advance? separator text)
        ⟨parts, depth, byteLength before⟩).bind (Cutting.finish? text) =
      some (parts ++ piece.foldr extendFirst (splitFrom separator depth rest)) := by
  induction rest generalizing parts depth before piece with
  | nil =>
    have last := slice?_byteLength before piece []
    rw [List.append_nil] at whole last
    rw [← whole] at last
    simp [charOffsets, Cutting.finish?, last, splitFrom, foldr_extendFirst]
  | cons c rest ih =>
    rw [charOffsets, List.foldlM_cons]
    by_cases here : c = separator ∧ depth = 0
    · obtain ⟨rfl, rfl⟩ := here
      have next : byteLength (before ++ piece) + c.utf8Size =
          byteLength ((before ++ piece ++ [c]) ++ []) := by simp [Nat.add_assoc]
      have later := @ih (before ++ piece ++ [c]) [] (parts ++ [piece]) 0 (by simp [whole])
      rw [advance?_separator plain whole, next, splitFrom, if_pos ⟨rfl, rfl⟩, foldr_extendFirst]
      simpa using later
    · have passes : c ≠ separator ∨ 0 < depth := (not_and_or.mp here).imp_right Nat.pos_of_ne_zero
      have next : byteLength (before ++ piece) + c.utf8Size =
          byteLength (before ++ (piece ++ [c])) := by simp [Nat.add_assoc]
      have later := @ih before (piece ++ [c]) parts (depthAfter depth c) (by simp [whole])
      rw [advance?_of_ne passes, next, splitFrom_of_ne passes]
      simpa using later

theorem splitByOffset?_eq (plain : separator ≠ '<' ∧ separator ≠ '>') (text : List Char) :
    splitByOffset? separator text = some (splitTopLevel separator text) :=
  @finish?_foldlM separator text [] [] text plain [] 0 rfl

end Split

section Group

/-- While brackets are open, the scan by offset goes the way of the scan over characters. -/
theorem closeFrom?_eq (offset inner : Nat) (text : List Char) :
    closeFrom? offset (inner + 1) text =
      (takeGroup inner text).map fun group => offset + byteLength group.1 := by
  induction text generalizing offset inner with
  | nil => rfl
  | cons c rest ih =>
    by_cases here : c = '>' ∧ inner = 0
    · obtain ⟨rfl, rfl⟩ := here
      simp [closeFrom?, takeGroup]
    · have passes : c ≠ '>' ∨ 0 < inner := (not_and_or.mp here).imp_right Nat.pos_of_ne_zero
      have further : closeFrom? offset (inner + 1) (c :: rest) =
          closeFrom? (offset + c.utf8Size) (depthAfter inner c + 1) rest := by
        have deep : c = '>' → 0 < inner := fun closes => passes.resolve_left (absurd closes)
        rw [closeFrom?, ← depthAfter_succ deep, depthAfter]
        split_ifs with opens closes last
        · rfl
        · have := deep closes
          omega
        · rfl
        · rfl
      rw [further, ih, takeGroup_of_ne passes, Option.map_map]
      simp [Function.comp_def, Nat.add_assoc]

theorem closingOffset?_eq (before more : List Char) :
    closingOffset? (before ++ '<' :: more) (byteLength before) =
      (takeGroup 0 more).map fun group => byteLength (before ++ '<' :: group.1) := by
  rw [closingOffset?, cutAt?_byteLength, Option.bind_some]
  have opened : closeFrom? (byteLength before) 0 ('<' :: more) =
      closeFrom? (byteLength before + '<'.utf8Size) (0 + 1) more := rfl
  rw [opened, closeFrom?_eq]
  simp [Nat.add_assoc]

theorem depthOf_mono {depth depth' : Nat} (deeper : depth ≤ depth') (text : List Char) :
    depthOf depth text ≤ depthOf depth' text := by
  induction text generalizing depth depth' with
  | nil => exact deeper
  | cons c rest ih =>
    refine ih ?_
    unfold depthAfter
    split_ifs <;> omega

theorem Closes.exists_takeGroup {before more : List Char} (closes : Closes 0 (before ++ '<' :: more)) :
    ∃ group, takeGroup 0 more = some group := by
  rw [← Option.ne_none_iff_exists']
  intro missing
  have shut := closes.depth_eq
  have opened : depthAfter (depthOf 0 before) '<' = depthOf 0 before + 1 := rfl
  rw [depthOf_append, depthOf_cons, opened] at shut
  have deeper := depthOf_mono (Nat.le_add_left 1 (depthOf 0 before)) more
  have stays : depthOf 1 more ≠ 0 := depthOf_of_takeGroup missing
  omega

/-- The bracket behind `before` opens a group with this content: it is closed where the count is back
for the first time. -/
structure OpensGroup (before inside : List Char) : Prop where
  content : Closes 0 inside
  returns : net '<' '>' (before ++ '<' :: (inside ++ ['>'])) = net '<' '>' before
  first : ∀ front, front <+: '<' :: inside → front ≠ [] →
    net '<' '>' before < net '<' '>' (before ++ front)

theorem Closes.opensGroup {inside : List Char} (closes : Closes 0 inside) (before : List Char) :
    OpensGroup before inside := by
  have up : net '<' '>' ['<'] = 1 := rfl
  have down : net '<' '>' ['>'] = -1 := rfl
  refine ⟨closes, ?_, ?_⟩
  · have ends := closes.ends
    rw [net_append, net_cons, net_append]
    omega
  · intro front within nonempty
    obtain rfl | ⟨behind, rfl, shorter⟩ := List.prefix_cons_iff.mp within
    · exact absurd rfl nonempty
    · have stays := closes.within behind shorter
      rw [net_append, net_cons]
      omega

end Group

section Separators

variable {separator : Char}

/-- Separators stand only where brackets are open. -/
def Shielded (separator : Char) (depth : Nat) (piece : List Char) : Prop :=
  ∀ front back, piece = front ++ separator :: back → 0 < depthOf depth front

theorem shielded_nil (separator : Char) (depth : Nat) : Shielded separator depth [] := by
  intro front back same
  exact absurd same.symm (by simp)

theorem Shielded.cons {depth : Nat} {c : Char} {piece : List Char}
    (passes : c ≠ separator ∨ 0 < depth) (shielded : Shielded separator (depthAfter depth c) piece) :
    Shielded separator depth (c :: piece) := by
  intro front back same
  cases front with
  | nil =>
    obtain ⟨rfl, rfl⟩ := List.cons.inj same
    exact passes.resolve_left (absurd rfl)
  | cons d front =>
    obtain ⟨rfl, rfl⟩ := List.cons.inj same
    exact shielded front back rfl

/-- The first piece begins at the depth of the scan, and the others where nothing is open. -/
theorem shielded_splitFrom (separator : Char) (depth : Nat) (text : List Char) :
    ∃ piece pieces, splitFrom separator depth text = piece :: pieces ∧
      Shielded separator depth piece ∧ ∀ other ∈ pieces, Shielded separator 0 other := by
  induction text generalizing depth with
  | nil => exact ⟨[], [], rfl, shielded_nil separator depth, by simp⟩
  | cons c rest ih =>
    by_cases here : c = separator ∧ depth = 0
    · obtain ⟨piece, pieces, same, first, others⟩ := ih depth
      refine ⟨[], piece :: pieces, ?_, shielded_nil separator depth, ?_⟩
      · rw [splitFrom, if_pos here, same]
      · obtain ⟨_, rfl⟩ := here
        exact List.forall_mem_cons.mpr ⟨first, others⟩
    · have passes : c ≠ separator ∨ 0 < depth := (not_and_or.mp here).imp_right Nat.pos_of_ne_zero
      obtain ⟨piece, pieces, same, first, others⟩ := ih (depthAfter depth c)
      refine ⟨c :: piece, pieces, ?_, first.cons passes, others⟩
      rw [splitFrom_of_ne passes, same, extendFirst]

theorem shielded_of_mem_splitTopLevel {text piece : List Char}
    (h : piece ∈ splitTopLevel separator text) : Shielded separator 0 piece := by
  obtain ⟨first, others, same, shielded, later⟩ := shielded_splitFrom separator 0 text
  rw [splitTopLevel, same] at h
  rcases List.mem_cons.mp h with rfl | h
  · exact shielded
  · exact later piece h

theorem Pieces.intercalate {text : List Char} {pieces : List (List Char)}
    (cut : Pieces separator text pieces) : [separator].intercalate pieces = text := by
  induction cut with
  | last text => exact List.intercalate_singleton
  | @cut first rest pieces _ others ih =>
    cases others with
    | last => simp [List.intercalate_cons_cons]
    | cut _ _ =>
      rw [List.intercalate_cons_cons, ih]
      simp

end Separators

/-- The scans by offset find what the scans over characters find. Pieces joined again give the text.
Where brackets close, they close in each piece, which has separators only inside them, and each
bracket of the text opens a group, at whose end the scan for it stops. -/
theorem splitting_loses_nothing {separator : Char} (plain : separator ≠ '<' ∧ separator ≠ '>')
    (text : List Char) :
    splitByOffset? separator text = some (splitTopLevel separator text) ∧
      [separator].intercalate (splitTopLevel separator text) = text ∧
      (Closes 0 text →
        (∀ piece ∈ splitTopLevel separator text, Closes 0 piece ∧
          ∀ front back, piece = front ++ separator :: back → 0 < net '<' '>' front) ∧
        ∀ before more, text = before ++ '<' :: more → ∃ inside behind,
          more = inside ++ '>' :: behind ∧ OpensGroup before inside ∧
            takeGroup 0 more = some (inside, behind) ∧
            closingOffset? text (byteLength before) =
              some (byteLength (before ++ '<' :: inside))) := by
  have cut := pieces_splitTopLevel separator text
  refine ⟨splitByOffset?_eq plain text, cut.intercalate, fun closes => ⟨?_, ?_⟩⟩
  · intro piece h
    have whole := cut.closes plain closes piece h
    refine ⟨whole, ?_⟩
    rintro front back rfl
    have depth := @natCast_depthOf 0 front fun part h =>
      whole.within part (h.trans (List.prefix_append _ _))
    have inner := shielded_of_mem_splitTopLevel h front back rfl
    omega
  · rintro before more rfl
    obtain ⟨⟨inside, behind⟩, taken⟩ := closes.exists_takeGroup
    obtain ⟨same, content⟩ := eq_of_takeGroup taken
    have offset := closingOffset?_eq before more
    rw [taken, Option.map_some] at offset
    exact ⟨inside, behind, same, content.opensGroup before, taken, offset⟩

/-- The letter in front takes two bytes; the separator in the group does not cut. -/
theorem splitting_loses_nothing_nested :
    (',' ≠ '<' ∧ ',' ≠ '>') ∧ Closes 0 "é<K,<V>>,w".toList ∧
    splitTopLevel ',' "é<K,<V>>,w".toList = ["é<K,<V>>".toList, "w".toList] ∧
    splitByOffset? ',' "é<K,<V>>,w".toList = some ["é<K,<V>>".toList, "w".toList] ∧
    [','].intercalate ["é<K,<V>>".toList, "w".toList] = "é<K,<V>>,w".toList ∧
    (∀ piece ∈ ["é<K,<V>>".toList, "w".toList], Closes 0 piece) ∧
    OpensGroup "é".toList "K,<V>".toList ∧
    closingOffset? "é<K,<V>>,w".toList 2 = some 8 := by
  have closes : Closes 0 "é<K,<V>>,w".toList := closes_of_depthOf (by decide) (by decide)
  have pieces : splitTopLevel ',' "é<K,<V>>,w".toList = ["é<K,<V>>".toList, "w".toList] := by
    decide +kernel
  obtain ⟨found, joined, balanced⟩ :=
    @splitting_loses_nothing ',' (by decide) "é<K,<V>>,w".toList
  obtain ⟨apart, groups⟩ := balanced closes
  obtain ⟨inside, behind, _, opens, taken, offset⟩ := groups "é".toList "K,<V>>,w".toList rfl
  have content : (inside, behind) = ("K,<V>".toList, ",w".toList) :=
    Option.some.inj (taken.symm.trans (by decide +kernel))
  cases content
  rw [pieces] at found joined apart
  exact ⟨by decide, closes, pieces, found, joined, fun piece h => (apart piece h).1, opens, offset⟩

end ApiCompat.Text
