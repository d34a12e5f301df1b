import ApiCompat.Proofs.Text.Brackets
import ApiCompat.Signature.Parser

/-! How a type is read, by the form of its text. What is read depends on the text without the blanks
around it, so every piece of a list is read like the text that was put there. Whatever is read is made
of parts that were read, so a property that every form hands on holds of all types that are read. -/
namespace ApiCompat

theorem ok_of_bind {ε α β : Type} {x : Except ε α} {f : α → Except ε β} {b : β}
    (h : x >>= f = .ok b) : ∃ a, x = .ok a ∧ f a = .ok b := by
  cases x with
  | error e => cases h
  | ok a => exact ⟨a, rfl, h⟩

theorem error_of_bind {ε α β : Type} {x : Except ε α} {f : α → Except ε β} {e : ε}
    (h : x >>= f = .error e) : x = .error e ∨ ∃ a, x = .ok a ∧ f a = .error e := by
  cases x with
  | error e' => exact .inl (congrArg Except.error (Except.error.inj h))
  | ok a => exact .inr ⟨a, rfl, h⟩

theorem exists_ok_of_any {ε α : Type} {x : Except ε α} {p : α → Bool}
    (h : x.toOption.any p = true) : ∃ a, x = .ok a ∧ p a = true := by
  cases x with
  | error e => cases h
  | ok a => exact ⟨a, rfl, h⟩

theorem forall₂_of_mapM {ε α β : Type} {f : α → Except ε β} {list : List α} {results : List β}
    (h : list.mapM f = .ok results) : List.Forall₂ (fun b a => f a = .ok b) results list := by
  induction list generalizing results with
  | nil =>
    cases h
    exact .nil
  | cons a rest ih =>
    rw [List.mapM_cons] at h
    obtain ⟨first, hfirst, h⟩ := ok_of_bind h
    obtain ⟨others, hothers, h⟩ := ok_of_bind h
    cases h
    exact .cons hfirst (ih hothers)

theorem exists_ok_of_mem_mapM {ε α β : Type} {f : α → Except ε β} {list : List α}
    {results : List β} (h : list.mapM f = .ok results) {b : β} (hb : b ∈ results) :
    ∃ a ∈ list, f a = .ok b := by
  obtain ⟨i, hi, rfl⟩ := List.mem_iff_getElem.mp hb
  have each := forall₂_of_mapM h
  exact ⟨_, List.getElem_mem _, each.get hi (each.length_eq ▸ hi)⟩

theorem exists_mem_of_mapM {ε α β : Type} {f : α → Except ε β} {list : List α} {results : List β}
    (h : list.mapM f = .ok results) {a : α} (ha : a ∈ list) : ∃ b ∈ results, f a = .ok b := by
  obtain ⟨i, hi, rfl⟩ := List.mem_iff_getElem.mp ha
  have each := forall₂_of_mapM h
  exact ⟨_, List.getElem_mem _, each.get (each.length_eq.symm ▸ hi) hi⟩

theorem eq_nil_of_mapM {ε α β : Type} {f : α → Except ε β} {list : List α}
    (h : list.mapM f = .ok []) : list = [] :=
  List.forall₂_nil_left_iff.mp (forall₂_of_mapM h)

theorem exists_error_of_mapM {ε α β : Type} {f : α → Except ε β} {list : List α} {e : ε}
    (h : list.mapM f = .error e) : ∃ a ∈ list, f a = .error e := by
  induction list with
  | nil => cases h
  | cons a rest ih =>
    rw [List.mapM_cons] at h
    rcases error_of_bind h with first | ⟨_, _, h⟩
    · exact ⟨a, List.mem_cons_self, first⟩
    · rcases error_of_bind h with later | ⟨_, _, h⟩
      · obtain ⟨b, hb, refused⟩ := ih later
        exact ⟨b, List.mem_cons_of_mem a hb, refused⟩
      · cases h

theorem forall_mem_iff_of_mapM {ε α β : Type} {f : α → Except ε β} {list : List α}
    {results : List β} (h : list.mapM f = .ok results) {p : β → Prop} {q : α → Prop}
    (each : ∀ a ∈ list, ∀ b, f a = .ok b → (p b ↔ q a)) :
    (∀ b ∈ results, p b) ↔ ∀ a ∈ list, q a := by
  constructor
  · intro all a ha
    obtain ⟨b, hb, same⟩ := exists_mem_of_mapM h ha
    exact (each a ha b same).mp (all b hb)
  · intro all b hb
    obtain ⟨a, ha, same⟩ := exists_ok_of_mem_mapM h hb
    exact (each a ha b same).mpr (all a ha)

theorem getLast?_of_mapM {ε α β : Type} {f : α → Except ε β} {list : List α} {results : List β}
    (h : list.mapM f = .ok results) : list = [] ∧ results = [] ∨
      ∃ a b, list.getLast? = some a ∧ results.getLast? = some b ∧ f a = .ok b := by
  rcases List.eq_nil_or_concat list with rfl | ⟨front, a, rfl⟩
  · cases h
    exact .inl ⟨rfl, rfl⟩
  · rw [List.concat_eq_append, List.mapM_append] at h
    obtain ⟨_, _, h⟩ := ok_of_bind h
    obtain ⟨last, hlast, h⟩ := ok_of_bind h
    cases h
    rw [List.mapM_cons] at hlast
    obtain ⟨b, hb, hlast⟩ := ok_of_bind hlast
    cases hlast
    exact .inr ⟨a, b, by simp, by simp, hb⟩

namespace Signature

open Text

section Clauses

variable {visible : Char → Bool} {text : List Char}

/-- No bound begins in a text whose blanks are all inside groups. -/
theorem boundClauseFrom_of_nest (nest : Nest visible text) {depth : Nat}
    (hidden : visible ' ' = false ∨ 0 < depth) (before rest : List Char) :
    boundClauseFrom depth before (text ++ rest) =
      boundClauseFrom depth (text.reverse ++ before) rest := by
  have passes {c : Char} {depth : Nat} (apart : c ≠ ' ' ∨ 0 < depth) (before rest : List Char) :
      boundClauseFrom depth before (c :: rest) =
        boundClauseFrom (depthAfter depth c) (c :: before) rest := by
    have closed : ¬(c = ' ' ∧ depth = 0) := by
      rintro ⟨rfl, rfl⟩
      simp at apart
    rw [boundClauseFrom, if_neg closed]
  induction nest generalizing depth before rest with
  | nil => rfl
  | @char visible c _ plain seen _ ih =>
    have apart : c ≠ ' ' ∨ 0 < depth := by
      refine hidden.imp_left ?_
      rintro unseen rfl
      rw [seen] at unseen
      cases unseen
    rw [List.cons_append, passes apart, depthAfter_of_isBracket plain, ih hidden,
      List.reverse_cons, List.append_assoc]
    rfl
  | pair _ ih =>
    have same : depthAfter (depthAfter depth '[') ']' = depth := rfl
    rw [List.cons_append, List.cons_append, passes (.inl (by decide)), passes (.inl (by decide)),
      same, ih hidden]
    simp
  | @group visible inside others _ _ ihInside ihRest =>
    have opening : depthAfter depth '<' = depth + 1 := rfl
    have closing : depthAfter (depth + 1) '>' = depth := rfl
    rw [List.cons_append, List.append_assoc, List.cons_append, passes (.inl (by decide)), opening,
      ihInside (.inr (Nat.succ_pos _)), passes (.inl (by decide)), closing, ihRest hidden]
    simp

theorem boundClause?_eq_none (nest : Nest visible text) (hidden : visible ' ' = false) :
    boundClause? text = none := by
  have scanned : boundClauseFrom 0 [] (text ++ []) = _ :=
    boundClauseFrom_of_nest nest (.inl hidden) [] []
  rwa [List.append_nil] at scanned

theorem boundsAhead?_keyword (side : BoundSide) (tail : List Char) :
    boundsAhead? (side.keyword.toList ++ ' ' :: tail) = some (side, tail) := by
  cases side <;> simp [boundsAhead?, afterWord?, BoundSide.keyword]

theorem boundClause?_eq_some (nest : Nest visible text) (hidden : visible ' ' = false)
    (solid : Solid text) (side : BoundSide) (tail : List Char) :
    boundClause? (text ++ ' ' :: (side.keyword.toList ++ ' ' :: tail)) =
      some ⟨text, side, tail⟩ := by
  rw [boundClause?, boundClauseFrom_of_nest nest (.inl hidden), boundClauseFrom,
    if_pos ⟨rfl, rfl⟩, boundsAhead?_keyword]
  simp [solid.trim_self]

end Clauses

section Read

variable {whole : String} {text other : List Char}

theorem readType_congr (same : trim text = trim other) :
    readType whole text = readType whole other := by
  rw [readType, readType]
  simp only [List.mapM_subtype, List.unattach_attach]
  generalize trim text = body at same
  cases same
  rfl

theorem readType_bounded {found : BoundClause} (clause : boundClause? (trim text) = some found)
    (filled : isBlankText found.tail = false) {bounds : List Signature}
    (read : (splitTopLevel '&' found.tail).mapM (readType whole) = .ok bounds) :
    readType whole text =
      if found.head = ['?'] then .ok (anyType.withBounds found.side bounds)
      else do
        let head ← readType whole found.head
        return { head with kind := .typeVariable }.withBounds found.side
          (markVariablesAll (· == head.name) bounds) := by
  have solid : trim text ≠ [] := by
    intro nothing
    rw [nothing] at clause
    cases clause
  rw [readType]
  simp only [List.mapM_subtype, List.unattach_attach, if_neg solid]
  split
  · rename_i other same
    cases clause.symm.trans same
    simp only [filled, read]
    rfl
  · rename_i missing
    cases clause.symm.trans missing

theorem readType_unbounded (solid : trim text ≠ []) (clause : boundClause? (trim text) = none)
    (apart : trim text ≠ ['?']) {cut : Outline} (outlined : outline (trim text) = cut)
    {groups : List (List Signature)} (read : cut.insides.mapM (fun inside =>
      (splitTopLevel ',' inside).mapM (readType whole)) = .ok groups) {lastPart : List Char}
    (last : cut.lastPart? = some lastPart) (named : (ofBareText cut.bare).name ≠ "") :
    readType whole text = .ok { ofBareText cut.bare with
      arguments :=
        if isBlankText (lastPart.takeWhile (· != '[')) then groups.getLastD [] else [] } := by
  rw [readType]
  simp only [List.mapM_subtype, List.unattach_attach, if_neg solid, outlined]
  split
  · rename_i found
    cases clause.symm.trans found
  · rw [if_neg apart, read]
    simp only [bind, Except.bind, last, if_neg named]
    rfl

theorem readType_any : readType whole ['?'] = .ok anyType := by
  have body : trim ['?'] = ['?'] := by decide
  rw [readType]
  simp only [List.mapM_subtype, List.unattach_attach, body]
  split
  · rename_i empty
    cases empty
  · split
    · rename_i found
      cases found
    · exact if_pos trivial

end Read

theorem mapM_of_forall₂ {ε α β γ : Type} {f : α → Except ε β} {g : β → γ} {pieces : List α}
    {list : List γ} (each : List.Forall₂ (fun c piece => ∃ b, f piece = .ok b ∧ g b = c) list pieces) :
    ∃ results, pieces.mapM f = .ok results ∧ results.map g = list := by
  induction each with
  | nil => exact ⟨[], rfl, rfl⟩
  | cons first _ ih =>
    obtain ⟨b, hb, rfl⟩ := first
    obtain ⟨results, hresults, rfl⟩ := ih
    exact ⟨b :: results, by rw [List.mapM_cons, hb, hresults]; rfl, rfl⟩

theorem exists_group_of_mem_getLastD {α : Type} {groups : List (List α)} {a : α}
    (ha : a ∈ groups.getLastD []) : ∃ group ∈ groups, a ∈ group := by
  rw [List.getLastD_eq_getLast?] at ha
  cases last : groups.getLast? with
  | none =>
    rw [last] at ha
    cases ha
  | some group =>
    rw [last] at ha
    exact ⟨group, List.mem_of_getLast? last, ha⟩

theorem bounds_ne_nil_of_pieces {whole : String} {separator : Char} {text : List Char}
    {bounds : List Signature}
    (read : (splitTopLevel separator text).mapM (readType whole) = .ok bounds) : bounds ≠ [] := by
  rintro rfl
  exact splitTopLevel_ne_nil _ _ (eq_nil_of_mapM read)

/-- A property of all that is read: of the wildcard without bounds, and of what is made of parts that
have it, a bounded wildcard, a declared variable or a named type. -/
theorem of_readType {good : Signature → Prop} {whole : String} (any : good anyType)
    (bounded : ∀ side bounds, bounds ≠ [] → (∀ b ∈ bounds, good b) →
      good (anyType.withBounds side bounds))
    (declared : ∀ head side bounds, bounds ≠ [] → good head → (∀ b ∈ bounds, good b) →
      good ({ head with kind := .typeVariable }.withBounds side
        (markVariablesAll (· == head.name) bounds)))
    (named : ∀ bare arguments, (∀ a ∈ arguments, good a) → good { ofBareText bare with arguments })
    {text : List Char} {s : Signature} (read : readType whole text = .ok s) : good s := by
  fun_induction readType whole text generalizing s with
  | case1 => cases read
  | case2 => cases read
  | case3 =>
    rename_i pieces head
    simp only [List.mapM_subtype, List.unattach_attach] at read
    obtain ⟨bounds, hbounds, read⟩ := ok_of_bind read
    have inside : ∀ b ∈ bounds, good b := by
      intro b hb
      obtain ⟨piece, hpiece, hb⟩ := exists_ok_of_mem_mapM hbounds hb
      exact pieces piece hpiece hb
    have some := bounds_ne_nil_of_pieces hbounds
    split at read
    · cases read
      exact bounded _ bounds some inside
    · obtain ⟨declaration, hdeclared, read⟩ := ok_of_bind read
      cases read
      exact declared declaration _ bounds some (head hdeclared) inside
  | case4 =>
    cases read
    exact any
  | case5 =>
    rename_i pieces
    simp only [List.mapM_subtype, List.unattach_attach] at read
    obtain ⟨groups, hgroups, read⟩ := ok_of_bind read
    have inside : ∀ group ∈ groups, ∀ t ∈ group, good t := by
      intro group hgroup t ht
      obtain ⟨inner, hinner, hgroup⟩ := exists_ok_of_mem_mapM hgroups hgroup
      obtain ⟨piece, hpiece, ht⟩ := exists_ok_of_mem_mapM hgroup ht
      exact pieces inner hinner piece hpiece ht
    split at read
    · cases read
    · split at read
      · cases read
      · cases read
        refine named _ _ fun t ht => ?_
        split at ht
        · obtain ⟨group, hgroup, ht⟩ := exists_group_of_mem_getLastD ht
          exact inside group hgroup t ht
        · cases ht

section Expressions

/-- An expression is read as a type, up to the ellipsis. -/
theorem exists_readType_of_parse {expression : String} {s : Signature}
    (read : parse expression = .ok s) : balanced (trim expression.toList) = true ∧ ∃ t varargs,
      readType expression (splitEllipsis (trim expression.toList)).1 = .ok t ∧
        s = { t with varargs } := by
  unfold parse at read
  dsimp only at read
  split at read
  · cases read
  split at read
  · cases read
  · rename_i balance
    obtain ⟨t, ht, read⟩ := ok_of_bind read
    cases read
    exact ⟨Bool.not_eq_false _ |>.mp balance, t, _, ht, rfl⟩

theorem exists_readType_of_readParameter {whole : String} {piece : List Char} {s : Signature}
    (read : readParameter whole piece = .ok s) :
    ∃ t, readType whole piece = .ok t ∧ s = { t with kind := .typeVariable } := by
  unfold readParameter at read
  split at read
  · cases read
  · obtain ⟨t, ht, read⟩ := ok_of_bind read
    cases read
    exact ⟨t, ht, rfl⟩

/-- Parameters are read one by one, and their names marked in all of them. -/
theorem exists_declared_of_parseParameters {list : String} {parameters : List Signature}
    (read : parseParameters list = .ok parameters) :
    parameters = [] ∨ balanced (trim list.toList) = true ∧ ∃ inside declared,
      insideBrackets? (trim list.toList) = some inside ∧
      (splitTopLevel ',' inside).mapM (readParameter list) = .ok declared ∧
      parameters = declared.map (markChildren fun name => (declared.map (·.name)).contains name) := by
  unfold parseParameters at read
  dsimp only at read
  split at read
  · cases read
    exact .inl rfl
  split at read
  · cases read
  rename_i balance
  split at read
  · cases read
  · rename_i inside found
    obtain ⟨declared, hdeclared, read⟩ := ok_of_bind read
    cases read
    exact .inr ⟨Bool.not_eq_false _ |>.mp balance, inside, declared, found, hdeclared, rfl⟩

/-- A property that marking below the root keeps, and that every parameter has when it is read, holds of
all parameters of a list. -/
theorem forall_of_parseParameters {good : Signature → Prop}
    (marked : ∀ s isVariable, good s → good (markChildren isVariable s))
    {list : String} {parameters : List Signature}
    (each : ∀ piece t, readType list piece = .ok t → good { t with kind := .typeVariable })
    (read : parseParameters list = .ok parameters) : ∀ p ∈ parameters, good p := by
  rcases exists_declared_of_parseParameters read with rfl | ⟨_, inside, declared, _, hdeclared, rfl⟩
  · simp
  intro p hp
  obtain ⟨q, hq, rfl⟩ := List.mem_map.mp hp
  obtain ⟨piece, _, hpiece⟩ := exists_ok_of_mem_mapM hdeclared hq
  obtain ⟨t, ht, rfl⟩ := exists_readType_of_readParameter hpiece
  exact marked _ _ (each piece t ht)

/-- What a parameter list declares are variables. -/
theorem kind_of_parseParameters {list : String} {parameters : List Signature}
    (read : parseParameters list = .ok parameters) : ∀ p ∈ parameters, p.kind = .typeVariable :=
  forall_of_parseParameters (fun _ _ kind => kind) (fun _ _ _ => rfl) read

end Expressions

end Signature

end ApiCompat
