import ApiCompat.Proofs.Signature.Balance

/-! Type-parameter lists. The check at the start only counts, so it lets texts pass whose first bracket
closes before the end, such as two groups in a row. Cut between their first and last character
such texts leave a bracket open, and then so does some piece, which is refused. So what is read was
one group, and all that is known of texts whose brackets close holds of its pieces. -/
namespace ApiCompat.Signature

open Text

/-- What a list in one group declares. -/
structure OneGroup (text inside : List Char) (parameters : List Signature) : Prop where
  bracketed : text = '<' :: (inside ++ ['>'])
  closes : Closes 0 inside
  /-- The first bracket is open until the last character. -/
  matched : ∀ front, front <+: text → net '<' '>' front = 0 → front = [] ∨ front = text
  counted : parameters.length = outside ',' 0 inside + 1
  kinds : ∀ p ∈ parameters, p.kind = .typeVariable
  named : ∀ p ∈ parameters, ∀ n ∈ p.nodes, AngleFree n.name
  /-- No use of a declared name is left a class, wherever the name is declared in the list. -/
  marked : ∀ p ∈ parameters, ∀ t ∈ p.children, ∀ n ∈ t.nodes, n.kind = .classType →
    n.arguments = [] → ∀ q ∈ parameters, n.name ≠ q.name

section Lists

variable {text inside : List Char} {list : String} {declared : List Signature}

theorem eq_of_insideBrackets? (found : insideBrackets? text = some inside) :
    text = '<' :: (inside ++ ['>']) := by
  unfold insideBrackets? at found
  split at found
  · rename_i rest
    split at found
    · rename_i reversed ends
      cases found
      simpa using congrArg List.reverse ends
    · cases found
  · cases found

/-- Between the first and the last bracket as much is closed as is opened. -/
theorem net_inside (closes : Closes 0 ('<' :: (inside ++ ['>']))) : net '<' '>' inside = 0 := by
  have up : net '<' '>' ['<'] = 1 := rfl
  have down : net '<' '>' ['>'] = -1 := rfl
  have ends := closes.ends
  rw [net_cons, net_append] at ends
  omega

theorem eq_of_closed_prefix (closes : Closes 0 inside) {front : List Char}
    (part : front <+: '<' :: (inside ++ ['>'])) (shut : net '<' '>' front = 0) :
    front = [] ∨ front = '<' :: (inside ++ ['>']) := by
  rcases List.prefix_cons_iff.mp part with rfl | ⟨rest, rfl, shorter⟩
  · exact .inl rfl
  rcases List.prefix_concat_iff.mp shorter with rfl | shorter
  · exact .inr rfl
  · have up : net '<' '>' ['<'] = 1 := rfl
    have fits := closes.within rest shorter
    rw [net_cons] at shut
    omega

theorem depthOf_of_pieces
    (read : (splitTopLevel ',' inside).mapM (readParameter list) = .ok declared) :
    depthOf 0 inside = 0 := by
  obtain ⟨piece, hpiece, same⟩ := (pieces_splitTopLevel ',' inside).exists_depthOf (by decide)
  obtain ⟨p, _, hread⟩ := exists_mem_of_mapM read hpiece
  obtain ⟨t, ht, _⟩ := exists_readType_of_readParameter hread
  rw [← same]
  exact depthOf_of_readType ht

/-- The pieces of a text whose brackets close declare names and suffixes without brackets. -/
theorem throughout_of_pieces (closes : Closes 0 inside)
    (read : (splitTopLevel ',' inside).mapM (readParameter list) = .ok declared) :
    ∀ p ∈ declared, p.Throughout fun name dimension => AngleFree name ∧ AngleFree dimension := by
  intro p hp
  obtain ⟨piece, hpiece, hread⟩ := exists_ok_of_mem_mapM read hp
  obtain ⟨t, ht, rfl⟩ := exists_readType_of_readParameter hread
  have cut : Closes 0 piece :=
    (pieces_splitTopLevel ',' inside).closes (by decide) closes piece hpiece
  have free : t.Throughout fun name dimension => AngleFree name ∧ AngleFree dimension :=
    (throughout_iff_shows angleFree_any ht).mpr fun _ shows => shows.angleFree cut
  exact (throughout_congr (s := { t with kind := .typeVariable }) (t := t) rfl rfl rfl).mpr free

theorem angleFree_of_pieces (closes : Closes 0 inside)
    (read : (splitTopLevel ',' inside).mapM (readParameter list) = .ok declared) :
    ∀ p ∈ declared, p.Throughout fun name _ => AngleFree name :=
  fun p hp n hn => (throughout_of_pieces closes read p hp n hn).1

/-- No parameter that is read has an angle bracket in a name or a suffix. -/
theorem angleFree_of_parseParameters (read : parseParameters list = .ok declared) :
    ∀ p ∈ declared, p.Throughout fun name dimension => AngleFree name ∧ AngleFree dimension := by
  rcases exists_declared_of_parseParameters read with
    rfl | ⟨balance, inside, declared, found, hdeclared, rfl⟩
  · simp
  have whole := ((balanced_iff _).mp balance).angles
  rw [eq_of_insideBrackets? found] at whole
  have closes : Closes 0 inside := closes_of_depthOf (depthOf_of_pieces hdeclared) (net_inside whole)
  intro p hp
  obtain ⟨q, hq, rfl⟩ := List.mem_map.mp hp
  exact (throughout_markChildren _).mpr (throughout_of_pieces closes hdeclared q hq)

end Lists

section Marking

variable {isVariable : String → Bool} {s n : Signature}

/-- A class without arguments that is left after marking has no name to be marked. -/
theorem not_isVariable_of_markVariables (inside : n ∈ (s.markVariables isVariable).nodes)
    (kind : n.kind = .classType) (bare : n.arguments = []) : isVariable n.name = false := by
  rw [nodes_markVariables] at inside
  obtain ⟨m, _, rfl⟩ := List.mem_map.mp inside
  obtain ⟨kind', name, dimension, arguments, supers, uppers, varargs, linked⟩ := m
  simp only [markVariables, markVariablesAll_eq_map, List.map_eq_nil_iff] at kind bare ⊢
  subst bare
  by_contra unmarked
  have marked : isVariable name = true := by simpa using unmarked
  by_cases isClass : kind' = .classType <;> simp [isClass, marked] at kind

end Marking

/-- Whatever is read with at least one parameter is one bracket group, with one parameter for each
piece between the commas outside brackets, and every use of a parameter is marked. -/
theorem oneGroup_of_parseParameters {list : String} {parameters : List Signature}
    (read : parseParameters list = .ok parameters) (some : parameters ≠ []) :
    ∃ inside, OneGroup (trim list.toList) inside parameters := by
  rcases exists_declared_of_parseParameters read with
    rfl | ⟨balance, inside, declared, found, hdeclared, rfl⟩
  · exact absurd rfl some
  have bracketed := eq_of_insideBrackets? found
  have whole := ((balanced_iff _).mp balance).angles
  rw [bracketed] at whole
  have closes : Closes 0 inside := closes_of_depthOf (depthOf_of_pieces hdeclared) (net_inside whole)
  refine ⟨inside, bracketed, closes, ?_, ?_, kind_of_parseParameters read, ?_, ?_⟩
  · intro front part shut
    rw [bracketed] at part ⊢
    exact eq_of_closed_prefix closes part shut
  · rw [List.length_map, (forall₂_of_mapM hdeclared).length_eq]
    exact @length_splitFrom ',' inside 0 (by decide) closes
  · intro p hp
    obtain ⟨q, hq, rfl⟩ := List.mem_map.mp hp
    exact (throughout_markChildren _).mpr (angleFree_of_pieces closes hdeclared q hq)
  · intro p hp t ht n hn kind bare q hq same
    obtain ⟨p, _, rfl⟩ := List.mem_map.mp hp
    obtain ⟨d, hd, rfl⟩ := List.mem_map.mp hq
    rw [children_markChildren] at ht
    obtain ⟨t, _, rfl⟩ := List.mem_map.mp ht
    have unmarked := not_isVariable_of_markVariables hn kind bare
    have isDeclared : n.name ∈ declared.map (·.name) := List.mem_map.mpr ⟨d, hd, same.symm⟩
    simp only [List.contains_iff_mem.mpr isDeclared, Bool.true_eq_false] at unmarked

/-- Two parameters in each other's bounds, with a comma inside a group. -/
theorem oneGroup_mutual : ∃ parameters,
    parseParameters " <A extends p.Pair<A, B[]>, B extends p.Q<?, A> & p.R>" = .ok parameters ∧
      parameters ≠ [] ∧ ∃ inside, OneGroup
        (trim " <A extends p.Pair<A, B[]>, B extends p.Q<?, A> & p.R>".toList) inside parameters := by
  obtain ⟨parameters, read, two⟩ := exists_ok_of_any
    (x := parseParameters " <A extends p.Pair<A, B[]>, B extends p.Q<?, A> & p.R>")
    (p := fun parameters => parameters.length == 2) (by decide +kernel)
  have some : parameters ≠ [] := by
    rintro rfl
    cases two
  exact ⟨parameters, read, some, oneGroup_of_parseParameters read some⟩

example : (parseParameters "<A>,<B>").toOption.isNone = true := by decide +kernel

end ApiCompat.Signature
