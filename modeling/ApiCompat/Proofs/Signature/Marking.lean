import ApiCompat.Proofs.Signature.Nodes
import ApiCompat.Proofs.Signature.Reading
import ApiCompat.Signature.Render

/-! How types without bounds are written once their variables are marked. A variable is written with
its array suffix where it stands first; every later one of the name is taken for a recursion and
loses the suffix. So marking keeps the written form exactly if no later one has a suffix. -/
namespace ApiCompat.Signature

def BoundFree (s : Signature) : Prop := ∀ n ∈ s.nodes, n.superBounds = [] ∧ n.extendsBounds = []

instance (s : Signature) : Decidable s.BoundFree :=
  decidable_of_iff (s.nodes.all fun n => n.superBounds.isEmpty && n.extendsBounds.isEmpty)
    (by simp [BoundFree])

def VariableFree (s : Signature) : Prop := ∀ n ∈ s.nodes, n.kind ≠ .typeVariable

/-- No bounds, and variables without arguments. -/
def Flat (s : Signature) : Prop :=
  s.BoundFree ∧ ∀ n ∈ s.nodes, n.kind = .typeVariable → n.arguments = []

mutual

/-- All names, arguments and suffixes as they stand. -/
def plainText : Signature → String
  | ⟨_, name, dimension, arguments, _, _, _, _⟩ =>
    if arguments.isEmpty then name ++ dimension
    else name ++ "<" ++ ", ".intercalate (plainTexts arguments) ++ ">" ++ dimension

def plainTexts : List Signature → List String
  | [] => []
  | s :: rest => s.plainText :: plainTexts rest

end

/-- The name and suffix around the arguments as they were written. -/
def around (s : Signature) (parts : List String) : String :=
  if parts.isEmpty then s.name ++ s.dimension
  else s.name ++ "<" ++ ", ".intercalate parts ++ ">" ++ s.dimension

/-- The variables shown after one more type. -/
def showing (shown : List String) (s : Signature) : List String :=
  if s.isTypeVariable then shown.insert s.name else shown

/-- No variable that is shown already has a suffix. -/
def Complete : List String → List Signature → Prop
  | _, [] => True
  | shown, s :: rest =>
    (s.kind = .typeVariable → s.name ∈ shown → s.dimension = "") ∧ Complete (showing shown s) rest

section Lists

variable {shown : List String}

theorem plainTexts_eq_map (list : List Signature) : plainTexts list = list.map plainText := by
  induction list with
  | nil => rfl
  | cons s rest ih => rw [plainTexts, List.map_cons, ih]

theorem plainText_eq (s : Signature) : s.plainText = s.around (s.arguments.map plainText) := by
  obtain ⟨kind, name, dimension, arguments, supers, uppers, varargs, linked⟩ := s
  simp only [plainText, around, plainTexts_eq_map, List.isEmpty_map]

theorem complete_append {first second : List Signature} : Complete shown (first ++ second) ↔
    Complete shown first ∧ Complete (first.foldl showing shown) second := by
  induction first generalizing shown with
  | nil => simp [Complete]
  | cons s rest ih => simp only [List.cons_append, Complete, ih, List.foldl_cons, and_assoc]

theorem mem_showing {s : Signature} {name : String} :
    name ∈ showing shown s ↔ s.kind = .typeVariable ∧ name = s.name ∨ name ∈ shown := by
  by_cases isVariable : s.kind = .typeVariable <;> simp [showing, isTypeVariable, isVariable]

/-- Suffixes are kept exactly if no variable with a suffix is shown before or stands before. -/
theorem complete_iff {list : List Signature} : Complete shown list ↔
    (∀ s ∈ list, s.kind = .typeVariable → s.name ∈ shown → s.dimension = "") ∧
      list.Pairwise fun m n => m.kind = .typeVariable → n.kind = .typeVariable →
        m.name = n.name → n.dimension = "" := by
  induction list generalizing shown with
  | nil => simp [Complete]
  | cons s rest ih =>
    simp only [Complete, ih, mem_showing, List.forall_mem_cons, List.pairwise_cons]
    constructor
    · rintro ⟨own, later, apart⟩
      exact ⟨⟨own, fun n hn isVariable seen => later n hn isVariable (.inr seen)⟩,
        fun n hn first isVariable same => later n hn isVariable (.inl ⟨first, same.symm⟩), apart⟩
    · rintro ⟨⟨own, seen⟩, repeated, apart⟩
      refine ⟨own, fun n hn isVariable => ?_, apart⟩
      rintro (⟨first, same⟩ | before)
      · exact repeated n hn first isVariable same.symm
      · exact seen n hn isVariable before

theorem length_intercalate (glue : String) (parts : List String) :
    (glue.intercalate parts).length =
      (String.join parts).length + glue.length * (parts.length - 1) := by
  induction parts with
  | nil => simp
  | cons first rest ih =>
    cases rest with
    | nil => simp
    | cons second others =>
      rw [String.intercalate_cons_cons]
      simp only [String.length_append, ih, String.join_cons, List.length_cons,
        Nat.add_sub_cancel, Nat.mul_succ]
      omega

end Lists

section Flat

variable {shown : List String} {s t : Signature}

theorem BoundFree.child (free : s.BoundFree) (inside : t ∈ s.children) : t.BoundFree :=
  fun n hn => free n (mem_nodes_of_child inside hn)

theorem Flat.child (flat : s.Flat) (inside : t ∈ s.children) : t.Flat :=
  ⟨flat.1.child inside, fun n hn => flat.2 n (mem_nodes_of_child inside hn)⟩

theorem BoundFree.nodes_eq (free : s.BoundFree) : s.nodes = s :: s.arguments.flatMap nodes := by
  obtain ⟨lower, upper⟩ := free s (mem_nodes_self s)
  rw [Signature.nodes_eq, children, lower, upper, List.append_nil, List.append_nil]

theorem Flat.bare (flat : s.Flat) (isVariable : s.kind = .typeVariable) : s.children = [] :=
  children_eq_nil_iff.mpr ⟨flat.2 s (mem_nodes_self s) isVariable, flat.1 s (mem_nodes_self s)⟩

/-- What writing a type comes to: the variables shown afterwards, and the plain text unless a
suffix is lost, a shorter text otherwise. The length tells that no other part makes up for a loss. -/
structure Writes (shown : List String) (s : Signature) : Prop where
  after : (renderWith shown s).2 = s.nodes.foldl showing shown
  text : (renderWith shown s).1 = s.plainText ∧ Complete shown s.nodes ∨
    (renderWith shown s).1.length < s.plainText.length ∧ ¬Complete shown s.nodes

/-- A list is written one by one, with the variables shown handed on. -/
theorem writes_list {list : List Signature} (each : ∀ s ∈ list, ∀ shown, Writes shown s)
    (shown : List String) :
    (renderAllWith shown list).2 = (list.flatMap nodes).foldl showing shown ∧
    (renderAllWith shown list).1.length = list.length ∧
    ((renderAllWith shown list).1 = list.map plainText ∧ Complete shown (list.flatMap nodes) ∨
      (String.join (renderAllWith shown list).1).length <
          (String.join (list.map plainText)).length ∧
        ¬Complete shown (list.flatMap nodes)) := by
  induction list generalizing shown with
  | nil => exact ⟨rfl, rfl, .inl ⟨rfl, trivial⟩⟩
  | cons s rest ih =>
    have first := each s List.mem_cons_self shown
    obtain ⟨after, count, others⟩ := ih (fun t ht => each t (List.mem_cons_of_mem _ ht))
      (s.nodes.foldl showing shown)
    simp only [renderAllWith, first.after, List.flatMap_cons, List.foldl_append, complete_append,
      List.map_cons, String.join_cons, String.length_append, List.length_cons, count]
    refine ⟨after, trivial, ?_⟩
    rcases first.text with ⟨same, kept⟩ | ⟨shorter, lost⟩ <;>
      rcases others with ⟨same', kept'⟩ | ⟨shorter', lost'⟩
    · exact .inl ⟨by rw [same, same'], kept, kept'⟩
    · exact .inr ⟨by rw [same]; omega, fun h => lost' h.2⟩
    · exact .inr ⟨by rw [same']; omega, fun h => lost h.1⟩
    · exact .inr ⟨by omega, fun h => lost h.1⟩

theorem length_around {parts others : List String} (same : parts.length = others.length)
    (shorter : (String.join parts).length < (String.join others).length) :
    (s.around parts).length < (s.around others).length := by
  cases parts with
  | nil =>
    cases List.length_eq_zero_iff.mp same.symm
    exact absurd shorter (Nat.lt_irrefl _)
  | cons part rest =>
    cases others with
    | nil => cases same
    | cons other others =>
      simp only [around, List.isEmpty_cons, Bool.false_eq_true, if_false, String.length_append,
        length_intercalate, same]
      omega

theorem renderWith_variable (isVariable : s.kind = .typeVariable) (bare : s.children = []) :
    renderWith shown s =
      (if s.name ∈ shown then s.name else s.name ++ s.dimension, shown.insert s.name) := by
  obtain ⟨noArguments, noLower, noUpper⟩ := children_eq_nil_iff.mp bare
  obtain ⟨kind, name, dimension, arguments, supers, uppers, varargs, linked⟩ := s
  cases isVariable
  cases noArguments
  cases noLower
  cases noUpper
  by_cases seen : name ∈ shown <;> simp [renderWith, seen]

theorem renderWith_named (named : s.kind ≠ .typeVariable) (free : s.BoundFree) :
    renderWith shown s =
      (s.around (renderAllWith shown s.arguments).1, (renderAllWith shown s.arguments).2) := by
  obtain ⟨lower, upper⟩ := free s (mem_nodes_self s)
  obtain ⟨kind, name, dimension, arguments, supers, uppers, varargs, linked⟩ := s
  simp only at named
  cases lower
  cases upper
  cases arguments with
  | nil => simp [renderWith, renderAllWith, around, named]
  | cons a rest => simp [renderWith, renderAllWith, around, named]

/-- A variable is a place of its own, whose suffix is lost if it is shown already. -/
theorem writes_variable (isVariable : s.kind = .typeVariable) (bare : s.children = [])
    (shown : List String) : Writes shown s := by
  have alone : s.nodes = [s] := by rw [nodes_eq, bare, List.flatMap_nil]
  have plain : s.plainText = s.name ++ s.dimension := by
    rw [plainText_eq, (children_eq_nil_iff.mp bare).1]
    rfl
  have complete : Complete shown s.nodes ↔ (s.name ∈ shown → s.dimension = "") := by
    simp [alone, Complete, isVariable]
  constructor
  · rw [renderWith_variable isVariable bare, alone]
    simp [showing, isTypeVariable, isVariable]
  · rw [renderWith_variable isVariable bare, plain, complete]
    by_cases seen : s.name ∈ shown
    · by_cases whole : s.dimension = ""
      · exact .inl (by simp [seen, whole])
      · refine .inr ⟨?_, fun kept => whole (kept seen)⟩
        have some : 0 < s.dimension.length := Nat.pos_of_ne_zero (by simpa using whole)
        simp only [seen, if_true, String.length_append]
        omega
    · exact .inl ⟨by simp [seen], fun shown => absurd shown seen⟩

/-- Another type is written with its arguments, and loses what they lose. -/
theorem writes_named (named : s.kind ≠ .typeVariable) (free : s.BoundFree)
    (each : ∀ a ∈ s.arguments, ∀ shown, Writes shown a) (shown : List String) : Writes shown s := by
  have own : showing shown s = shown := by simp [showing, isTypeVariable, named]
  have complete : Complete shown s.nodes ↔ Complete shown (s.arguments.flatMap nodes) := by
    rw [free.nodes_eq, Complete, own]
    simp [named]
  obtain ⟨after, count, text⟩ := writes_list each shown
  constructor
  · rw [renderWith_named named free, free.nodes_eq, List.foldl_cons, own]
    exact after
  · rw [renderWith_named named free, plainText_eq, complete]
    refine text.imp (And.imp_left (congrArg s.around ·)) (And.imp_left fun shorter => ?_)
    exact length_around (by rw [count, List.length_map]) shorter

theorem writes (flat : s.Flat) (shown : List String) : Writes shown s := by
  induction s using byChildren generalizing shown with
  | step s ih =>
    by_cases isVariable : s.kind = .typeVariable
    · exact writes_variable isVariable (flat.bare isVariable) shown
    · refine writes_named isVariable flat.1 (fun a ha shown => ?_) shown
      have inside : a ∈ s.children := mem_children.mpr (.inl ha)
      exact ih a inside (flat.child inside) shown

theorem fullName_eq_plainText_iff (flat : s.Flat) :
    s.fullName = s.plainText ↔ Complete [] s.nodes := by
  rcases (writes flat []).text with ⟨same, kept⟩ | ⟨shorter, lost⟩
  · exact ⟨fun _ => kept, fun _ => same⟩
  · refine ⟨fun same => ?_, fun kept => absurd kept lost⟩
    rw [← same] at shorter
    exact absurd shorter (Nat.lt_irrefl _)

end Flat

section Marks

variable {s : Signature}

theorem plainText_markVariables (isVariable : String → Bool) (s : Signature) :
    (s.markVariables isVariable).plainText = s.plainText := by
  induction s using byChildren with
  | step s ih =>
    rw [plainText_eq, plainText_eq s]
    obtain ⟨kind, name, dimension, arguments, supers, uppers, varargs, linked⟩ := s
    have inside : (arguments.map (markVariables isVariable)).map plainText =
        arguments.map plainText := by
      rw [List.map_map]
      exact List.map_congr_left fun a ha => ih a (mem_children.mpr (.inl ha))
    simp only [markVariables, markVariablesAll_eq_map, inside, around]

/-- Where nothing was a variable before, only types without arguments become variables. -/
theorem flat_markVariables (isVariable : String → Bool) (free : s.BoundFree)
    (unmarked : s.VariableFree) : (s.markVariables isVariable).Flat := by
  rw [Flat, BoundFree, nodes_markVariables]
  simp only [List.forall_mem_map]
  refine ⟨fun n hn => ?_, fun n hn => ?_⟩
  · obtain ⟨lower, upper⟩ := free n hn
    obtain ⟨kind, name, dimension, arguments, supers, uppers, varargs, linked⟩ := n
    cases lower
    cases upper
    exact ⟨rfl, rfl⟩
  · have other := unmarked n hn
    obtain ⟨kind, name, dimension, arguments, supers, uppers, varargs, linked⟩ := n
    intro marked
    cases arguments with
    | nil => rfl
    | cons a rest => simp_all [markVariables]

theorem not_boundFree_withBounds {side : BoundSide} {bounds : List Signature} (some : bounds ≠ []) :
    ¬(s.withBounds side bounds).BoundFree := by
  intro free
  obtain ⟨lower, upper⟩ := free _ (mem_nodes_self _)
  cases side with
  | upper => exact some upper
  | lower => exact some lower

/-- Reading makes variables only where it makes bounds. -/
theorem variableFree_of_readType {whole : String} {text : List Char}
    (read : readType whole text = .ok s) : s.BoundFree → s.VariableFree := by
  refine @of_readType (fun s => s.BoundFree → s.VariableFree) whole ?_ ?_ ?_ ?_ text s read
  · intro _
    simp [VariableFree, anyType, ofName, nodes, nodesAll]
  · exact fun side bounds some _ free => absurd free (not_boundFree_withBounds some)
  · intro head side bounds some _ _ free
    refine absurd free (not_boundFree_withBounds ?_)
    simpa [markVariablesAll_eq_map] using some
  · intro bare arguments inside free
    rw [VariableFree, free.nodes_eq]
    refine List.forall_mem_cons.mpr ⟨?_, fun n hn => ?_⟩
    · simp only [ofBareText, ofName]
      split <;> simp
    · obtain ⟨a, ha, hn⟩ := List.mem_flatMap.mp hn
      exact inside a ha (free.child (mem_children.mpr (.inl ha))) n hn

theorem variableFree_of_parse {expression : String} (read : parse expression = .ok s)
    (free : s.BoundFree) : s.VariableFree := by
  obtain ⟨_, t, varargs, ht, rfl⟩ := exists_readType_of_parse read
  -- The ellipsis is a matter of the root alone.
  rw [BoundFree, nodes_eq, List.forall_mem_cons] at free
  have inside : t.BoundFree := by
    rw [BoundFree, nodes_eq, List.forall_mem_cons]
    exact free
  have unmarked := variableFree_of_readType ht inside
  rw [VariableFree, nodes_eq, List.forall_mem_cons] at unmarked ⊢
  exact unmarked

/-- The written form of a type that is read without bounds is the same after marking variables
exactly if only the first mention of a marked variable has an array suffix. -/
theorem fullName_markVariables_iff {expression : String} (read : parse expression = .ok s)
    (free : s.BoundFree) (isVariable : String → Bool) :
    (s.markVariables isVariable).fullName = s.fullName ↔
      (s.markVariables isVariable).nodes.Pairwise fun m n => m.kind = .typeVariable →
        n.kind = .typeVariable → m.name = n.name → n.dimension = "" := by
  have unmarked := variableFree_of_parse read free
  have before : s.fullName = s.plainText := by
    have flat : s.Flat := ⟨free, fun n hn marked => absurd marked (unmarked n hn)⟩
    refine (fullName_eq_plainText_iff flat).mpr (complete_iff.mpr ⟨?_, ?_⟩)
    · exact fun n hn marked => absurd marked (unmarked n hn)
    · exact List.pairwise_of_forall_mem_list fun m hm n _ marked => absurd marked (unmarked m hm)
  have after := fullName_eq_plainText_iff (flat_markVariables isVariable free unmarked)
  rw [before, ← plainText_markVariables isVariable, after, complete_iff]
  simp

/-- Here the first mention has the suffix. -/
theorem fullName_markVariables_suffixFirst : ∃ s,
    parse "java.util.Map<T[], java.util.List<T>>" = .ok s ∧ s.BoundFree ∧
      (s.markVariables (· == "T")).fullName = s.fullName := by
  have accepted : (parse "java.util.Map<T[], java.util.List<T>>").toOption.any (fun s =>
      decide s.BoundFree && decide ((s.markVariables (· == "T")).nodes.Pairwise fun m n =>
        m.kind = .typeVariable → n.kind = .typeVariable → m.name = n.name → n.dimension = "")) =
      true := by decide +kernel
  obtain ⟨s, read, checked⟩ := exists_ok_of_any accepted
  obtain ⟨free, apart⟩ := Bool.and_eq_true_iff.mp checked
  exact ⟨s, read, of_decide_eq_true free,
    (fullName_markVariables_iff read (of_decide_eq_true free) _).mpr (of_decide_eq_true apart)⟩

/-- Marking variables leaves the written form of types without bounds alone. -/
def MarkingInvisible : Prop :=
  ∀ (expression : String) (s : Signature), parse expression = .ok s → s.BoundFree →
    ∀ isVariable : String → Bool, (s.markVariables isVariable).fullName = s.fullName

/-- The suffix of a second mention is lost: `T[], T` is written instead of `T[], T[]`. -/
theorem suffix_lost : ¬MarkingInvisible := by
  intro invisible
  have accepted : (parse "java.util.Map<T[], T[]>").toOption.any (fun s =>
      decide s.BoundFree && decide (s.fullName = "java.util.Map<T[], T[]>") &&
        decide ((s.markVariables (· == "T")).fullName = "java.util.Map<T[], T>")) = true := by
    decide +kernel
  obtain ⟨s, read, checked⟩ := exists_ok_of_any accepted
  simp only [Bool.and_eq_true, decide_eq_true_eq] at checked
  obtain ⟨⟨free, before⟩, after⟩ := checked
  have same := invisible _ s read free (· == "T")
  rw [before, after] at same
  exact absurd same (by decide)

end Marks

end ApiCompat.Signature
