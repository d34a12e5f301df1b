import ApiCompat.Proofs.Signature.Nodes
import ApiCompat.Proofs.Signature.Renaming

/-! Erasure as a walk along first bounds. From every type one chain of bounds leads on, and it comes
to an end whatever the bounds refer to, for no variable is passed twice. The erasure is the name at
the end of the chain, with the array suffixes met on the way written from the last one back. -/
namespace ApiCompat.Signature

/-- A parameter with one bound. -/
def boundedBy (bound : Signature) (name : String) : Signature :=
  { ofName .typeVariable name with extendsBounds := [bound] }

/-- The bound that stands for a type in its erasure: that in force for a variable, the upper one of
a wildcard. -/
def nextBound? (scope : Scope) (s : Signature) : Option Signature :=
  match s.kind with
  | .typeVariable => s.firstBound? scope
  | .wildcard => s.extendsBounds.head?
  | .primitive => none
  | .classType => none

/-- The names of the variables passed, that of this type included. -/
def passing (s : Signature) (passed : List String) : List String :=
  if s.isTypeVariable then s.name :: passed else passed

/-- The types met along first bounds, when the variables `passed` were met before. -/
inductive BoundChain (scope : Scope) : List String → Signature → List Signature → Prop where
  | again {passed : List String} {s : Signature} : s.kind = .typeVariable → s.name ∈ passed →
      BoundChain scope passed s [s]
  | last {passed : List String} {s : Signature} : s.nextBound? scope = none →
      BoundChain scope passed s [s]
  | beyond {passed : List String} {s bound : Signature} {chain : List Signature} :
      ¬(s.kind = .typeVariable ∧ s.name ∈ passed) → s.nextBound? scope = some bound →
      BoundChain scope (s.passing passed) bound chain → BoundChain scope passed s (s :: chain)

/-- A type that is its own erasure, up to arguments. -/
def isNamed (s : Signature) : Bool := s.kind == .primitive || s.kind == .classType

/-- The name of the first primitive or class of a chain. -/
def target (chain : List Signature) : String :=
  ((chain.find? isNamed).map (·.name)).getD rootClass

/-- The array suffixes of a chain below its first type. The bound of a wildcard gives none. -/
def inheritedDimension : List Signature → String
  | s :: bound :: rest =>
    inheritedDimension (bound :: rest) ++ (if s.isWildcard then "" else bound.dimension)
  | _ => ""

/-- The signature stands in a bound that the scope declares. -/
def InBounds (scope : Scope) (n : Signature) : Prop :=
  ∃ p ∈ scope.parameters, ∃ bound ∈ p.extendsBounds, n ∈ bound.nodes

theorem isNamed_iff {s : Signature} :
    s.isNamed = true ↔ s.kind = .primitive ∨ s.kind = .classType := by
  simp [isNamed]

theorem fullDimension_eq (s : Signature) :
    s.fullDimension = s.dimension ++ if s.varargs then "[]" else "" := by
  rw [fullDimension]
  split <;> simp

section Steps

variable {scope : Scope} {passed : List String} {s bound : Signature}

theorem nextBound?_of_variable (h : s.kind = .typeVariable) :
    s.nextBound? scope = s.firstBound? scope := by
  rw [nextBound?, h]

theorem nextBound?_of_wildcard (h : s.kind = .wildcard) :
    s.nextBound? scope = s.extendsBounds.head? := by
  rw [nextBound?, h]

theorem nextBound?_of_named (h : s.isNamed = true) : s.nextBound? scope = none := by
  rcases isNamed_iff.mp h with h | h <;> rw [nextBound?, h]

theorem passing_of_variable (h : s.kind = .typeVariable) : s.passing passed = s.name :: passed := by
  simp [passing, isTypeVariable, h]

theorem passing_of_not_variable (h : s.kind ≠ .typeVariable) : s.passing passed = passed := by
  simp [passing, isTypeVariable, h]

/-- Only variables and wildcards lead on. -/
theorem kind_of_nextBound? (h : s.nextBound? scope = some bound) :
    s.kind = .typeVariable ∨ s.kind = .wildcard := by
  cases kind : s.kind with
  | typeVariable => exact .inl rfl
  | wildcard => exact .inr rfl
  | primitive => rw [nextBound?, kind] at h; cases h
  | classType => rw [nextBound?, kind] at h; cases h

theorem isNamed_of_nextBound? (h : s.nextBound? scope = some bound) : s.isNamed = false := by
  rcases kind_of_nextBound? h with kind | kind <;> simp [isNamed, kind]

/-- A bound in force is written on the type or declared in the scope. -/
theorem mem_of_nextBound? (h : s.nextBound? scope = some bound) :
    bound ∈ s.extendsBounds ∨ ∃ p ∈ scope.parameters, bound ∈ p.extendsBounds := by
  rcases kind_of_nextBound? h with kind | kind
  · rw [nextBound?_of_variable kind, firstBound?] at h
    cases own : s.extendsBounds with
    | cons first others =>
      rw [own] at h
      cases h
      exact .inl List.mem_cons_self
    | nil =>
      rw [own] at h
      obtain ⟨p, found, first⟩ := Option.bind_eq_some_iff.mp h
      exact .inr ⟨p, List.mem_of_find?_eq_some found, List.mem_of_head? first⟩
  · rw [nextBound?_of_wildcard kind] at h
    exact .inl (List.mem_of_head? h)

theorem target_cons_of_unnamed {chain : List Signature} (h : s.isNamed = false) :
    target (s :: chain) = target chain := by
  rw [target, List.find?_cons_of_neg (by simp [h]), target]

theorem erasedBase_of_again (isVariable : s.kind = .typeVariable) (seen : s.name ∈ passed) :
    erasedBase scope passed s = rootClass := by
  rw [erasedBase_of_variable isVariable, if_pos seen]

theorem erasedBase_of_last (none : s.nextBound? scope = none) :
    erasedBase scope passed s = target [s] := by
  cases kind : s.kind with
  | primitive => simp [erasedBase_of_named (.inl kind), target, isNamed, kind]
  | classType => simp [erasedBase_of_named (.inr kind), target, isNamed, kind]
  | wildcard =>
    rw [nextBound?_of_wildcard kind, List.head?_eq_none_iff] at none
    simp [erasedBase_of_wildcard kind, none, target, isNamed, kind]
  | typeVariable =>
    rw [nextBound?_of_variable kind] at none
    simp [erasedBase_of_variable kind, none, target, isNamed, kind]

/-- One step of the walk: the bound is erased in place of the type. -/
theorem erasedBase_of_nextBound? (fresh : ¬(s.kind = .typeVariable ∧ s.name ∈ passed))
    (next : s.nextBound? scope = some bound) :
    erasedBase scope passed s = erasedBase scope (s.passing passed) bound ++
      if s.isWildcard then "" else bound.dimension := by
  rcases kind_of_nextBound? next with kind | kind
  · rw [nextBound?_of_variable kind] at next
    rw [erasedBase_of_variable kind, if_neg fun seen => fresh ⟨kind, seen⟩, next,
      passing_of_variable kind]
    simp [isWildcard, kind]
  · rw [nextBound?_of_wildcard kind] at next
    obtain ⟨others, first⟩ := List.head?_eq_some_iff.mp next
    rw [erasedBase_of_wildcard kind, first, passing_of_not_variable (by simp [kind])]
    simp [isWildcard, kind]

end Steps

namespace BoundChain

variable {scope : Scope} {passed : List String} {s : Signature} {chain : List Signature}

theorem starts (h : BoundChain scope passed s chain) : ∃ rest, chain = s :: rest := by
  cases h with
  | again _ _ => exact ⟨[], rfl⟩
  | last _ => exact ⟨[], rfl⟩
  | beyond _ _ _ => exact ⟨_, rfl⟩

theorem exists_chain (scope : Scope) (passed : List String) (s : Signature) :
    ∃ chain, BoundChain scope passed s chain := by
  fun_induction erasedBase scope passed s with
  | case1 passed s primitive =>
    exact ⟨[s], .last (nextBound?_of_named (isNamed_iff.mpr (.inl primitive)))⟩
  | case2 passed s classType =>
    exact ⟨[s], .last (nextBound?_of_named (isNamed_iff.mpr (.inr classType)))⟩
  | case3 passed s wildcard bound others bounds ih =>
    obtain ⟨chain, beyond⟩ := ih
    have next : s.nextBound? scope = some bound := by
      rw [nextBound?_of_wildcard wildcard, bounds]
      rfl
    refine ⟨s :: chain, .beyond (by simp [wildcard]) next ?_⟩
    rwa [passing_of_not_variable (by simp [wildcard])]
  | case4 passed s wildcard bounds =>
    exact ⟨[s], .last (by rw [nextBound?_of_wildcard wildcard, bounds]; rfl)⟩
  | case5 passed s isVariable seen => exact ⟨[s], .again isVariable seen⟩
  | case6 passed s isVariable unseen bound found ih =>
    obtain ⟨chain, beyond⟩ := ih
    have next : s.nextBound? scope = some bound := (nextBound?_of_variable isVariable).trans found
    refine ⟨s :: chain, .beyond (fun h => unseen h.2) next ?_⟩
    rwa [passing_of_variable isVariable]
  | case7 passed s isVariable unseen unbounded =>
    exact ⟨[s], .last ((nextBound?_of_variable isVariable).trans unbounded)⟩

theorem unique {other : List Signature} (h : BoundChain scope passed s chain)
    (h' : BoundChain scope passed s other) : other = chain := by
  induction h generalizing other with
  | again isVariable seen =>
    cases h' with
    | again _ _ => rfl
    | last _ => rfl
    | beyond fresh _ _ => exact absurd ⟨isVariable, seen⟩ fresh
  | last none =>
    cases h' with
    | again _ _ => rfl
    | last _ => rfl
    | beyond _ next _ => cases none.symm.trans next
  | beyond fresh next _ ih =>
    cases h' with
    | again isVariable seen => exact absurd ⟨isVariable, seen⟩ fresh
    | last none => cases none.symm.trans next
    | beyond _ next' rest' =>
      cases Option.some.inj (next.symm.trans next')
      rw [ih rest']

/-- Every type of the chain is written in the first one or in a declared bound. -/
theorem occurs (h : BoundChain scope passed s chain) :
    ∀ n ∈ chain, n ∈ s.nodes ∨ InBounds scope n := by
  induction h with
  | @again _ s _ _ => simpa using .inl (mem_nodes_self s)
  | @last _ s _ => simpa using .inl (mem_nodes_self s)
  | @beyond _ s bound chain _ next _ ih =>
    intro n hn
    rcases List.mem_cons.mp hn with rfl | hn
    · exact .inl (mem_nodes_self n)
    rcases ih n hn with inside | declared
    · rcases mem_of_nextBound? next with own | ⟨p, hp, declared⟩
      · exact .inl (mem_nodes_of_child (mem_children.mpr (.inr (.inr own))) inside)
      · exact .inr ⟨p, hp, bound, declared, inside⟩
    · exact .inr declared

/-- The erasure without the suffix of the type itself is read off the chain. -/
theorem erasedBase (h : BoundChain scope passed s chain) :
    Signature.erasedBase scope passed s = target chain ++ inheritedDimension chain := by
  induction h with
  | again isVariable seen =>
    rw [erasedBase_of_again isVariable seen]
    simp [target, isNamed, isVariable, inheritedDimension]
  | last none => simp [erasedBase_of_last none, inheritedDimension]
  | beyond fresh next rest ih =>
    obtain ⟨others, rfl⟩ := rest.starts
    rw [erasedBase_of_nextBound? fresh next, ih, inheritedDimension,
      target_cons_of_unnamed (isNamed_of_nextBound? next), String.append_assoc]

theorem erasure (h : BoundChain scope [] s chain) :
    s.erasure scope = target chain ++ inheritedDimension chain ++ s.fullDimension := by
  rw [Signature.erasure, h.erasedBase]

end BoundChain

/-- Where no wildcard is met, all suffixes of the chain are written, from the last one back. -/
theorem inheritedDimension_append {s : Signature} {rest : List Signature}
    (plain : ∀ n ∈ s :: rest, n.kind ≠ .wildcard) :
    inheritedDimension (s :: rest) ++ s.dimension =
      String.join ((s :: rest).reverse.map (·.dimension)) := by
  induction rest generalizing s with
  | nil => simp [inheritedDimension]
  | cons bound rest ih =>
    have own : s.isWildcard = false := by simpa [isWildcard] using plain s List.mem_cons_self
    have below := ih fun n hn => plain n (List.mem_cons_of_mem _ hn)
    rw [inheritedDimension, own, if_neg (by decide), below]
    simp [String.join_append, String.append_assoc]

/-- From every type one chain of first bounds leads to an end, and it gives the erasure. Below a
variable, where no wildcard is met, the erasure is the first primitive or class of the chain, else
the root class, and behind it the suffixes of all types met, the last one first. The base is always
the root class or a primitive or class that is written in the type or in a declared bound. -/
theorem erasure_follows_bounds (scope : Scope) (s : Signature) :
    (∃! chain, BoundChain scope [] s chain) ∧
    ∀ chain, BoundChain scope [] s chain →
      s.erasure scope = target chain ++ inheritedDimension chain ++ s.fullDimension ∧
      (s.kind = .typeVariable → (∀ n ∈ chain, n.kind ≠ .wildcard) →
        s.erasure scope = target chain ++ String.join (chain.reverse.map (·.dimension)) ++
          if s.varargs then "[]" else "") ∧
      (target chain = rootClass ∨ ∃ n, n.isNamed = true ∧ target chain = n.name ∧
        (n ∈ s.nodes ∨ InBounds scope n)) := by
  refine ⟨?_, fun chain h => ⟨h.erasure, fun _ plain => ?_, ?_⟩⟩
  · obtain ⟨chain, h⟩ := BoundChain.exists_chain scope [] s
    exact ⟨chain, h, fun other h' => h.unique h'⟩
  · obtain ⟨rest, rfl⟩ := h.starts
    have suffixes := inheritedDimension_append plain
    rw [h.erasure, fullDimension_eq, ← suffixes]
    simp only [String.append_assoc]
  · cases named : chain.find? isNamed with
    | none => exact .inl (by rw [target, named]; rfl)
    | some n =>
      refine .inr ⟨n, List.find?_some named, by rw [target, named]; rfl, ?_⟩
      exact h.occurs n (List.mem_of_find?_eq_some named)

/-- Two variables, declared in different lists, that are bounded by arrays of each other. -/
def entangled : Scope :=
  Scope.empty.push [boundedBy { ofName .typeVariable "U" with dimension := "[][]" } "T"]
    |>.push [boundedBy { ofName .typeVariable "T" with dimension := "[]" } "U"]

/-- A parameter of the type `T...`, its bound and the bound of that. -/
def entangledChain : List Signature :=
  [{ ofName .typeVariable "T" with varargs := true },
    { ofName .typeVariable "U" with dimension := "[][]" },
    { ofName .typeVariable "T" with dimension := "[]" }]

theorem erasure_entangled : ∃ s, BoundChain entangled [] s entangledChain ∧
    s.kind = .typeVariable ∧ (∀ n ∈ entangledChain, n.kind ≠ .wildcard) ∧
    s.erasure entangled = "java.lang.Object" ++ "[]" ++ "[][]" ++ "[]" := by
  have chain : BoundChain entangled [] _ entangledChain :=
    .beyond (by decide) rfl (.beyond (by decide) rfl (.again rfl (by decide)))
  have plain : ∀ n ∈ entangledChain, n.kind ≠ .wildcard := by simp [entangledChain, ofName]
  exact ⟨_, chain, rfl, plain, ((erasure_follows_bounds entangled _).2 _ chain).2.1 rfl plain⟩

end ApiCompat.Signature
