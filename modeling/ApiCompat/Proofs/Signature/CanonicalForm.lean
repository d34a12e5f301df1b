import ApiCompat.Proofs.Signature.BoundChain
import ApiCompat.Proofs.Signature.Parameters
import ApiCompat.Proofs.Text.Outside

/-! Canonical form and erasure. The two are written on their own, the one with the arguments at every
depth and the other without them. As no name and no suffix has an angle bracket, the brackets of the
canonical form are those of its arguments, and they close. So the erasure is what is left of the
canonical form outside its brackets, and types of one canonical form have one erasure. -/
namespace ApiCompat

open Text

/-- A text without what stands in angle brackets. -/
def withoutGroups (text : String) : String := String.ofList (outsideBrackets 0 text.toList)

namespace Signature

/-- No name and no suffix has an angle bracket, in the type or in a bound that the scope declares. -/
def Unbracketed (scope : Scope) (s : Signature) : Prop :=
  ∀ n, n ∈ s.nodes ∨ InBounds scope n → AngleFree n.name ∧ AngleFree n.dimension

section AngleFree

theorem AngleFree.append {front back : String} (free : AngleFree front) (free' : AngleFree back) :
    AngleFree (front ++ back) := by
  intro c h
  rw [String.toList_append] at h
  exact (List.mem_append.mp h).elim (free c) (free' c)

theorem angleFree_ellipsis (varargs : Bool) : AngleFree (if varargs then "[]" else "") := by
  cases varargs <;> simp [AngleFree]

variable {scope : Scope} {s : Signature} {chain : List Signature}

theorem angleFree_target (free : ∀ n ∈ chain, AngleFree n.name) : AngleFree (target chain) := by
  cases named : chain.find? isNamed with
  | none =>
    rw [target, named]
    simp [AngleFree, rootClass]
  | some n =>
    rw [target, named]
    exact free n (List.mem_of_find?_eq_some named)

theorem angleFree_inheritedDimension (free : ∀ n ∈ chain, AngleFree n.dimension) :
    AngleFree (inheritedDimension chain) := by
  induction chain with
  | nil => exact angleFree_any.2
  | cons s rest ih =>
    cases rest with
    | nil => exact angleFree_any.2
    | cons bound rest =>
      refine (ih fun n h => free n (List.mem_cons_of_mem s h)).append ?_
      split
      · exact angleFree_any.2
      · exact free bound (by simp)

/-- The walk of the erasure meets only names and suffixes of the type and of declared bounds. -/
theorem Unbracketed.erasedBase (free : s.Unbracketed scope) (passed : List String) :
    AngleFree (s.erasedBase scope passed) := by
  obtain ⟨chain, walk⟩ := BoundChain.exists_chain scope passed s
  have each (n : Signature) (h : n ∈ chain) := free n (walk.occurs n h)
  rw [walk.erasedBase]
  exact (angleFree_target fun n h => (each n h).1).append
    (angleFree_inheritedDimension fun n h => (each n h).2)

theorem Unbracketed.fullDimension (free : s.Unbracketed scope) : AngleFree s.fullDimension := by
  rw [fullDimension_eq]
  exact (free s (.inl (mem_nodes_self s))).2.append (angleFree_ellipsis s.varargs)

theorem Unbracketed.child (free : s.Unbracketed scope) {t : Signature} (inside : t ∈ s.children) :
    t.Unbracketed scope := by
  rintro n (h | declared)
  · exact free n (.inl (mem_nodes_of_child inside h))
  · exact free n (.inr declared)

/-- What is read has no such bracket, in a scope of parameters that are read. -/
theorem unbracketed_of_parse {expression : String} (read : parse expression = .ok s)
    (declared : ∀ p ∈ scope.parameters, ∃ list parameters,
      parseParameters list = .ok parameters ∧ p ∈ parameters) : s.Unbracketed scope := by
  rintro n (inside | ⟨p, hp, bound, hbound, inside⟩)
  · exact angleFree_of_parse read n inside
  · obtain ⟨list, parameters, hread, h⟩ := declared p hp
    have child : bound ∈ p.children := mem_children.mpr (.inr (.inr hbound))
    exact angleFree_of_parseParameters hread p h n (mem_nodes_of_child child inside)

end AngleFree

section Canonical

variable {scope : Scope} {s : Signature}

/-- The arguments of a type as its canonical form shows them. -/
def canonicalArguments (scope : Scope) (s : Signature) : String :=
  if s.arguments.isEmpty then ""
  else "<" ++ ",".intercalate (s.arguments.map (canonical scope)) ++ ">"

/-- The canonical form of a wildcard begins with the one bound that it shows. -/
theorem canonical_of_wildcard (kind : s.kind = .wildcard) : ∃ head,
    s.canonical scope = head ++ s.canonicalArguments scope ++ s.fullDimension ∧
      (head = "?" ∨ ∃ bound ∈ s.children, head = "? super " ++ bound.canonical scope ∨
        head = "? extends " ++ bound.canonical scope) := by
  obtain ⟨_, name, dimension, arguments, supers, uppers, varargs, linked⟩ := s
  cases kind
  simp only [canonical, canonicalAll_eq_map, canonicalArguments, fullDimension]
  refine ⟨_, rfl, ?_⟩
  cases supers with
  | cons bound others =>
    exact .inr ⟨bound, mem_children.mpr (.inr (.inl List.mem_cons_self)), .inl rfl⟩
  | nil =>
    cases uppers with
    | cons bound others =>
      exact .inr ⟨bound, mem_children.mpr (.inr (.inr List.mem_cons_self)), .inr rfl⟩
    | nil => exact .inl rfl

/-- Any other type begins with its erasure, without the suffix. -/
theorem canonical_of_base (kind : s.kind ≠ .wildcard) : s.canonical scope =
    s.erasedBase scope [] ++ s.canonicalArguments scope ++ s.fullDimension := by
  have named (h : s.kind = .primitive ∨ s.kind = .classType) : s.erasedBase scope [] = s.name :=
    erasedBase_of_named h
  obtain ⟨base, name, dimension, arguments, supers, uppers, varargs, linked⟩ := s
  cases base with
  | wildcard => exact absurd rfl kind
  | typeVariable => simp only [canonical, canonicalAll_eq_map, canonicalArguments, fullDimension]
  | primitive | classType =>
    rw [named (by simp)]
    simp only [canonical, canonicalAll_eq_map, canonicalArguments, fullDimension]

theorem toList_canonicalArguments (closes : ∀ a ∈ s.arguments, Closes 0 (a.canonical scope).toList) :
    (s.canonicalArguments scope).toList = [] ∨ ∃ inside, Closes 0 inside ∧
      (s.canonicalArguments scope).toList = '<' :: (inside ++ ['>']) := by
  rw [canonicalArguments]
  split
  · exact .inl rfl
  · refine .inr ⟨[','].intercalate ((s.arguments.map (canonical scope)).map String.toList), ?_, ?_⟩
    · have comma : Closes 0 [','] := closes_plain (by simp)
      refine comma.intercalate fun text h => ?_
      simp only [List.map_map, List.mem_map] at h
      obtain ⟨a, ha, rfl⟩ := h
      exact closes a ha
    · simp [String.toList_intercalate]

/-- The brackets of a canonical form close, at whatever depth it shows arguments and wildcards. -/
theorem closes_canonical (free : s.Unbracketed scope) : Closes 0 (s.canonical scope).toList := by
  induction s using byChildren with
  | step s ih =>
    have inside (t : Signature) (h : t ∈ s.children) : Closes 0 (t.canonical scope).toList :=
      ih t h (free.child h)
    have arguments : Closes 0 (s.canonicalArguments scope).toList := by
      rcases @toList_canonicalArguments scope s fun a ha => inside a (mem_children.mpr (.inl ha)) with
        none | ⟨_, closes, group⟩
      · rw [none]
        exact closes_plain (by simp)
      · rw [group]
        exact closes.group
    have suffix : Closes 0 s.fullDimension.toList := closes_plain free.fullDimension
    by_cases kind : s.kind = .wildcard
    · obtain ⟨head, whole, shown⟩ := @canonical_of_wildcard scope s kind
      have start : Closes 0 head.toList := by
        rcases shown with rfl | ⟨bound, h, rfl | rfl⟩
        · exact closes_plain (by simp)
        · rw [String.toList_append]
          exact (closes_plain (by simp)).append (inside bound h)
        · rw [String.toList_append]
          exact (closes_plain (by simp)).append (inside bound h)
      rw [whole, String.toList_append, String.toList_append]
      exact (start.append arguments).append suffix
    · rw [canonical_of_base kind, String.toList_append, String.toList_append]
      exact ((closes_plain (free.erasedBase [])).append arguments).append suffix

theorem withoutGroups_canonical (free : s.Unbracketed scope) (kind : s.kind ≠ .wildcard) :
    withoutGroups (s.canonical scope) = s.erasure scope := by
  have base := free.erasedBase []
  have nothing : outsideBrackets 0 (s.canonicalArguments scope).toList = [] ∧
      depthOf 0 (s.canonicalArguments scope).toList = 0 := by
    rcases @toList_canonicalArguments scope s fun a ha =>
        closes_canonical (free.child (mem_children.mpr (.inl ha))) with none | ⟨_, closes, group⟩
    · rw [none]
      exact ⟨rfl, rfl⟩
    · rw [group]
      exact ⟨outsideBrackets_group closes [], closes.depthOf_group⟩
  rw [withoutGroups, canonical_of_base kind, String.toList_append, String.toList_append,
    outsideBrackets_append, outsideBrackets_append, depthOf_append, depthOf_plain 0 base, nothing.1,
    nothing.2, outsideBrackets_plain base, outsideBrackets_plain free.fullDimension, erasure]
  simp

end Canonical

/-- What is left of a canonical form outside its brackets is the erasure, for every type but a
wildcard, so types of one canonical form have one erasure. A method or constructor whose parameters
keep their canonical forms keeps its key. No bracket is in the names and suffixes of what is read, in
a scope of parameters that are read. -/
theorem erasure_of_canonical :
    (∀ scope s, Unbracketed scope s → s.kind ≠ .wildcard →
      withoutGroups (s.canonical scope) = s.erasure scope) ∧
    (∀ scope scope' s t, Unbracketed scope s → Unbracketed scope' t → s.kind ≠ .wildcard →
      t.kind ≠ .wildcard → s.canonical scope = t.canonical scope' →
      s.erasure scope = t.erasure scope') ∧
    (∀ (outer outer' : Scope) (c d : Callable), c.name = d.name →
      (∀ p ∈ c.parameters, Unbracketed (c.scope outer) p.type ∧ p.type.kind ≠ .wildcard) →
      (∀ p ∈ d.parameters, Unbracketed (d.scope outer') p.type ∧ p.type.kind ≠ .wildcard) →
      (c.parameters.map fun p => p.type.canonical (c.scope outer)) =
        (d.parameters.map fun p => p.type.canonical (d.scope outer')) →
      c.key outer = d.key outer') ∧
    ∀ (scope : Scope) expression s, parse expression = .ok s →
      (∀ p ∈ scope.parameters, ∃ list parameters,
        parseParameters list = .ok parameters ∧ p ∈ parameters) → s.Unbracketed scope := by
  refine ⟨fun scope s => withoutGroups_canonical, ?_, ?_, fun _ _ _ => unbracketed_of_parse⟩
  · intro scope scope' s t free free' kind kind' same
    rw [← withoutGroups_canonical free kind, same, withoutGroups_canonical free' kind']
  · intro outer outer' c d name free free' same
    have erased {outer : Scope} {c : Callable}
        (free : ∀ p ∈ c.parameters, Unbracketed (c.scope outer) p.type ∧ p.type.kind ≠ .wildcard) :
        c.erasedParameters outer =
          (c.parameters.map fun p => p.type.canonical (c.scope outer)).map withoutGroups := by
      rw [Callable.erasedParameters, List.map_map]
      exact List.map_congr_left fun p hp => (withoutGroups_canonical (free p hp).1 (free p hp).2).symm
    rw [Callable.key, Callable.key, name, erased free, erased free', same]

/-- One variable, bounded by a type with the variable for its argument. -/
def ordered (name : String) : Scope :=
  Scope.empty.push
    [boundedBy { ofName .classType "q.Order" with arguments := [ofName .typeVariable name] } name]

/-- The type `q.Map<? super T[], T>...` -/
def ordering (name : String) : Signature :=
  { ofName .classType "q.Map" with
    arguments := [anyType.withBounds .lower [{ ofName .typeVariable name with dimension := "[]" }],
      ofName .typeVariable name]
    varargs := true }

theorem unbracketed_ordering {name : String} (free : AngleFree name) :
    Unbracketed (ordered name) (ordering name) := by
  have plain : AngleFree "q.Map" ∧ AngleFree "q.Order" ∧ AngleFree "?" ∧ AngleFree "" ∧
      AngleFree "[]" := by
    simp [AngleFree]
  rintro n (h | ⟨p, hp, bound, hbound, h⟩)
  · simp [ordering, nodes_eq, children, ofName, anyType, withBounds] at h
    rcases h with rfl | rfl | rfl | rfl <;> simp [plain, free]
  · simp [ordered, Scope.parameters, Scope.push, Scope.empty, boundedBy] at hp
    subst hp
    simp [ofName] at hbound
    subst hbound
    simp [nodes_eq, children] at h
    rcases h with rfl | rfl <;> simp [plain, free]

theorem canonical_ordering (name : String) :
    (ordering name).canonical (ordered name) = "q.Map<? super q.Order[],q.Order>[]" := by
  have base (dimension : String) : erasedBase (ordered name) []
      { ofName .typeVariable name with dimension } = "q.Order" := by
    rw [erasedBase_of_variable rfl]
    simp [firstBound?, ordered, Scope.lookup, Scope.parameters, Scope.push, Scope.empty, boundedBy,
      ofName, erasedBase]
  simp only [ofName] at base
  simp only [ordering, ofName, anyType, withBounds, canonical, canonicalAll, base]
  rfl

/-- A type in two scopes that differ in the name of a variable. -/
theorem erasure_of_canonical_ordering :
    Unbracketed (ordered "T") (ordering "T") ∧ Unbracketed (ordered "U") (ordering "U") ∧
      (ordering "T").kind ≠ .wildcard ∧ (ordering "U").kind ≠ .wildcard ∧
      (ordering "T").canonical (ordered "T") = (ordering "U").canonical (ordered "U") ∧
      withoutGroups ((ordering "T").canonical (ordered "T")) = (ordering "T").erasure (ordered "T") ∧
      (ordering "T").erasure (ordered "T") = (ordering "U").erasure (ordered "U") := by
  have first : Unbracketed (ordered "T") (ordering "T") :=
    unbracketed_ordering (by simp [AngleFree])
  have second : Unbracketed (ordered "U") (ordering "U") :=
    unbracketed_ordering (by simp [AngleFree])
  have same : (ordering "T").canonical (ordered "T") = (ordering "U").canonical (ordered "U") := by
    rw [canonical_ordering, canonical_ordering]
  have other (name : String) : (ordering name).kind ≠ .wildcard := by simp [ordering, ofName]
  obtain ⟨left, equal, _⟩ := erasure_of_canonical
  exact ⟨first, second, other _, other _, same, left _ _ first (other _),
    equal _ _ _ _ first second (other _) (other _) same⟩

end Signature

end ApiCompat
