import ApiCompat.Proofs.Signature.Attachment
import ApiCompat.Proofs.Signature.BoundChain

/-! Which variables carry copies of their declared bounds. Where types are written with bare
variables, copying yields expansions: on the way from the root to any place a variable is expanded
once at most, with all its declared bounds, and it stays bare only inside its own expansion. -/
namespace ApiCompat.Signature

/-- A variable that carries upper bounds. -/
def Expanded (s : Signature) : Prop := s.kind = .typeVariable ∧ s.extendsBounds ≠ []

/-- All variables in the signature are written without arguments and bounds. -/
def VariablesBare (s : Signature) : Prop :=
  ∀ n ∈ s.nodes, n.kind = .typeVariable → n.children = []

/-- The way from a signature to one inside it, both included. -/
inductive Way : Signature → List Signature → Prop where
  | here (s : Signature) : Way s [s]
  | down {s t : Signature} {way : List Signature} : t ∈ s.children → Way t way → Way s (s :: way)

/-- The way leads through a bound of a variable of this name. -/
def InOwnBounds (way : List Signature) (name : String) : Prop :=
  ∃ above m bound below, way = above ++ m :: bound :: below ∧
    m.kind = .typeVariable ∧ m.name = name ∧ bound ∈ m.extendsBounds

/-- What a copied bound shares with the declared one. -/
def heading (s : Signature) : TypeKind × String × String := (s.kind, s.name, s.dimension)

/-- What copying yields while the bounds of some variables are being copied. -/
inductive Expansion (scope : Scope) : List String → Signature → Prop where
  | expanded {copying : List String} {s p : Signature} : s.kind = .typeVariable → s.name ∉ copying →
      scope.lookup s.name = some p → s.extendsBounds.map heading = p.extendsBounds.map heading →
      s.children = s.extendsBounds →
      (∀ t ∈ s.children, Expansion scope (s.name :: copying) t) → Expansion scope copying s
  | bare {copying : List String} {s : Signature} : s.kind = .typeVariable → s.children = [] →
      (∀ p, scope.lookup s.name = some p → p.extendsBounds ≠ [] → s.name ∈ copying) →
      Expansion scope copying s
  | other {copying : List String} {s : Signature} : s.kind ≠ .typeVariable →
      (∀ t ∈ s.children, Expansion scope copying t) → Expansion scope copying s

section Bare

variable {scope : Scope} {copying : List String} {s t : Signature}

theorem VariablesBare.child (h : s.VariablesBare) (inside : t ∈ s.children) : t.VariablesBare :=
  fun n hn => h n (mem_nodes_of_child inside hn)

/-- A bare variable receives no bounds only if its declaration has none or they are being copied. -/
theorem mem_copying_of_inheritedBounds? (isVariable : s.kind = .typeVariable)
    (bare : s.children = []) (own : inheritedBounds? scope copying s = none) {p : Signature}
    (found : scope.lookup s.name = some p) (bounded : p.extendsBounds ≠ []) : s.name ∈ copying := by
  obtain ⟨_, noLower, noUpper⟩ := children_eq_nil_iff.mp bare
  by_contra fresh
  simp [inheritedBounds?, isTypeVariable, isVariable, noLower, noUpper, fresh, found,
    bounded] at own

theorem expansion_attachBoundsWith
    (declared : ∀ p ∈ scope.parameters, ∀ bound ∈ p.extendsBounds, bound.VariablesBare)
    (copying : List String) {s : Signature} (written : s.VariablesBare) :
    Expansion scope copying (s.attachBoundsWith scope copying) := by
  revert written
  apply attachBoundsWith.induct scope
    (fun copying s => s.VariablesBare → Expansion scope copying (s.attachBoundsWith scope copying))
    (fun copying list => ∀ s ∈ list, s.VariablesBare →
      Expansion scope copying (s.attachBoundsWith scope copying))
  · intro copying s bounds inherited ih written
    obtain ⟨isVariable, _, _, p, found, rfl⟩ := eq_of_inheritedBounds? inherited
    have fresh : s.name ∉ copying := by
      intro copied
      simp [inheritedBounds?, copied] at inherited
    obtain ⟨noArguments, noLower, _⟩ :=
      children_eq_nil_iff.mp (written s (mem_nodes_self s) isVariable)
    rw [attachBoundsWith_of_inherited inherited]
    refine .expanded isVariable fresh found ?_ ?_ ?_
    · simp [heading, Function.comp_def]
    · simp [children, noArguments, noLower]
    · intro t ht
      simp only [children, noArguments, noLower, List.nil_append] at ht
      obtain ⟨bound, hbound, rfl⟩ := List.mem_map.mp ht
      exact ih bound hbound (declared p (List.mem_of_find?_eq_some found) bound hbound)
  · intro copying s own arguments supers uppers written
    rw [attachBoundsWith_of_own own]
    by_cases isVariable : s.kind = .typeVariable
    · have bare := written s (mem_nodes_self s) isVariable
      refine .bare isVariable ?_ fun p found bounded =>
        mem_copying_of_inheritedBounds? (s := s) isVariable bare own found bounded
      obtain ⟨noArguments, noLower, noUpper⟩ := children_eq_nil_iff.mp bare
      simp [children, noArguments, noLower, noUpper]
    · refine .other isVariable fun t ht => ?_
      rcases mem_children.mp ht with ht | ht | ht <;> obtain ⟨u, hu, rfl⟩ := List.mem_map.mp ht
      · exact arguments u hu (written.child (mem_children.mpr (.inl hu)))
      · exact supers u hu (written.child (mem_children.mpr (.inr (.inl hu))))
      · exact uppers u hu (written.child (mem_children.mpr (.inr (.inr hu))))
  · rintro copying s ⟨⟩
  · intro copying s rest first others
    exact List.forall_mem_cons.mpr ⟨first, others⟩

end Bare

namespace Expansion

variable {scope : Scope} {copying : List String} {s : Signature} {way : List Signature}

theorem fresh (h : Expansion scope copying s) (down : Way s way) :
    ∀ n ∈ way, n.Expanded → n.name ∉ copying := by
  induction h generalizing way with
  | @expanded copying s p _ fresh _ _ _ _ ih =>
    cases down with
    | here => simpa using fun _ => fresh
    | down inside below =>
      refine List.forall_mem_cons.mpr ⟨fun _ => fresh, fun n hn expanded copied => ?_⟩
      exact ih _ inside below n hn expanded (List.mem_cons_of_mem _ copied)
  | @bare copying s _ bare _ =>
    cases down with
    | here => simpa [Expanded] using fun _ upper => absurd (children_eq_nil_iff.mp bare).2.2 upper
    | down inside _ => rw [bare] at inside; cases inside
  | @other copying s other _ ih =>
    cases down with
    | here => simpa using fun expanded => absurd expanded.1 other
    | down inside below =>
      exact List.forall_mem_cons.mpr ⟨fun expanded => absurd expanded.1 other, ih _ inside below⟩

/-- No variable is expanded twice on one way. -/
theorem once (h : Expansion scope copying s) (down : Way s way) :
    way.Pairwise fun m n => m.Expanded → n.Expanded → m.name ≠ n.name := by
  induction h generalizing way with
  | @expanded copying s p _ _ _ _ _ below ih =>
    cases down with
    | here => exact List.pairwise_singleton _ _
    | @down _ t _ inside further =>
      refine .cons (fun n hn _ expanded same => ?_) (ih t inside further)
      exact (below t inside).fresh further n hn expanded (same ▸ List.mem_cons_self)
  | @bare copying s _ bare _ =>
    cases down with
    | here => exact List.pairwise_singleton _ _
    | down inside _ => rw [bare] at inside; cases inside
  | @other copying s other _ ih =>
    cases down with
    | here => exact List.pairwise_singleton _ _
    | @down _ t _ inside further =>
      exact .cons (fun n _ expanded => absurd expanded.1 other) (ih t inside further)

/-- A variable with bounds has the declared ones. -/
theorem complete (h : Expansion scope copying s) : ∀ n ∈ s.nodes, n.kind = .typeVariable →
    n.children ≠ [] → ∃ p, scope.lookup n.name = some p ∧
      n.extendsBounds.map heading = p.extendsBounds.map heading := by
  induction h with
  | @expanded copying s p _ _ found same _ _ ih =>
    rw [nodes_eq]
    refine List.forall_mem_cons.mpr ⟨fun _ _ => ⟨p, found, same⟩, fun n hn => ?_⟩
    obtain ⟨t, inside, hn⟩ := List.mem_flatMap.mp hn
    exact ih t inside n hn
  | @bare copying s _ bare _ =>
    rw [nodes_eq, bare]
    simpa using fun _ bounded => absurd bare bounded
  | @other copying s other _ ih =>
    rw [nodes_eq]
    refine List.forall_mem_cons.mpr ⟨fun isVariable => absurd isVariable other, fun n hn => ?_⟩
    obtain ⟨t, inside, hn⟩ := List.mem_flatMap.mp hn
    exact ih t inside n hn

end Expansion

theorem Way.starts {s : Signature} {way : List Signature} (down : Way s way) :
    ∃ rest, way = s :: rest := by
  cases down with
  | here => exact ⟨[], rfl⟩
  | down _ _ => exact ⟨_, rfl⟩

theorem InOwnBounds.cons {way : List Signature} {name : String} (h : InOwnBounds way name)
    (s : Signature) : InOwnBounds (s :: way) name := by
  obtain ⟨above, m, bound, below, rfl, rest⟩ := h
  exact ⟨s :: above, m, bound, below, rfl, rest⟩

/-- A variable that stays bare though its declaration has bounds is inside its own expansion, or
inside that of a variable whose bounds were being copied before. -/
theorem Expansion.enclosed {scope : Scope} {copying : List String} {s n p : Signature}
    {way : List Signature} (h : Expansion scope copying s) (down : Way s way)
    (last : way.getLast? = some n) (isVariable : n.kind = .typeVariable)
    (unbounded : n.extendsBounds = []) (found : scope.lookup n.name = some p)
    (bounded : p.extendsBounds ≠ []) :
    n.name ∈ copying ∨ InOwnBounds way n.name := by
  induction h generalizing way with
  | @expanded copying s q kind _ found' same upper _ ih =>
    cases down with
    | here =>
      cases (show some s = some n from last)
      cases found.symm.trans found'
      rw [unbounded] at same
      exact absurd (List.map_eq_nil_iff.mp same.symm) bounded
    | @down _ t way inside further =>
      obtain ⟨rest, rfl⟩ := further.starts
      rw [List.getLast?_cons_cons] at last
      rcases ih t inside further last with copied | enclosed
      · rcases List.mem_cons.mp copied with same | copied
        · exact .inr ⟨[], s, t, rest, rfl, kind, same.symm, upper ▸ inside⟩
        · exact .inl copied
      · exact .inr (enclosed.cons s)
  | @bare copying s _ bare copied =>
    cases down with
    | here =>
      cases (show some s = some n from last)
      exact .inl (copied p found bounded)
    | down inside _ => rw [bare] at inside; cases inside
  | @other copying s other _ ih =>
    cases down with
    | here =>
      cases (show some s = some n from last)
      exact absurd isVariable other
    | @down _ t way inside further =>
      obtain ⟨rest, rfl⟩ := further.starts
      rw [List.getLast?_cons_cons] at last
      exact (ih t inside further last).imp_right (InOwnBounds.cons · s)

/-- The shape of a type with the declared bounds copied onto it, where the type and the declared
bounds are written with bare variables: no variable is expanded twice on the way to any place; a
variable with bounds has as many upper bounds as its declaration, with the same headings in the same
order; and one that stays bare though it is declared with upper bounds stands in its own bounds. -/
theorem attachBounds_shape {scope : Scope} {s : Signature} (written : s.VariablesBare)
    (declared : ∀ p ∈ scope.parameters, ∀ bound ∈ p.extendsBounds, bound.VariablesBare) :
    (∀ way, Way (s.attachBounds scope) way →
      way.Pairwise fun m n => m.Expanded → n.Expanded → m.name ≠ n.name) ∧
    (∀ n ∈ (s.attachBounds scope).nodes, n.kind = .typeVariable →
      n.superBounds ≠ [] ∨ n.extendsBounds ≠ [] → ∃ p, scope.lookup n.name = some p ∧
        n.extendsBounds.map heading = p.extendsBounds.map heading) ∧
    (∀ way n, Way (s.attachBounds scope) (way ++ [n]) → n.kind = .typeVariable →
      n.superBounds = [] → n.extendsBounds = [] → ∀ p, scope.lookup n.name = some p →
        p.extendsBounds ≠ [] → InOwnBounds (way ++ [n]) n.name) := by
  have expansion : Expansion scope [] (s.attachBounds scope) :=
    expansion_attachBoundsWith declared [] written
  refine ⟨fun way down => expansion.once down, fun n hn isVariable bounded => ?_, ?_⟩
  · refine expansion.complete n hn isVariable fun bare => ?_
    obtain ⟨_, noLower, noUpper⟩ := children_eq_nil_iff.mp bare
    exact bounded.elim (· noLower) (· noUpper)
  · intro way n down isVariable _ unbounded p found bounded
    have enclosed := expansion.enclosed down List.getLast?_concat isVariable unbounded found bounded
    exact enclosed.resolve_left List.not_mem_nil

def applied (name : String) (arguments : List Signature) : Signature :=
  { ofName .classType name with arguments := arguments }

/-- Two variables, declared in different lists, whose bounds have each other as arguments. -/
def intertwined : Scope :=
  Scope.empty.push [boundedBy (applied "q.Comparable" [ofName .typeVariable "U"]) "T"]
    |>.push [boundedBy (applied "q.List" [ofName .typeVariable "T"]) "U"]

/-- A use of both. -/
def useOfBoth : Signature := applied "q.Map" [ofName .typeVariable "T", ofName .typeVariable "U"]

theorem attachBounds_shape_intertwined : useOfBoth.VariablesBare ∧
    (∀ p ∈ intertwined.parameters, ∀ bound ∈ p.extendsBounds, bound.VariablesBare) ∧
    ∃ way n, Way (useOfBoth.attachBounds intertwined) (way ++ [n]) ∧ n.name = "T" ∧
      InOwnBounds (way ++ [n]) n.name := by
  have written : useOfBoth.VariablesBare := by
    simp [VariablesBare, useOfBoth, applied, nodes, nodesAll, ofName, children]
  have declared : ∀ p ∈ intertwined.parameters, ∀ bound ∈ p.extendsBounds, bound.VariablesBare := by
    simp [VariablesBare, intertwined, boundedBy, applied, Scope.parameters, Scope.push, Scope.empty,
      nodes, nodesAll, ofName, children]
  let listOfT := applied "q.List" [ofName .typeVariable "T"]
  let u := boundedBy listOfT "U"
  let comparableToU := applied "q.Comparable" [u]
  let t := boundedBy comparableToU "T"
  have first : t ∈ (useOfBoth.attachBounds intertwined).children := by
    have attached : (useOfBoth.attachBounds intertwined).arguments.head? = some t := by cbv
    exact mem_children.mpr (.inl (List.mem_of_head? attached))
  have down : Way (useOfBoth.attachBounds intertwined)
      ([useOfBoth.attachBounds intertwined, t, comparableToU, u, listOfT] ++
        [ofName .typeVariable "T"]) := by
    refine .down first (.down ?_ (.down ?_ (.down ?_ (.down ?_ (.here _)))))
    all_goals exact List.mem_singleton_self _
  have enclosed := (attachBounds_shape written declared).2.2 _ _ down rfl rfl rfl _ rfl (by decide)
  exact ⟨written, declared, _, _, down, rfl, enclosed⟩

end ApiCompat.Signature
