import ApiCompat.Proofs.Snapshot.BreadthFirst

/-! Subtyping. The supertype names of a class are what one walk gathers on its way: the names of the
classes that it meets after the start, and the names that stay unlinked at any of them. In a
resolved snapshot a declared supertype is always reached by links, and from there on the ways
compose, so that subtyping is reflexive and transitive. The class itself is left out of its own
supertype names, which is why a way that leads back to it needs its own name. -/
namespace ApiCompat.Snapshot

open Relation (ReflTransGen)

section Names

variable {s : Snapshot} {id a : ClassId} {name : String}

/-- What a walk from a class takes down at one of the classes that it meets. -/
def namesAt (s : Snapshot) (start id : ClassId) : List String :=
  (if id = start then [] else [s.nameOf id]) ++ s.externalNames id

theorem ne_of_mem_ancestors (h : a ∈ s.ancestors id) : a ≠ id :=
  (List.nodup_range.mem_erase_iff.mp (Walk.layers_sound h).1).1

theorem mem_supertypeNames_iff_ancestors : name ∈ s.supertypeNames id ↔
    (∃ a ∈ s.ancestors id, s.nameOf a = name) ∨
      ∃ a ∈ id :: s.ancestors id, ClassRef.named name ∈ s.supertypeRefs a := by
  simp only [mem_supertypeNames_iff_unsorted, List.mem_map, List.mem_flatMap,
    mem_externalNames_iff]

theorem mem_supertypeNames_iff_gathered : name ∈ s.supertypeNames id ↔
    name ∈ (Walk.queued s.parents (s.ids.erase id) [id]).flatMap (s.namesAt id) := by
  have walk : Walk.queued s.parents (s.ids.erase id) [id] = id :: s.ancestors id :=
    Walk.queued_eq_layers s.parents (s.ids.erase id) [id]
  have here : ∀ a, name ∈ s.namesAt id a ↔
      a ≠ id ∧ s.nameOf a = name ∨ ClassRef.named name ∈ s.supertypeRefs a := by
    intro a
    rw [namesAt, List.mem_append, mem_externalNames_iff]
    by_cases start : a = id <;> simp [start, eq_comm]
  rw [walk, List.mem_flatMap, mem_supertypeNames_iff_ancestors]
  constructor
  · rintro (⟨a, ha, named⟩ | ⟨a, ha, external⟩)
    · exact ⟨a, List.mem_cons_of_mem id ha, (here a).mpr (.inl ⟨ne_of_mem_ancestors ha, named⟩)⟩
    · exact ⟨a, ha, (here a).mpr (.inr external)⟩
  · rintro ⟨a, ha, taken⟩
    rcases (here a).mp taken with ⟨apart, named⟩ | external
    · exact .inl ⟨a, (List.mem_cons.mp ha).resolve_left apart, named⟩
    · exact .inr ⟨a, ha, external⟩

theorem isSubtypeOf_iff :
    s.isSubtypeOf id name = true ↔ s.nameOf id = name ∨ name ∈ s.supertypeNames id := by
  rw [isSubtypeOf, Bool.or_eq_true, beq_iff_eq, List.contains_iff_mem]

end Names

section Resolved

variable {s : Snapshot} {a b : ClassId} {name : String}

theorem reaches_of_isSubtypeOf (wf : s.WellFormed) (resolved : s.LinksResolved) (ha : a ∈ s.ids)
    (hb : b ∈ s.ids) (below : s.isSubtypeOf a (s.nameOf b) = true) :
    ReflTransGen s.Extends a b := by
  obtain ⟨c, hc⟩ := exists_class?_of_mem_ids ha
  obtain ⟨d, hd⟩ := exists_class?_of_mem_ids hb
  have found : s.find? (s.nameOf b) = some b := by
    rw [nameOf_of_class? hd]
    exact wf.find?_qualifiedName hd
  rcases isSubtypeOf_iff.mp below with same | above
  · have again := wf.find?_qualifiedName hc
    rw [← nameOf_of_class? hc, same, found] at again
    cases again
    exact .refl
  · exact (reaches_of_mem_supertypeNames wf resolved found above).1

theorem isSubtypeOf_trans (wf : s.WellFormed) (resolved : s.LinksResolved) (ha : a ∈ s.ids)
    (hb : b ∈ s.ids) (below : s.isSubtypeOf a (s.nameOf b) = true)
    (beyond : s.isSubtypeOf b name = true) : s.isSubtypeOf a name = true := by
  rcases isSubtypeOf_iff.mp beyond with rfl | above
  · exact below
  · have path := reaches_of_isSubtypeOf wf resolved ha hb below
    rcases mem_supertypeNames_trans wf path above with further | back
    · exact isSubtypeOf_iff.mpr (.inr further)
    · exact isSubtypeOf_iff.mpr (.inl back.symm)

end Resolved

/-- The supertype names of a class, and the preorder that they give once names are linked. -/
theorem subtyping_preorder (s : Snapshot) :
    (∀ id name, (name ∈ s.supertypeNames id ↔
        (∃ a ∈ s.ancestors id, s.nameOf a = name) ∨
          ∃ a ∈ id :: s.ancestors id, ClassRef.named name ∈ s.supertypeRefs a) ∧
      (name ∈ s.supertypeNames id ↔
        name ∈ (Walk.queued s.parents (s.ids.erase id) [id]).flatMap (s.namesAt id))) ∧
    (∀ id, s.isSubtypeOf id (s.nameOf id) = true) ∧
    (s.WellFormed → ∀ a ∈ s.resolve.ids, ∀ b ∈ s.resolve.ids, ∀ name,
      s.resolve.isSubtypeOf a (s.resolve.nameOf b) = true →
      s.resolve.isSubtypeOf b name = true → s.resolve.isSubtypeOf a name = true) := by
  refine ⟨fun id name => ⟨mem_supertypeNames_iff_ancestors, mem_supertypeNames_iff_gathered⟩,
    fun id => isSubtypeOf_iff.mpr (.inl rfl), ?_⟩
  intro wf a ha b hb name below beyond
  exact isSubtypeOf_trans wf.resolve (linksResolved_resolve s) ha hb below beyond

/-- Two classes below each other, one of them below a class that is not declared. -/
def mutualPair : Snapshot :=
  let declared (name : String) (superclass : String) (interfaces : List String) : ClassDecl :=
    { ClassDecl.bare "p" name .plain with
      superclass := some (.named superclass), interfaces := interfaces.map .named }
  { packages := [⟨"p", none, [0, 1]⟩]
    classes := [declared "First" "p.Second" [], declared "Second" "p.First" ["java.io.Closeable"]] }

theorem wellFormed_mutualPair : mutualPair.WellFormed where
  packageNames := by decide
  classNames := by decide +kernel
  listing := by decide
  supertypes := by simp [mutualPair, ClassDecl.supertypes]
  parameters := by
    simp [mutualPair, ClassDecl.bare, ClassDecl.declaredParameters, ClassDecl.callables]

/-- Round a circle each class is below itself and below what stays external. -/
theorem subtyping_preorder_mutualPair :
    mutualPair.WellFormed ∧ mutualPair.resolve.ids = [0, 1] ∧
      mutualPair.resolve.isSubtypeOf 0 "p.Second" = true ∧
      mutualPair.resolve.isSubtypeOf 1 "p.First" = true ∧
      mutualPair.resolve.isSubtypeOf 0 "p.First" = true ∧
      mutualPair.resolve.isSubtypeOf 0 "java.io.Closeable" = true := by
  have closeable : mutualPair.resolve.isSubtypeOf 1 "java.io.Closeable" = true :=
    isSubtypeOf_iff.mpr (.inr (mem_supertypeNames_iff_ancestors.mpr (by decide +kernel)))
  have second : mutualPair.resolve.isSubtypeOf 0 "p.Second" = true :=
    isSubtypeOf_iff.mpr (.inr (mem_supertypeNames_iff_ancestors.mpr (by decide +kernel)))
  have first : mutualPair.resolve.isSubtypeOf 1 "p.First" = true :=
    isSubtypeOf_iff.mpr (.inr (mem_supertypeNames_iff_ancestors.mpr (by decide +kernel)))
  have inside : mutualPair.resolve.ids = [0, 1] := by decide +kernel
  have zero : 0 ∈ mutualPair.resolve.ids := by decide +kernel
  have one : 1 ∈ mutualPair.resolve.ids := by decide +kernel
  have trans := (subtyping_preorder mutualPair).2.2 wellFormed_mutualPair
  exact ⟨wellFormed_mutualPair, inside, second, first, trans 0 zero 1 one _ second first,
    trans 0 zero 1 one _ second closeable⟩

end ApiCompat.Snapshot
