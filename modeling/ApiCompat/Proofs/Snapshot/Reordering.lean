import ApiCompat.Proofs.Snapshot.Links
import Mathlib.Data.List.Perm.Basic
import Mathlib.Logic.Equiv.Basic

/-! Snapshots in another order. A description may list its packages, its classes and the interfaces
of a class in any order; the classes then have other numbers, and all links follow. The hierarchy
and nesting are the same up to numbers, a name finds the same class, and so linking and the
derivation of kinds go the same way in both orders. -/
namespace ApiCompat

open Relation (ReflTransGen)

section Renumber

variable {σ : ClassId → ClassId} {find find' : String → Option ClassId}

def ClassRef.renumber (σ : ClassId → ClassId) : ClassRef → ClassRef
  | named name => named name
  | linked id => linked (σ id)

def Parameter.renumber (σ : ClassId → ClassId) (p : Parameter) : Parameter :=
  { p with type := p.type.renumber σ }

def Callable.renumber (σ : ClassId → ClassId) (c : Callable) : Callable :=
  { c with
    typeParameters := c.typeParameters.map (Signature.renumber σ)
    parameters := c.parameters.map (Parameter.renumber σ)
    exceptions := c.exceptions.map (ClassRef.renumber σ) }

def Method.renumber (σ : ClassId → ClassId) (m : Method) : Method :=
  { m with
    toCallable := m.toCallable.renumber σ
    returnType := m.returnType.renumber σ }

def Field.renumber (σ : ClassId → ClassId) (f : Field) : Field :=
  { f with type := f.type.renumber σ }

/-- The class with other numbers in its links, its interfaces listed anew. -/
def ClassDecl.reorder (σ : ClassId → ClassId) (interfaces : List ClassRef) (c : ClassDecl) :
    ClassDecl :=
  { c with
    typeParameters := c.typeParameters.map (Signature.renumber σ)
    superclass := c.superclass.map (ClassRef.renumber σ)
    interfaces := interfaces
    methods := c.methods.map (Method.renumber σ)
    constructors := c.constructors.map (Callable.renumber σ)
    fields := c.fields.map (Field.renumber σ)
    outer := c.outer.map σ }

theorem ClassRef.id?_renumber (ref : ClassRef) : (ref.renumber σ).id? = ref.id?.map σ := by
  cases ref <;> rfl

theorem ClassRef.renumber_injective (injective : Function.Injective σ) :
    Function.Injective (ClassRef.renumber σ) := by
  rintro (a | a) (b | b) same
  · exact same
  · cases same
  · cases same
  · exact congrArg linked (injective (linked.inj same))

theorem ClassRef.link_renumber (found : ∀ name, find' name = (find name).map σ) (ref : ClassRef) :
    (ref.renumber σ).link find' = (ref.link find).renumber σ := by
  cases ref with
  | linked id => rfl
  | named name =>
    simp only [renumber, link, found]
    cases find name <;> rfl

theorem Parameter.unlink_renumber (σ : ClassId → ClassId) (p : Parameter) :
    (p.renumber σ).unlink = p.unlink := by
  rw [unlink, renumber, unlink, Signature.unlink_renumber]

theorem Callable.unlink_renumber (σ : ClassId → ClassId) (c : Callable) :
    (c.renumber σ).unlink = c.unlink := by
  rw [unlink, renumber, unlink, map_map_eq_map (Signature.unlink_renumber σ),
    map_map_eq_map (Parameter.unlink_renumber σ)]

theorem Method.unlink_renumber (σ : ClassId → ClassId) (m : Method) :
    (m.renumber σ).unlink = m.unlink := by
  rw [unlink, renumber, unlink, Callable.unlink_renumber, Signature.unlink_renumber]

theorem Parameter.link_renumber (found : ∀ name, find' name = (find name).map σ)
    (p : Parameter) : (p.renumber σ).link find' = (p.link find).renumber σ := by
  rw [link, renumber, Signature.link_renumber found]
  rfl

theorem Callable.link_renumber (found : ∀ name, find' name = (find name).map σ) (c : Callable) :
    (c.renumber σ).link find' = (c.link find).renumber σ := by
  rw [link, renumber, map_map_comm (Parameter.link_renumber found),
    map_map_comm (ClassRef.link_renumber found)]
  rfl

theorem Method.link_renumber (found : ∀ name, find' name = (find name).map σ) (m : Method) :
    (m.renumber σ).link find' = (m.link find).renumber σ := by
  rw [link, renumber, Callable.link_renumber found, Signature.link_renumber found]
  rfl

theorem Field.link_renumber (found : ∀ name, find' name = (find name).map σ) (f : Field) :
    (f.renumber σ).link find' = (f.link find).renumber σ := by
  rw [link, renumber, Signature.link_renumber found]
  rfl

theorem ClassDecl.link_reorder (found : ∀ name, find' name = (find name).map σ)
    (interfaces : List ClassRef) (c : ClassDecl) : (c.reorder σ interfaces).link find' =
      (c.link find).reorder σ (interfaces.map (ClassRef.link find')) := by
  have superclass : (c.superclass.map (ClassRef.renumber σ)).map (ClassRef.link find') =
      (c.superclass.map (ClassRef.link find)).map (ClassRef.renumber σ) := by
    cases c.superclass with
    | none => rfl
    | some ref => exact congrArg some (ClassRef.link_renumber found ref)
  rw [link, reorder, superclass, map_map_comm (Method.link_renumber found),
    map_map_comm (Callable.link_renumber found), map_map_comm (Field.link_renumber found)]
  rfl

end Renumber

/-- Walks along single links go the same way under other numbers. -/
theorem Walk.trail_renumber {σ : Equiv.Perm Nat} {next next' : Nat → Option Nat}
    (links : ∀ a, next' (σ a) = (next a).map σ) {unseen unseen' : List Nat} (start : Nat)
    (same : unseen'.Perm (unseen.map σ)) :
    trail next' unseen' (σ start) = (trail next unseen start).map σ := by
  -- The unseen nodes correspond at every step, so both walks come to their ends together.
  fun_induction trail next unseen start generalizing unseen' with
  | case1 unseen start stop => rw [trail, links, stop]; rfl
  | case2 unseen start target step inside ih =>
    have inside' : σ target ∈ unseen' := same.mem_iff.mpr (List.mem_map_of_mem inside)
    have rest : (unseen'.erase (σ target)).Perm ((unseen.erase target).map σ) := by
      rw [List.map_erase σ.injective]
      exact same.erase _
    rw [trail, links, step, Option.map_some]
    simp only [dif_pos inside', List.map_cons, ih rest]
  | case3 unseen start target step outside =>
    have outside' : σ target ∉ unseen' := by
      rwa [same.mem_iff, List.mem_map_of_injective σ.injective]
    rw [trail, links, step, Option.map_some]
    simp only [dif_neg outside', List.map_nil]

def Package.relist (listing : Package → List ClassId) (p : Package) : Package :=
  { p with classes := listing p }

namespace Snapshot

/-- The second snapshot lists what the first one does in another order; `σ` gives the new numbers
of the classes. -/
structure Reordering (σ : Equiv.Perm ClassId) (s t : Snapshot) : Prop where
  ids : ∀ id, σ id ∈ t.ids ↔ id ∈ s.ids
  classes : ∀ id c, s.class? id = some c → ∃ interfaces : List ClassRef,
    interfaces.Perm (c.interfaces.map (ClassRef.renumber σ)) ∧
      t.class? (σ id) = some (c.reorder σ interfaces)
  packages : ∃ listing : Package → List ClassId,
    (∀ p ∈ s.packages, (listing p).Perm (p.classes.map σ)) ∧
      t.packages.Perm (s.packages.map (Package.relist listing))

namespace Reordering

variable {σ : Equiv.Perm ClassId} {s t : Snapshot}

theorem class?_cases (r : Reordering σ s t) (id : ClassId) :
    (s.class? id = none ∧ t.class? (σ id) = none) ∨ ∃ c interfaces, s.class? id = some c ∧
      interfaces.Perm (c.interfaces.map (ClassRef.renumber σ)) ∧
        t.class? (σ id) = some (c.reorder σ interfaces) := by
  cases before : s.class? id with
  | some c =>
    obtain ⟨interfaces, perm, after⟩ := r.classes id c before
    exact .inr ⟨c, interfaces, rfl, perm, after⟩
  | none =>
    refine .inl ⟨rfl, Option.eq_none_iff_forall_ne_some.mpr fun d after => ?_⟩
    obtain ⟨c, hc⟩ := exists_class?_of_mem_ids ((r.ids id).mp (mem_ids_of_class? after))
    cases before.symm.trans hc

theorem nameOf (r : Reordering σ s t) (id : ClassId) : t.nameOf (σ id) = s.nameOf id := by
  rcases r.class?_cases id with ⟨before, after⟩ | ⟨c, interfaces, before, _, after⟩
  · simp only [Snapshot.nameOf, before, after]
  · simp only [Snapshot.nameOf, before, after, ClassDecl.reorder]

theorem nameOfRef (r : Reordering σ s t) (ref : ClassRef) :
    t.nameOfRef (ref.renumber σ) = s.nameOfRef ref := by
  cases ref with
  | named name => rfl
  | linked id => exact r.nameOf id

theorem supertypeRefs (r : Reordering σ s t) (id : ClassId) :
    (t.supertypeRefs (σ id)).Perm ((s.supertypeRefs id).map (ClassRef.renumber σ)) := by
  unfold Snapshot.supertypeRefs
  rcases r.class?_cases id with ⟨before, after⟩ | ⟨c, interfaces, before, perm, after⟩
  · rw [before, after]
    exact .nil
  · rw [before, after]
    have superclass : (c.superclass.map (ClassRef.renumber σ)).toList =
        c.superclass.toList.map (ClassRef.renumber σ) := by
      cases c.superclass <;> rfl
    simp only [ClassDecl.supertypes, ClassDecl.reorder, superclass, List.map_append]
    exact perm.append_left _

theorem superclassRef? (r : Reordering σ s t) (id : ClassId) :
    t.superclassRef? (σ id) = (s.superclassRef? id).map (ClassRef.renumber σ) := by
  unfold Snapshot.superclassRef?
  rcases r.class?_cases id with ⟨before, after⟩ | ⟨c, interfaces, before, _, after⟩
  · rw [before, after]
    rfl
  · rw [before, after]
    rfl

theorem superclass? (r : Reordering σ s t) (id : ClassId) :
    t.superclass? (σ id) = (s.superclass? id).map σ := by
  rw [Snapshot.superclass?, Snapshot.superclass?, r.superclassRef?]
  cases s.superclassRef? id with
  | none => rfl
  | some ref => exact ref.id?_renumber

theorem outer? (r : Reordering σ s t) (id : ClassId) :
    t.outer? (σ id) = (s.outer? id).map σ := by
  unfold Snapshot.outer?
  rcases r.class?_cases id with ⟨before, after⟩ | ⟨c, interfaces, before, _, after⟩
  · rw [before, after]
    rfl
  · rw [before, after]
    rfl

theorem perm_ids (r : Reordering σ s t) : t.ids.Perm (s.ids.map σ) := by
  refine (List.perm_ext_iff_of_nodup List.nodup_range
    (List.nodup_range.map σ.injective)).mpr fun id' => ?_
  obtain ⟨id, rfl⟩ := σ.surjective id'
  exact (r.ids id).trans (List.mem_map_of_injective σ.injective).symm

theorem perm_unseen (r : Reordering σ s t) (id : ClassId) :
    (t.ids.erase (σ id)).Perm ((s.ids.erase id).map σ) := by
  rw [List.map_erase σ.injective]
  exact r.perm_ids.erase _

theorem enclosing (r : Reordering σ s t) (id : ClassId) :
    t.enclosing (σ id) = (s.enclosing id).map σ :=
  Walk.trail_renumber r.outer? id (r.perm_unseen id)

/-- The variables in force inside a class are the same up to links. -/
theorem typeScope (r : Reordering σ s t) (id : ClassId) :
    (t.typeScope (σ id)).unlink = (s.typeScope id).unlink := by
  have own (a : ClassId) : (t.typeParametersOf (σ a)).map Signature.unlink =
      (s.typeParametersOf a).map Signature.unlink := by
    unfold typeParametersOf
    rcases r.class?_cases a with ⟨before, after⟩ | ⟨c, interfaces, before, _, after⟩
    · rw [before, after]
    · rw [before, after]
      exact map_map_eq_map (Signature.unlink_renumber σ) c.typeParameters
  have around : ((t.enclosing (σ id)).map t.typeParametersOf).map (List.map Signature.unlink) =
      ((s.enclosing id).map s.typeParametersOf).map (List.map Signature.unlink) := by
    rw [r.enclosing, List.map_map, List.map_map, List.map_map]
    exact List.map_congr_left fun a _ => own a
  exact congrArg Scope.mk (congrArg₂ List.cons (own id) around)

theorem superclassChain (r : Reordering σ s t) (id : ClassId) :
    t.superclassChain (σ id) = s.superclassChain id := by
  have chain : t.superclasses (σ id) = (s.superclasses id).map σ :=
    Walk.trail_renumber r.superclass? id (r.perm_unseen id)
  rw [Snapshot.superclassChain, chain, ← List.map_cons, List.filterMap_map,
    Snapshot.superclassChain]
  refine List.filterMap_congr fun a _ => ?_
  rw [Function.comp_apply, r.superclassRef?, Option.map_map]
  exact Option.map_congr fun ref _ => r.nameOfRef ref

theorem mem_supertypeRefs (r : Reordering σ s t) {id : ClassId} (ref : ClassRef) :
    ref.renumber σ ∈ t.supertypeRefs (σ id) ↔ ref ∈ s.supertypeRefs id :=
  (r.supertypeRefs id).mem_iff.trans
    (List.mem_map_of_injective (ClassRef.renumber_injective σ.injective))

theorem extends_iff (r : Reordering σ s t) {a b : ClassId} :
    t.Extends (σ a) (σ b) ↔ s.Extends a b :=
  r.mem_supertypeRefs (.linked b)

theorem closed (r : Reordering σ s t) (closed : s.Closed) : t.Closed := by
  intro a b link
  obtain ⟨a, rfl⟩ := σ.surjective a
  obtain ⟨b, rfl⟩ := σ.surjective b
  exact (r.ids b).mpr (closed a b (r.extends_iff.mp link))

theorem reaches_iff (r : Reordering σ s t) {a b : ClassId} :
    ReflTransGen t.Extends (σ a) (σ b) ↔ ReflTransGen s.Extends a b := by
  constructor
  · intro path
    have back : ReflTransGen s.Extends (σ.symm (σ a)) (σ.symm (σ b)) := by
      refine ReflTransGen.lift σ.symm (fun x y link => r.extends_iff.mp ?_) _ _ path
      rwa [Equiv.apply_symm_apply, Equiv.apply_symm_apply]
    rwa [Equiv.symm_apply_apply, Equiv.symm_apply_apply] at back
  · exact fun path => ReflTransGen.lift σ (fun _ _ link => r.extends_iff.mpr link) _ _ path

theorem mem_ancestors (r : Reordering σ s t) (closed : s.Closed) {id a : ClassId} :
    σ a ∈ t.ancestors (σ id) ↔ a ∈ s.ancestors id := by
  rw [mem_ancestors_iff (r.closed closed), mem_ancestors_iff closed, r.reaches_iff,
    Ne, Ne, σ.injective.eq_iff]

theorem mem_supertypeNames (r : Reordering σ s t) (closed : s.Closed) {id : ClassId}
    {name : String} : name ∈ t.supertypeNames (σ id) ↔ name ∈ s.supertypeNames id := by
  have external : ∀ a, ClassRef.named name ∈ t.supertypeRefs (σ a) ↔
      ClassRef.named name ∈ s.supertypeRefs a :=
    fun a => r.mem_supertypeRefs (.named name)
  -- The walks may meet the ancestors in other orders, so only reachability is compared.
  rw [mem_supertypeNames_iff (r.closed closed), mem_supertypeNames_iff closed]
  refine or_congr ?_ ?_
  · rw [σ.surjective.exists]
    simp only [r.reaches_iff, r.nameOf, Ne, σ.injective.eq_iff]
  · rw [σ.surjective.exists]
    simp only [r.reaches_iff, external]

theorem contains_supertypeNames (r : Reordering σ s t) (closed : s.Closed) (id : ClassId)
    (name : String) :
    (t.supertypeNames (σ id)).contains name = (s.supertypeNames id).contains name := by
  rw [Bool.eq_iff_iff, List.contains_iff_mem, List.contains_iff_mem]
  exact r.mem_supertypeNames closed

theorem class?_symm (r : Reordering σ s t) {id' : ClassId} {d : ClassDecl}
    (h : t.class? id' = some d) : ∃ id c, σ id = id' ∧ s.class? id = some c ∧
      d.qualifiedName = c.qualifiedName := by
  obtain ⟨id, rfl⟩ := σ.surjective id'
  rcases r.class?_cases id with ⟨_, after⟩ | ⟨c, interfaces, before, _, after⟩
  · cases h.symm.trans after
  · cases Option.some.inj (h.symm.trans after)
    exact ⟨id, c, rfl, before, rfl⟩

theorem find? (r : Reordering σ s t) (wf : s.WellFormed) (name : String) :
    t.find? name = (s.find? name).map σ := by
  cases after : t.find? name with
  | some id' =>
    obtain ⟨d, hd, hname⟩ := class?_of_find? after
    obtain ⟨id, c, rfl, hc, same⟩ := r.class?_symm hd
    rw [← hname, same, wf.find?_qualifiedName hc]
    rfl
  | none =>
    cases before : s.find? name with
    | none => rfl
    | some id =>
      obtain ⟨c, hc, hname⟩ := class?_of_find? before
      obtain ⟨interfaces, _, hd⟩ := r.classes id c hc
      exact absurd hname (find?_eq_none_iff.mp after (c.reorder σ interfaces)
        (mem_classes_of_class? hd))

theorem linkNames (r : Reordering σ s t) (wf : s.WellFormed) :
    Reordering σ s.linkNames t.linkNames := by
  constructor
  · intro id
    rw [ids_linkNames, ids_linkNames]
    exact r.ids id
  · intro id c h
    rw [class?_linkNames] at h
    obtain ⟨before, hbefore, rfl⟩ := Option.map_eq_some_iff.mp h
    obtain ⟨interfaces, perm, after⟩ := r.classes id before hbefore
    refine ⟨interfaces.map (ClassRef.link t.find?), ?_, ?_⟩
    · refine (perm.map _).trans (.of_eq ?_)
      exact map_map_comm (ClassRef.link_renumber (r.find? wf)) before.interfaces
    · rw [class?_linkNames, after, Option.map_some, ClassDecl.link_reorder (r.find? wf)]
  · exact r.packages

theorem kindOfChain (r : Reordering σ s t) (wf : s.WellFormed) (chain : List String) :
    t.kindOfChain chain = s.kindOfChain chain := by
  have undeclared : ∀ name, (t.find? name).isNone = (s.find? name).isNone := by
    intro name
    rw [r.find? wf, Option.isNone_map]
  simp only [Snapshot.kindOfChain, undeclared]

theorem derivedKind? (r : Reordering σ s t) (wf : s.WellFormed) (id : ClassId)
    (declared : ClassKind) : t.derivedKind? (σ id) declared = s.derivedKind? id declared := by
  simp only [Snapshot.derivedKind?, r.superclassChain, r.kindOfChain wf,
    r.contains_supertypeNames wf.closed]

theorem deriveKinds (r : Reordering σ s t) (wf : s.WellFormed) :
    Reordering σ s.deriveKinds t.deriveKinds := by
  constructor
  · intro id
    rw [ids_deriveKinds, ids_deriveKinds]
    exact r.ids id
  · intro id c h
    rw [class?_deriveKinds] at h
    obtain ⟨before, hbefore, rfl⟩ := Option.map_eq_some_iff.mp h
    obtain ⟨interfaces, perm, after⟩ := r.classes id before hbefore
    refine ⟨interfaces, perm, ?_⟩
    rw [class?_deriveKinds, after, Option.map_some, r.derivedKind? wf]
    rfl
  · exact r.packages

theorem resolve (r : Reordering σ s t) (wf : s.WellFormed) : Reordering σ s.resolve t.resolve :=
  (r.linkNames wf).deriveKinds wf.linkNames

end Reordering

theorem package?_eq_some_iff {s : Snapshot} (names : (s.packages.map (·.name)).Nodup)
    {name : String} {p : Package} :
    s.package? name = some p ↔ p ∈ s.packages ∧ p.name = name := by
  constructor
  · intro h
    exact ⟨List.mem_of_find?_eq_some h, by simpa using List.find?_some h⟩
  · rintro ⟨hp, rfl⟩
    have present := package?_isSome_iff.mpr (List.mem_map_of_mem hp)
    obtain ⟨q, hq⟩ := Option.isSome_iff_exists.mp present
    have same : q.name = p.name := by simpa using List.find?_some hq
    rw [hq, List.inj_on_of_nodup_map names (List.mem_of_find?_eq_some hq) hp same]

theorem package?_relist {s t : Snapshot} (wf : s.WellFormed) {listing : Package → List ClassId}
    (perm : t.packages.Perm (s.packages.map (Package.relist listing))) (name : String) :
    t.package? name = (s.package? name).map (Package.relist listing) := by
  have sameNames : (s.packages.map (Package.relist listing)).map (·.name) =
      s.packages.map (·.name) := by
    rw [List.map_map]
    rfl
  have names : (t.packages.map (·.name)).Nodup := by
    rw [(perm.map _).nodup_iff, sameNames]
    exact wf.packageNames
  ext q
  rw [package?_eq_some_iff names, perm.mem_iff, List.mem_map, Option.map_eq_some_iff]
  constructor
  · rintro ⟨⟨p, hp, rfl⟩, hname⟩
    exact ⟨p, (package?_eq_some_iff wf.packageNames).mpr ⟨hp, hname⟩, rfl⟩
  · rintro ⟨p, found, rfl⟩
    obtain ⟨hp, hname⟩ := (package?_eq_some_iff wf.packageNames).mp found
    exact ⟨⟨p, hp, rfl⟩, hname⟩

end Snapshot

end ApiCompat
