import ApiCompat.Proofs.Signature.Nodes
import ApiCompat.Proofs.Snapshot.Links
import Mathlib.Data.List.Forall2

/-! What resolving does. Every reference by name and every class name in the type of a member is
linked to the declared class of that name, at any depth; nothing becomes a link otherwise, and
nothing but links and kinds changes. The counts are those of the links made, of the kinds
changed and of the references that stay external. -/
namespace ApiCompat

namespace Signature

mutual

theorem nodes_link (find : String → Option ClassId) :
    ∀ s : Signature, (s.link find).nodes = s.nodes.map (link find)
  | ⟨_, _, _, arguments, supers, uppers, _, _⟩ => by
    simp only [link, nodes, nodesAll_linkAll find arguments, nodesAll_linkAll find supers,
      nodesAll_linkAll find uppers, List.map_cons, List.map_append]

theorem nodesAll_linkAll (find : String → Option ClassId) :
    ∀ list, nodesAll (linkAll find list) = (nodesAll list).map (link find)
  | [] => rfl
  | s :: rest => by
    simp only [linkAll, nodesAll, nodes_link find s, nodesAll_linkAll find rest, List.map_append]

end

theorem linkAll_eq_map (find : String → Option ClassId) (list : List Signature) :
    linkAll find list = list.map (link find) := by
  induction list with
  | nil => rfl
  | cons s rest ih => rw [linkAll, List.map_cons, ih]

theorem linked_link (find : String → Option ClassId) (s : Signature) :
    (s.link find).linked = if s.kind = .classType ∧ s.linked = none then find s.name else s.linked := by
  cases s; rfl

/-- Linking gives this node a link. -/
def isLinkable (find : String → Option ClassId) (s : Signature) : Bool :=
  s.kind = .classType ∧ s.linked = none ∧ (find s.name).isSome

theorem linked_link_ne_iff (find : String → Option ClassId) (s : Signature) :
    s.linked ≠ (s.link find).linked ↔ s.isLinkable find = true := by
  rw [linked_link, isLinkable, decide_eq_true_eq]
  by_cases unset : s.kind = .classType ∧ s.linked = none
  · rw [if_pos unset, unset.2]
    cases find s.name <;> simp [unset.1]
  · simp only [if_neg unset, ne_eq, not_true, false_iff]
    tauto

mutual

theorem newLinks_eq_countP (find : String → Option ClassId) :
    ∀ s : Signature, s.newLinks find = s.nodes.countP (isLinkable find)
  | ⟨kind, name, _, arguments, supers, uppers, _, linked⟩ => by
    simp only [newLinks, nodes, List.countP_cons, List.countP_append, isLinkable,
      newLinksAll_eq_countP find arguments, newLinksAll_eq_countP find supers,
      newLinksAll_eq_countP find uppers, decide_eq_true_eq]
    omega

theorem newLinksAll_eq_countP (find : String → Option ClassId) :
    ∀ list, newLinksAll find list = (nodesAll list).countP (isLinkable find)
  | [] => rfl
  | s :: rest => by
    simp only [newLinksAll, nodesAll, newLinks_eq_countP find s, newLinksAll_eq_countP find rest,
      List.countP_append]

end

end Signature

namespace Snapshot

def Declares (s : Snapshot) (name : String) (id : ClassId) : Prop :=
  ∃ c, s.class? id = some c ∧ c.qualifiedName = name

theorem declares_of_find? {s : Snapshot} {name : String} {id : ClassId}
    (found : s.find? name = some id) : s.Declares name id :=
  class?_of_find? found

theorem not_declares_of_find? {s : Snapshot} {name : String} (absent : s.find? name = none)
    (id : ClassId) : ¬s.Declares name id := by
  rintro ⟨c, hc, named⟩
  exact find?_eq_none_iff.mp absent c (mem_classes_of_class? hc) named

end Snapshot

/-- What becomes of a reference: a name that a class bears turns into a link to that class, any
other name stays, and so does a link. -/
inductive ClassRef.Resolved (s : Snapshot) : ClassRef → ClassRef → Prop where
  | declared {name : String} {id : ClassId} : s.Declares name id →
      Resolved s (.named name) (.linked id)
  | external {name : String} : (∀ id, ¬s.Declares name id) → Resolved s (.named name) (.named name)
  | linked {id : ClassId} : Resolved s (.linked id) (.linked id)

/-- What becomes of the link of a node. Only the name of a class without a link receives one. -/
inductive Signature.LinkResolved (s : Snapshot) (node : Signature) : Option ClassId → Prop where
  | declared {id : ClassId} : node.kind = .classType → node.linked = none →
      s.Declares node.name id → LinkResolved s node (some id)
  | external : node.kind = .classType → node.linked = none → (∀ id, ¬s.Declares node.name id) →
      LinkResolved s node none
  | linked {id : ClassId} : node.linked = some id → LinkResolved s node (some id)
  | otherKind : node.kind ≠ .classType → LinkResolved s node node.linked

/-- The types differ in their links alone, and those are resolved at every depth. -/
structure Signature.Resolved (s : Snapshot) (a b : Signature) : Prop where
  frame : b.unlink = a.unlink
  links : List.Forall₂ (fun node after => LinkResolved s node after.linked) a.nodes b.nodes

structure Parameter.Resolved (s : Snapshot) (p q : Parameter) : Prop where
  frame : q = { p with type := q.type }
  type : p.type.Resolved s q.type

structure Callable.Resolved (s : Snapshot) (c d : Callable) : Prop where
  frame : d = { c with parameters := d.parameters, exceptions := d.exceptions }
  parameters : List.Forall₂ (Parameter.Resolved s) c.parameters d.parameters
  exceptions : List.Forall₂ (ClassRef.Resolved s) c.exceptions d.exceptions

structure Method.Resolved (s : Snapshot) (m n : Method) : Prop where
  callable : m.toCallable.Resolved s n.toCallable
  returnType : m.returnType.Resolved s n.returnType

structure Field.Resolved (s : Snapshot) (f g : Field) : Prop where
  frame : g = { f with type := g.type }
  type : f.type.Resolved s g.type

structure ClassDecl.Resolved (s : Snapshot) (c d : ClassDecl) : Prop where
  frame : d = { c with
    kind := d.kind
    superclass := d.superclass
    interfaces := d.interfaces
    methods := d.methods
    constructors := d.constructors
    fields := d.fields }
  superclass : Option.Rel (ClassRef.Resolved s) c.superclass d.superclass
  interfaces : List.Forall₂ (ClassRef.Resolved s) c.interfaces d.interfaces
  methods : List.Forall₂ (Method.Resolved s) c.methods d.methods
  constructors : List.Forall₂ (Callable.Resolved s) c.constructors d.constructors
  fields : List.Forall₂ (Field.Resolved s) c.fields d.fields

/-- The second snapshot is the first one with its names resolved. -/
structure Snapshot.Resolved (s t : Snapshot) : Prop where
  packages : t.packages = s.packages
  find : ∀ name, t.find? name = s.find? name
  classes : List.Forall₂ (ClassDecl.Resolved s) s.classes t.classes

section Linked

variable (s : Snapshot)

theorem ClassRef.resolved_link (ref : ClassRef) : ref.Resolved s (ref.link s.find?) := by
  cases ref with
  | linked id => exact .linked
  | named name =>
    cases found : s.find? name with
    | some id =>
      simp only [link, found]
      exact .declared (Snapshot.declares_of_find? found)
    | none =>
      simp only [link, found]
      exact .external (Snapshot.not_declares_of_find? found)

theorem Signature.linkResolved_link (node : Signature) :
    node.LinkResolved s (node.link s.find?).linked := by
  rw [linked_link]
  by_cases kind : node.kind = .classType
  · cases before : node.linked with
    | some id =>
      simp only [reduceCtorEq, and_false, if_false]
      exact .linked before
    | none =>
      simp only [kind, true_and, if_true]
      cases found : s.find? node.name with
      | some id => exact .declared kind before (Snapshot.declares_of_find? found)
      | none => exact .external kind before (Snapshot.not_declares_of_find? found)
  · simp only [kind, false_and, if_false]
    exact .otherKind kind

theorem forall₂_map {α β : Type} {R : α → β → Prop} {f : α → β} (each : ∀ a, R a (f a))
    (list : List α) : List.Forall₂ R list (list.map f) := by
  rw [List.forall₂_map_right_iff, List.forall₂_same]
  exact fun a _ => each a

theorem Signature.resolved_link (a : Signature) : a.Resolved s (a.link s.find?) where
  frame := unlink_link s.find? a
  links := by
    rw [nodes_link, List.forall₂_map_right_iff, List.forall₂_same]
    exact fun node _ => linkResolved_link s node

theorem Parameter.resolved_link (p : Parameter) : p.Resolved s (p.link s.find?) :=
  ⟨rfl, p.type.resolved_link s⟩

theorem Callable.resolved_link (c : Callable) : c.Resolved s (c.link s.find?) :=
  ⟨rfl, forall₂_map (Parameter.resolved_link s) _, forall₂_map (ClassRef.resolved_link s) _⟩

theorem Method.resolved_link (m : Method) : m.Resolved s (m.link s.find?) :=
  ⟨m.toCallable.resolved_link s, m.returnType.resolved_link s⟩

theorem Field.resolved_link (f : Field) : f.Resolved s (f.link s.find?) :=
  ⟨rfl, f.type.resolved_link s⟩

theorem ClassDecl.resolved_resolveClass (id : ClassId) (c : ClassDecl) :
    c.Resolved s (s.resolveClass id c) where
  frame := rfl
  superclass := by
    change Option.Rel _ c.superclass (c.superclass.map (ClassRef.link s.find?))
    cases c.superclass with
    | none => exact .none
    | some ref => exact .some (ref.resolved_link s)
  interfaces := forall₂_map (ClassRef.resolved_link s) _
  methods := forall₂_map (Method.resolved_link s) _
  constructors := forall₂_map (Callable.resolved_link s) _
  fields := forall₂_map (Field.resolved_link s) _

theorem Snapshot.classes_resolve : s.resolve.classes = s.classes.mapIdx s.resolveClass := by
  apply List.ext_getElem?
  intro id
  rw [List.getElem?_mapIdx]
  exact class?_resolve s id

theorem Snapshot.resolved_resolve : s.Resolved s.resolve where
  packages := rfl
  find := find?_resolve s
  classes := by
    rw [classes_resolve, List.forall₂_iff_get]
    constructor
    · rw [List.length_mapIdx]
    · intro id before after
      simp only [List.get_eq_getElem, List.getElem_mapIdx]
      exact ClassDecl.resolved_resolveClass s id _

end Linked

/-- How many references differ, one by one. -/
def refsChanged (before after : List ClassRef) : Nat :=
  (before.zip after).countP fun pair => pair.1 != pair.2

namespace Snapshot

def superclassRefs (s : Snapshot) : List ClassRef := s.classes.flatMap (·.superclass.toList)

def interfaceRefs (s : Snapshot) : List ClassRef := s.classes.flatMap (·.interfaces)

def thrownRefs (s : Snapshot) : List ClassRef := s.classes.flatMap (·.thrownRefs)

def typeNodes (s : Snapshot) : List Signature :=
  Signature.nodesAll (s.classes.flatMap (·.memberTypes))

/-- The differences between two snapshots, counted place by place, and the references of the
second one that are no links. -/
def changesTo (s t : Snapshot) : LinkCounts where
  superclasses := refsChanged s.superclassRefs t.superclassRefs
  interfaces := refsChanged s.interfaceRefs t.interfaceRefs
  exceptions := refsChanged s.thrownRefs t.thrownRefs
  signatures := (s.typeNodes.zip t.typeNodes).countP fun pair => pair.1.linked != pair.2.linked
  reclassified := s.ids.countP fun id => (s.class? id).map (·.kind) != (t.class? id).map (·.kind)
  external := (t.superclassRefs ++ t.interfaceRefs ++ t.thrownRefs).countP (·.id?.isNone)

/-- What the classes of a resolved snapshot list is what they listed before, linked. -/
theorem flatMap_resolve {α : Type} {s : Snapshot} {f : ClassDecl → List α} {link : α → α}
    (same : ∀ id c, f (s.resolveClass id c) = (f c).map link) :
    s.resolve.classes.flatMap f = (s.classes.flatMap f).map link := by
  rw [List.flatMap_def, map_of_class? (class?_resolve s) same, List.map_flatMap, List.flatMap_def]

theorem superclassRefs_resolve (s : Snapshot) :
    s.resolve.superclassRefs = s.superclassRefs.map (ClassRef.link s.find?) := by
  apply flatMap_resolve
  intro id c
  change (c.superclass.map (ClassRef.link s.find?)).toList = _
  cases c.superclass <;> rfl

theorem interfaceRefs_resolve (s : Snapshot) :
    s.resolve.interfaceRefs = s.interfaceRefs.map (ClassRef.link s.find?) := by
  apply flatMap_resolve
  intro id c
  rfl

end Snapshot

theorem ClassDecl.callables_link (find : String → Option ClassId) (c : ClassDecl) :
    (c.link find).callables = c.callables.map (Callable.link find) := by
  simp only [callables, link, List.map_append, List.map_map]
  rfl

theorem ClassDecl.thrownRefs_link (find : String → Option ClassId) (c : ClassDecl) :
    (c.link find).thrownRefs = c.thrownRefs.map (ClassRef.link find) := by
  rw [thrownRefs, callables_link, thrownRefs, List.flatMap_map, List.map_flatMap]
  rfl

theorem ClassDecl.memberTypes_link (find : String → Option ClassId) (c : ClassDecl) :
    (c.link find).memberTypes = c.memberTypes.map (Signature.link find) := by
  have taken : (c.link find).callables.flatMap (fun k => k.parameters.map (·.type)) =
      (c.callables.flatMap fun k => k.parameters.map (·.type)).map (Signature.link find) := by
    rw [callables_link, List.flatMap_map, List.map_flatMap]
    apply List.flatMap_congr
    intro k _
    change (k.parameters.map (Parameter.link find)).map _ = _
    refine map_map_comm (fun p => ?_) _
    rfl
  have returned : (c.methods.map (Method.link find)).map (·.returnType) =
      (c.methods.map (·.returnType)).map (Signature.link find) := by
    refine map_map_comm (fun m => ?_) _
    rfl
  have held : (c.fields.map (Field.link find)).map (·.type) =
      (c.fields.map (·.type)).map (Signature.link find) := by
    refine map_map_comm (fun f => ?_) _
    rfl
  rw [memberTypes, taken, memberTypes, List.map_append, List.map_append, ← returned, ← held]
  rfl

namespace Snapshot

theorem thrownRefs_resolve (s : Snapshot) :
    s.resolve.thrownRefs = s.thrownRefs.map (ClassRef.link s.find?) :=
  flatMap_resolve fun _ c => c.thrownRefs_link s.find?

theorem typeNodes_resolve (s : Snapshot) :
    s.resolve.typeNodes = s.typeNodes.map (Signature.link s.find?) := by
  have types : s.resolve.classes.flatMap (·.memberTypes) =
      (s.classes.flatMap (·.memberTypes)).map (Signature.link s.find?) :=
    flatMap_resolve fun _ c => c.memberTypes_link s.find?
  rw [typeNodes, types, ← Signature.linkAll_eq_map, Signature.nodesAll_linkAll, typeNodes]

/-- Of places changed one by one, those that come out different. -/
theorem countP_zip_map {α : Type} {differ : α × α → Bool} {change : α → α} {changes : α → Bool}
    (same : ∀ a, differ (a, change a) = changes a) (list : List α) :
    (list.zip (list.map change)).countP differ = list.countP changes := by
  induction list with
  | nil => rfl
  | cons a rest ih => simp only [List.map_cons, List.zip_cons_cons, List.countP_cons, ih, same]

theorem refsChanged_link (find : String → Option ClassId) (refs : List ClassRef) :
    refsChanged refs (refs.map (ClassRef.link find)) = refs.countP (ClassRef.isLinkable find) := by
  apply countP_zip_map
  intro ref
  cases ref with
  | linked id => simp [ClassRef.link, ClassRef.isLinkable]
  | named name => cases found : find name <;> simp [ClassRef.link, ClassRef.isLinkable, found]

theorem isNone_id?_link (find : String → Option ClassId) (ref : ClassRef) :
    (ref.link find).id?.isNone = ref.isExternal find := by
  cases ref with
  | linked id => rfl
  | named name =>
    cases found : find name <;> simp [ClassRef.link, ClassRef.isExternal, ClassRef.id?, found]

theorem kindOfMarker_cases {name : String} {kind : ClassKind} (h : kindOfMarker name = some kind) :
    kind = .error ∨ kind = .exception ∨ kind = .enumeration := by
  unfold kindOfMarker at h
  split_ifs at h <;> cases h <;> simp

theorem kindOfEnding_cases {name : String} {kind : ClassKind} (h : kindOfEnding name = some kind) :
    kind = .error ∨ kind = .exception := by
  unfold kindOfEnding at h
  split_ifs at h <;> cases h <;> simp

theorem kindOfChain_cases {s : Snapshot} {chain : List String} {kind : ClassKind}
    (h : s.kindOfChain chain = some kind) :
    kind = .error ∨ kind = .exception ∨ kind = .enumeration := by
  rcases Option.or_eq_some_iff.mp h with marked | ⟨_, guessed⟩
  · obtain ⟨name, _, hname⟩ := List.exists_of_findSome?_eq_some marked
    exact kindOfMarker_cases hname
  · obtain ⟨name, _, hname⟩ := Option.bind_eq_some_iff.mp guessed
    exact (kindOfEnding_cases hname).imp_right .inl

theorem derivedKind?_cases {s : Snapshot} {id : ClassId} {declared kind : ClassKind}
    (h : s.derivedKind? id declared = some kind) :
    declared = .plain ∧ (kind = .error ∨ kind = .exception ∨ kind = .enumeration) ∨
      declared = .interface ∧ kind = .annotationType := by
  unfold derivedKind? at h
  split at h
  · exact .inl ⟨rfl, kindOfChain_cases h⟩
  · split_ifs at h
    cases h
    exact .inr ⟨rfl, rfl⟩
  · cases h

/-- A kind that the hierarchy gave is final. -/
theorem derivedKind?_settled {s : Snapshot} {id : ClassId} {declared kind : ClassKind}
    (h : s.derivedKind? id declared = some kind) (t : Snapshot) (other : ClassId) :
    t.derivedKind? other kind = none := by
  rcases derivedKind?_cases h with ⟨_, rfl | rfl | rfl⟩ | ⟨_, rfl⟩ <;> rfl

theorem kind_resolveClass_ne_iff (s : Snapshot) (id : ClassId) (c : ClassDecl) :
    c.kind ≠ (s.resolveClass id c).kind ↔ (s.linkNames.derivedKind? id c.kind).isSome = true := by
  change c.kind ≠ (s.linkNames.derivedKind? id c.kind).getD c.kind ↔ _
  cases derived : s.linkNames.derivedKind? id c.kind with
  | none => simp
  | some kind =>
    have other : c.kind ≠ kind := by
      rintro rfl
      have settled := derivedKind?_settled derived s.linkNames id
      rw [derived] at settled
      cases settled
    simp [other]

theorem length_kindChanges (s : Snapshot) :
    s.linkNames.kindChanges.length =
      s.ids.countP fun id => (s.class? id).map (·.kind) != (s.resolve.class? id).map (·.kind) := by
  rw [kindChanges, List.length_filterMap_eq_countP, ids_linkNames]
  apply List.countP_congr
  intro id hid
  obtain ⟨c, hc⟩ := exists_class?_of_mem_ids hid
  have linked : s.linkNames.class? id = some (c.link s.find?) := by
    rw [class?_linkNames, hc]
    rfl
  have changed : (c.kind != (s.resolveClass id c).kind) =
      (s.linkNames.derivedKind? id c.kind).isSome := by
    rw [Bool.eq_iff_iff, bne_iff_ne]
    exact kind_resolveClass_ne_iff s id c
  have sameKind : (c.link s.find?).kind = c.kind := rfl
  rw [class?_resolve, hc]
  simp only [linked, sameKind, Option.map_some, Option.bind_eq_bind, Option.bind_some,
    Option.pure_def, Option.isSome_bind, Option.isSome_some, Option.any_true, ← changed]
  rfl

theorem linkCounts_eq_changesTo (s : Snapshot) : s.linkCounts = s.changesTo s.resolve := by
  simp only [changesTo, superclassRefs_resolve, interfaceRefs_resolve, thrownRefs_resolve,
    typeNodes_resolve, refsChanged_link, ← length_kindChanges]
  have links : (s.typeNodes.zip (s.typeNodes.map (Signature.link s.find?))).countP
      (fun pair => pair.1.linked != pair.2.linked) =
      s.typeNodes.countP (Signature.isLinkable s.find?) := by
    apply countP_zip_map
    intro node
    rw [Bool.eq_iff_iff, bne_iff_ne]
    exact Signature.linked_link_ne_iff s.find? node
  have external : ((s.superclassRefs ++ s.interfaceRefs ++ s.thrownRefs).map
      (ClassRef.link s.find?)).countP (·.id?.isNone) =
      (s.superclassRefs ++ s.interfaceRefs ++ s.thrownRefs).countP (ClassRef.isExternal s.find?) := by
    rw [List.countP_map]
    apply List.countP_congr
    intro ref _
    rw [Function.comp_apply, isNone_id?_link]
  rw [links, ← List.map_append, ← List.map_append, external, typeNodes,
    ← Signature.newLinksAll_eq_countP]
  rfl

/-- Resolving links the declared names and nothing else, changes nothing but links and kinds, and
counts what it does. -/
theorem resolve_links_exactly (s : Snapshot) :
    s.Resolved s.resolve ∧ s.linkCounts = s.changesTo s.resolve :=
  ⟨resolved_resolve s, linkCounts_eq_changesTo s⟩

end Snapshot

end ApiCompat
