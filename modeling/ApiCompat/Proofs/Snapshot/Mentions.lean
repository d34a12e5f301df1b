import ApiCompat.Proofs.Snapshot.Attachment
import ApiCompat.Proofs.Snapshot.Resolution

/-! The classes that a declaration mentions: its outer class, and those that its references and
types are linked to. Reading makes no links, so what is loaded mentions outer classes alone;
linking adds declared classes. -/
namespace ApiCompat

open Markup (Tag Element Spells)

namespace Signature

/-- The links of the signature, at every depth, are to such classes. -/
inductive LinksIn (good : ClassId → Prop) : Signature → Prop where
  | node {s : Signature} : (∀ id, s.linked = some id → good id) →
      (∀ t ∈ s.children, LinksIn good t) → LinksIn good s

namespace LinksIn

variable {good : ClassId → Prop}

theorem own {s : Signature} (h : s.LinksIn good) {id : ClassId} (linked : s.linked = some id) :
    good id := by
  cases h with
  | node own _ => exact own id linked

theorem child {s t : Signature} (h : s.LinksIn good) (inside : t ∈ s.children) : t.LinksIn good := by
  cases h with
  | node _ below => exact below t inside

theorem congr {s t : Signature} (h : s.LinksIn good) (linked : t.linked = s.linked)
    (children : t.children = s.children) : t.LinksIn good :=
  .node (fun _ own => h.own (linked ▸ own)) fun _ inside => h.child (children ▸ inside)

theorem mono {other : ClassId → Prop} (weaker : ∀ id, good id → other id) {s : Signature}
    (h : s.LinksIn good) : s.LinksIn other := by
  induction h with
  | node own _ ih => exact .node (fun id linked => weaker id (own id linked)) ih

theorem markVariables (isVariable : String → Bool) {s : Signature} (h : s.LinksIn good) :
    (s.markVariables isVariable).LinksIn good := by
  induction h with
  | @node s own _ ih =>
    obtain ⟨kind, name, dimension, arguments, supers, uppers, varargs, linked⟩ := s
    refine .node own ?_
    simpa [children, Signature.markVariables, markVariablesAll_eq_map, or_imp, forall_and] using ih

theorem markChildren (isVariable : String → Bool) {s : Signature} (h : s.LinksIn good) :
    (s.markChildren isVariable).LinksIn good := by
  refine .node (fun id linked => h.own linked) ?_
  have below : ∀ t ∈ s.children.map (Signature.markVariables isVariable), t.LinksIn good := by
    intro t ht
    obtain ⟨u, hu, rfl⟩ := List.mem_map.mp ht
    exact (h.child hu).markVariables isVariable
  simpa only [children, Signature.markChildren, markVariablesAll_eq_map, List.map_append] using below

theorem link {find : String → Option ClassId} (found : ∀ name id, find name = some id → good id)
    {s : Signature} (h : s.LinksIn good) : (s.link find).LinksIn good := by
  induction h with
  | @node s own _ ih =>
    obtain ⟨kind, name, dimension, arguments, supers, uppers, varargs, linked⟩ := s
    refine .node ?_ ?_
    · intro id linked
      simp only [Signature.link] at linked
      split at linked
      · exact found name id linked
      · exact own id linked
    · simpa [children, Signature.link, linkAll_eq_map, or_imp, forall_and] using ih

/-- A copy is linked where its use and the bounds of the scope are. -/
theorem attachBoundsWith {scope : Scope} (declared : ∀ p ∈ scope.parameters, p.LinksIn good)
    (copying : List String) {s : Signature} (h : s.LinksIn good) :
    (s.attachBoundsWith scope copying).LinksIn good := by
  revert h
  apply attachBoundsWith.induct scope
    (fun copying s => s.LinksIn good → (s.attachBoundsWith scope copying).LinksIn good)
    (fun copying list => ∀ s ∈ list, s.LinksIn good → (s.attachBoundsWith scope copying).LinksIn good)
  · intro copying s bounds inherited ih h
    obtain ⟨_, _, _, p, found, rfl⟩ := eq_of_inheritedBounds? inherited
    have bounds : ∀ t ∈ p.extendsBounds, t.LinksIn good := fun t ht =>
      (declared p (List.mem_of_find?_eq_some found)).child (mem_children.mpr (.inr (.inr ht)))
    rw [attachBoundsWith_of_inherited inherited]
    refine .node (fun id linked => h.own linked) fun t ht => ?_
    rcases mem_children.mp ht with ht | ht | ht
    · exact h.child (mem_children.mpr (.inl ht))
    · exact h.child (mem_children.mpr (.inr (.inl ht)))
    · obtain ⟨bound, hbound, rfl⟩ := List.mem_map.mp ht
      exact ih bound hbound (bounds bound hbound)
  · intro copying s own arguments supers uppers h
    rw [attachBoundsWith_of_own own]
    refine .node (fun id linked => h.own linked) fun t ht => ?_
    rcases mem_children.mp ht with ht | ht | ht <;> obtain ⟨u, hu, rfl⟩ := List.mem_map.mp ht
    · exact arguments u hu (h.child (mem_children.mpr (.inl hu)))
    · exact supers u hu (h.child (mem_children.mpr (.inr (.inl hu))))
    · exact uppers u hu (h.child (mem_children.mpr (.inr (.inr hu))))
  · rintro copying s ⟨⟩
  · intro copying s rest first others
    exact List.forall_mem_cons.mpr ⟨first, others⟩

end LinksIn

section Read

variable {good : ClassId → Prop} {whole : String}

theorem LinksIn.withBounds (side : BoundSide) {bounds : List Signature}
    (inside : ∀ b ∈ bounds, b.LinksIn good) {s : Signature} (h : s.LinksIn good) :
    (s.withBounds side bounds).LinksIn good := by
  refine .node (fun id linked => h.own (by cases side <;> exact linked)) fun t ht => ?_
  rw [mem_children] at ht
  cases side with
  | upper =>
    rcases ht with ht | ht | ht
    · exact h.child (mem_children.mpr (.inl ht))
    · exact h.child (mem_children.mpr (.inr (.inl ht)))
    · exact inside t ht
  | lower =>
    rcases ht with ht | ht | ht
    · exact h.child (mem_children.mpr (.inl ht))
    · exact inside t ht
    · exact h.child (mem_children.mpr (.inr (.inr ht)))

theorem linksIn_ofName (kind : TypeKind) (name : String) : (ofName kind name).LinksIn good :=
  .node (by intro id linked; cases linked) (by intro t inside; cases inside)

theorem linksIn_readType {text : List Char} {s : Signature} (read : readType whole text = .ok s) :
    s.LinksIn good := by
  refine of_readType (linksIn_ofName _ _) ?_ ?_ ?_ read
  · intro side bounds _ inside
    exact (linksIn_ofName _ _).withBounds side inside
  · intro head side bounds _ declared inside
    refine LinksIn.withBounds _ ?_ (declared.congr rfl rfl)
    simp only [markVariablesAll_eq_map, List.forall_mem_map]
    intro b hb
    exact (inside b hb).markVariables _
  · intro bare arguments inside
    refine .node (by intro id linked; cases linked) fun t ht => inside t ?_
    simpa [children, ofBareText, ofName] using ht

theorem linksIn_parse {text : String} {s : Signature} (read : parse text = .ok s) :
    s.LinksIn good := by
  obtain ⟨_, t, varargs, ht, rfl⟩ := exists_readType_of_parse read
  exact (linksIn_readType ht).congr rfl rfl

theorem linksIn_parseParameters {list : String} {parameters : List Signature}
    (read : parseParameters list = .ok parameters) : ∀ p ∈ parameters, p.LinksIn good :=
  forall_of_parseParameters (fun _ _ inside => LinksIn.markChildren _ inside)
    (fun _ _ ht => (linksIn_readType ht).congr rfl rfl) read

end Read

section Loaded

variable {good : ClassId → Prop} {tag : Tag}

theorem linksIn_readUse {scope : Scope} (declared : ∀ p ∈ scope.parameters, p.LinksIn good)
    {text : String} {s : Signature} (read : tag.readUse scope text = .ok s) : s.LinksIn good := by
  obtain ⟨parsed, parsing, read⟩ := ok_of_bind read
  cases read
  exact ((linksIn_parse (ok_of_mapError parsing)).markVariables _).attachBoundsWith declared []

theorem linksIn_readDeclaredName {name : String} {parameters : List Signature}
    (read : tag.readDeclaredName = .ok (name, parameters)) : ∀ p ∈ parameters, p.LinksIn good := by
  obtain ⟨text, _, read⟩ := ok_of_bind read
  obtain ⟨⟨bare, declared⟩, parsing, read⟩ := ok_of_bind read
  cases read
  have parsed := ok_of_mapError parsing
  unfold parseDeclaredName at parsed
  dsimp only at parsed
  intro p hp
  obtain ⟨q, hq, rfl⟩ := List.mem_map.mp hp
  split at parsed
  · cases parsed
    cases hq
  · obtain ⟨found, hfound, parsed⟩ := ok_of_bind parsed
    cases parsed
    exact (linksIn_parseParameters hfound q hq).markChildren _

end Loaded

end Signature

theorem ClassRef.link_eq_linked {find : String → Option ClassId} {ref : ClassRef} {id : ClassId}
    (h : ref.link find = .linked id) : ref = .linked id ∨ ∃ name, find name = some id := by
  cases ref with
  | linked target => exact .inl h
  | named name =>
    simp only [ClassRef.link] at h
    split at h
    · rename_i target found
      cases h
      exact .inr ⟨name, found⟩
    · cases h

namespace ClassDecl

/-- The supertypes, and what members throw. -/
def refs (c : ClassDecl) : List ClassRef := c.supertypes ++ c.thrownRefs

/-- The declared type parameters, and the types of members. -/
def types (c : ClassDecl) : List Signature := c.declaredParameters ++ c.memberTypes

theorem refs_link (find : String → Option ClassId) (c : ClassDecl) :
    (c.link find).refs = c.refs.map (ClassRef.link find) := by
  rw [refs, refs, supertypes_link, thrownRefs_link, List.map_append]

/-- The references and types are linked to such classes alone. -/
structure LinksIn (good : ClassId → Prop) (c : ClassDecl) : Prop where
  refs : ∀ id, .linked id ∈ c.refs → good id
  types : ∀ s ∈ c.types, s.LinksIn good

/-- All references and types are by name. -/
def Unlinked (c : ClassDecl) : Prop := c.LinksIn fun _ => False

namespace LinksIn

variable {good : ClassId → Prop} {c : ClassDecl}

theorem mono {other : ClassId → Prop} (weaker : ∀ id, good id → other id) (h : c.LinksIn good) :
    c.LinksIn other where
  refs id inside := weaker id (h.refs id inside)
  types s inside := (h.types s inside).mono weaker

theorem link {find : String → Option ClassId} (found : ∀ name id, find name = some id → good id)
    (h : c.LinksIn good) : (c.link find).LinksIn good where
  refs := by
    intro id inside
    rw [refs_link] at inside
    obtain ⟨ref, hmem, linked⟩ := List.mem_map.mp inside
    rcases ClassRef.link_eq_linked linked with rfl | ⟨name, declared⟩
    · exact h.refs id hmem
    · exact found name id declared
  types := by
    intro s inside
    rw [ClassDecl.types, declaredParameters_link, memberTypes_link] at inside
    rcases List.mem_append.mp inside with declared | member
    · exact h.types s (List.mem_append_left _ declared)
    · obtain ⟨t, ht, rfl⟩ := List.mem_map.mp member
      exact (h.types t (List.mem_append_right _ ht)).link found

end LinksIn

/-- All classes that the class mentions are such classes. -/
structure MentionsIn (good : ClassId → Prop) (c : ClassDecl) : Prop extends c.LinksIn good where
  outer : ∀ id, c.outer = some id → good id

theorem MentionsIn.mono {good other : ClassId → Prop} (weaker : ∀ id, good id → other id)
    {c : ClassDecl} (h : c.MentionsIn good) : c.MentionsIn other :=
  ⟨h.toLinksIn.mono weaker, fun id around => weaker id (h.outer id around)⟩

end ClassDecl

section Loaded

variable {good : ClassId → Prop} {scope : Scope} {e : Element}

namespace Callable

structure LinksIn (good : ClassId → Prop) (k : Callable) : Prop where
  typeParameters : ∀ p ∈ k.typeParameters, p.LinksIn good
  parameters : ∀ p ∈ k.parameters, p.type.LinksIn good
  exceptions : ∀ id, .linked id ∈ k.exceptions → good id

theorem Described.linksIn_scope {k : Callable} (described : k.Described scope e)
    (declared : ∀ p ∈ scope.parameters, p.LinksIn good) :
    ∀ p ∈ (k.scope scope).parameters, p.LinksIn good := by
  intro p hp
  rcases List.mem_append.mp hp with own | around
  · exact Signature.linksIn_readDeclaredName described.heading p own
  · exact declared p around

theorem Described.linksIn {k : Callable} (described : k.Described scope e)
    (declared : ∀ p ∈ scope.parameters, p.LinksIn good) : k.LinksIn good := by
  refine ⟨Signature.linksIn_readDeclaredName described.heading, ?_, ?_⟩
  · intro p hp
    obtain ⟨_, _, read⟩ := exists_of_mem_forall₂ described.parts.parameters hp
    exact Signature.linksIn_readUse (described.linksIn_scope declared) read.type
  · intro id linked
    obtain ⟨_, _, _, _, named⟩ := exists_of_mem_forall₂ described.parts.exceptions linked
    cases named

end Callable

theorem Holdings.Described.callables {c : ClassDecl}
    (described : c.holdings.Described scope e.content) {k : Callable} (hk : k ∈ c.callables) :
    ∃ inner, k.Described scope inner := by
  rcases List.mem_append.mp hk with method | constructor
  · obtain ⟨m, hm, rfl⟩ := List.mem_map.mp method
    obtain ⟨inner, _, hinner⟩ := exists_of_mem_forall₂ described.methods hm
    exact ⟨inner, hinner.callable⟩
  · obtain ⟨inner, _, hinner⟩ := exists_of_mem_forall₂ described.constructors constructor
    exact ⟨inner, hinner⟩

theorem ClassDecl.Headed.typeParameters {tag : Tag} {around : Option String} {c : ClassDecl}
    (headed : c.Headed tag around) : ∀ p ∈ c.typeParameters, p.LinksIn good := by
  obtain ⟨bare, read, _⟩ := headed.name
  exact Signature.linksIn_readDeclaredName read

/-- What a described class links depends on the parameters in force around it alone. -/
theorem ClassDecl.Described.linksIn {s : Snapshot} {e : Markup.ClassElement} {c : ClassDecl}
    (described : c.Described s e)
    (declared : ∀ p ∈ (s.typeScope e.number).parameters, p.LinksIn good) : c.LinksIn good := by
  have members : ∀ k ∈ c.callables, k.LinksIn good := by
    intro k hk
    obtain ⟨inner, hinner⟩ := described.holdings.callables hk
    exact hinner.linksIn declared
  refine ⟨?_, ?_⟩
  · intro id inside
    simp only [refs, supertypes, List.mem_append, Option.mem_toList] at inside
    rcases inside with (superclass | interface) | thrown
    · rw [described.heading.superclass] at superclass
      obtain ⟨_, _, named⟩ := Option.map_eq_some_iff.mp superclass
      cases named
    · obtain ⟨_, _, _, _, named⟩ := exists_of_mem_forall₂ described.holdings.interfaces interface
      cases named
    · obtain ⟨k, hk, thrown⟩ := List.mem_flatMap.mp thrown
      exact (members k hk).exceptions id thrown
  · intro t inside
    simp only [types, declaredParameters, memberTypes, List.mem_append] at inside
    rcases inside with (own | inner) | (returned | taken) | held
    · exact described.heading.typeParameters t own
    · obtain ⟨k, hk, inner⟩ := List.mem_flatMap.mp inner
      exact (members k hk).typeParameters t inner
    · obtain ⟨m, hm, rfl⟩ := List.mem_map.mp returned
      obtain ⟨_, _, hmethod⟩ := exists_of_mem_forall₂ described.holdings.methods hm
      obtain ⟨text, _, read⟩ := hmethod.returnType
      exact Signature.linksIn_readUse (hmethod.callable.linksIn_scope declared) read
    · obtain ⟨k, hk, taken⟩ := List.mem_flatMap.mp taken
      obtain ⟨p, hp, rfl⟩ := List.mem_map.mp taken
      exact (members k hk).parameters p hp
    · obtain ⟨f, hf, rfl⟩ := List.mem_map.mp held
      obtain ⟨_, _, hfield⟩ := exists_of_mem_forall₂ described.holdings.fields hf
      obtain ⟨text, _, read⟩ := hfield.type
      exact Signature.linksIn_readUse declared read

end Loaded

namespace Snapshot

theorem mem_typeScope {s : Snapshot} {id : ClassId} {p : Signature}
    (hp : p ∈ (s.typeScope id).parameters) : ∃ c ∈ s.classes, p ∈ c.typeParameters := by
  obtain ⟨frame, hframe, hp⟩ := List.mem_flatten.mp hp
  rw [typeScope, ← List.map_cons (f := s.typeParametersOf)] at hframe
  obtain ⟨around, _, rfl⟩ := List.mem_map.mp hframe
  unfold typeParametersOf at hp
  split at hp
  · rename_i c hc
    exact ⟨c, mem_classes_of_class? hc, hp⟩
  · cases hp

theorem unlinked_of_load {document : List UInt8} {s : Snapshot}
    (loaded : Snapshot.load document = .ok s) : ∀ c ∈ s.classes, c.Unlinked := by
  intro c hc
  obtain ⟨id, hc⟩ := List.mem_iff_getElem?.mp hc
  obtain ⟨e, described, _⟩ := exists_described_class loaded hc
  refine described.linksIn fun p hp => ?_
  obtain ⟨d, hd, hp⟩ := mem_typeScope hp
  obtain ⟨other, hd⟩ := List.mem_iff_getElem?.mp hd
  obtain ⟨_, around, _⟩ := exists_described_class loaded hd
  exact around.heading.typeParameters p hp

end Snapshot

end ApiCompat
