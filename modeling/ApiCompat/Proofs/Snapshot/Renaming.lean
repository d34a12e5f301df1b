import ApiCompat.Proofs.Signature.Renaming
import ApiCompat.Proofs.Snapshot.Supertypes

/-! Renaming the type variables of a snapshot. Each class has its own renaming, and a nested
class the one of its outer class, since the variables of the outer class are in force inside
it. Names of classes, links and the hierarchy do not change, and the scope of a class is the
old one under its renaming, so keys stay the same. -/
namespace ApiCompat

def Parameter.rename (f : String → String) (p : Parameter) : Parameter :=
  { p with type := p.type.rename f }

def Callable.rename (f : String → String) (c : Callable) : Callable :=
  { c with
    typeParameters := c.typeParameters.map (Signature.rename f)
    parameters := c.parameters.map (Parameter.rename f) }

def Method.rename (f : String → String) (m : Method) : Method :=
  { m with
    toCallable := m.toCallable.rename f
    returnType := m.returnType.rename f }

def Field.rename (f : String → String) (a : Field) : Field :=
  { a with type := a.type.rename f }

def ClassDecl.rename (f : String → String) (c : ClassDecl) : ClassDecl :=
  { c with
    typeParameters := c.typeParameters.map (Signature.rename f)
    methods := c.methods.map (Method.rename f)
    constructors := c.constructors.map (Callable.rename f)
    fields := c.fields.map (Field.rename f) }

theorem ClassDecl.method_mem_callables {c : ClassDecl} {m : Method} (h : m ∈ c.methods) :
    m.toCallable ∈ c.callables :=
  List.mem_append_left _ (List.mem_map_of_mem h)

theorem ClassDecl.constructor_mem_callables {c : ClassDecl} {k : Constructor}
    (h : k ∈ c.constructors) : k ∈ c.callables :=
  List.mem_append_right _ h

theorem Callable.scope_rename (f : String → String) (scope : Scope) (c : Callable) :
    (c.rename f).scope (scope.rename f) = (c.scope scope).rename f := rfl

theorem Callable.key_rename {f : String → String} (apart : Function.Injective f) {scope : Scope}
    {c : Callable} (declared : (c.scope scope).DeclaresVariables) :
    (c.rename f).key (scope.rename f) = c.key scope := by
  have types : (c.rename f).erasedParameters (scope.rename f) = c.erasedParameters scope := by
    rw [erasedParameters, erasedParameters, scope_rename]
    change (c.parameters.map (Parameter.rename f)).map _ = _
    rw [List.map_map]
    refine List.map_congr_left ?_
    intro p _
    exact Signature.erasure_rename apart declared p.type
  rw [key, key, types]
  rfl

namespace Snapshot

/-- Renames the type variables of every class by the renaming of its number. -/
def rename (name : ClassId → String → String) (s : Snapshot) : Snapshot :=
  { s with classes := s.classes.mapIdx fun id c => c.rename (name id) }

/-- One renaming for each outermost class, shared by the classes nested in it. -/
structure IsRenaming (s : Snapshot) (name : ClassId → String → String) : Prop where
  apart : ∀ id, Function.Injective (name id)
  shared : ∀ id outer, s.outer? id = some outer → name outer = name id

variable (name : ClassId → String → String) (s : Snapshot)

theorem class?_rename (id : ClassId) :
    (s.rename name).class? id = (s.class? id).map (ClassDecl.rename (name id)) :=
  List.getElem?_mapIdx

theorem ids_rename : (s.rename name).ids = s.ids := by
  simp only [rename, ids, List.length_mapIdx]

theorem nameOf_rename (id : ClassId) : (s.rename name).nameOf id = s.nameOf id := by
  unfold nameOf
  rw [class?_rename]
  cases s.class? id <;> rfl

theorem nameOfRef_rename (ref : ClassRef) : (s.rename name).nameOfRef ref = s.nameOfRef ref := by
  cases ref with
  | named text => rfl
  | linked id => exact nameOf_rename name s id

theorem find?_rename (text : String) : (s.rename name).find? text = s.find? text := by
  refine find?_congr ?_ text
  refine List.ext_getElem? fun i => ?_
  rw [List.getElem?_map, List.getElem?_map]
  change ((s.rename name).class? i).map _ = (s.class? i).map _
  rw [class?_rename, Option.map_map]
  rfl

theorem supertypeRefs_rename (id : ClassId) :
    (s.rename name).supertypeRefs id = s.supertypeRefs id := by
  unfold supertypeRefs
  rw [class?_rename]
  cases s.class? id <;> rfl

theorem superclassRef?_rename (id : ClassId) :
    (s.rename name).superclassRef? id = s.superclassRef? id := by
  unfold superclassRef?
  rw [class?_rename]
  cases s.class? id <;> rfl

theorem outer?_rename (id : ClassId) : (s.rename name).outer? id = s.outer? id := by
  unfold outer?
  rw [class?_rename]
  cases s.class? id <;> rfl

theorem superclassChain_rename (id : ClassId) :
    (s.rename name).superclassChain id = s.superclassChain id := by
  have next : (s.rename name).superclass? = s.superclass? := by
    funext a
    rw [superclass?, superclass?, superclassRef?_rename]
  simp only [superclassChain, superclasses, next, ids_rename, superclassRef?_rename,
    funext (nameOfRef_rename name s)]

theorem ancestors_rename (id : ClassId) : (s.rename name).ancestors id = s.ancestors id := by
  have links : (s.rename name).parents = s.parents := by
    funext a
    rw [parents, parents, supertypeRefs_rename]
  rw [ancestors, ancestors, links, ids_rename]

theorem supertypeNames_rename (id : ClassId) :
    (s.rename name).supertypeNames id = s.supertypeNames id := by
  have externals : (s.rename name).externalNames = s.externalNames := by
    funext a
    rw [externalNames, externalNames, supertypeRefs_rename]
  simp only [supertypeNames, ancestors_rename, externals, funext (nameOf_rename name s)]

theorem isSubtypeOf_rename (id : ClassId) (text : String) :
    (s.rename name).isSubtypeOf id text = s.isSubtypeOf id text := by
  rw [isSubtypeOf, isSubtypeOf, nameOf_rename, supertypeNames_rename]

theorem enclosing_rename (id : ClassId) : (s.rename name).enclosing id = s.enclosing id := by
  rw [enclosing, enclosing, funext (outer?_rename name s), ids_rename]

variable {name} {s}

theorem IsRenaming.enclosing (named : s.IsRenaming name) {id outer : ClassId}
    (h : outer ∈ s.enclosing id) : name outer = name id := by
  have path := (Walk.trail_sound h).2
  clear h
  induction path with
  | single link => exact named.shared _ _ link
  | tail _ link ih => exact (named.shared _ _ link).trans ih

theorem typeScope_rename (named : s.IsRenaming name) (id : ClassId) :
    (s.rename name).typeScope id = (s.typeScope id).rename (name id) := by
  have own (a : ClassId) : (s.rename name).typeParametersOf a =
      (s.typeParametersOf a).map (Signature.rename (name a)) := by
    unfold typeParametersOf
    rw [class?_rename]
    cases s.class? a <;> rfl
  unfold typeScope Scope.rename
  rw [enclosing_rename, own, List.map_cons, List.map_map]
  congr 2
  refine List.map_congr_left ?_
  intro outer houter
  rw [own, named.enclosing houter]
  rfl

theorem WellFormed.typeScope (wf : s.WellFormed) (id : ClassId) :
    (s.typeScope id).DeclaresVariables := by
  have own (a : ClassId) : ∀ p ∈ s.typeParametersOf a, p.kind = .typeVariable := by
    unfold typeParametersOf
    split
    · rename_i c hc
      intro p hp
      exact wf.parameters c (mem_classes_of_class? hc) p (List.mem_append_left _ hp)
    · simp
  intro p hp
  rcases List.mem_append.mp hp with inner | outer
  · exact own id p inner
  · obtain ⟨frame, hframe, hmem⟩ := List.mem_flatten.mp outer
    obtain ⟨a, _, rfl⟩ := List.mem_map.mp hframe
    exact own a p hmem

end Snapshot

end ApiCompat
