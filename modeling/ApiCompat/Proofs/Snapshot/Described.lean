import ApiCompat.Proofs.Markup.Forest
import ApiCompat.Snapshot.Description
import Mathlib.Data.List.Forall2

/-! What a forest of elements describes. Every declaration belongs to the nearest element around it
that can hold it: a member to a class, a parameter or thrown type to a method or constructor, a
class to a package and perhaps to a class. Elements of other names do not come between. -/
namespace ApiCompat

open Markup (Tag Element)

namespace Markup

def Tag.opensClass (tag : Tag) : Bool := tag.name == "class" || tag.name == "interface"

def Tag.opensCallable (tag : Tag) : Bool := tag.name == "method" || tag.name == "constructor"

namespace Element

mutual

/-- An element and the elements inside it, in document order, without those inside an element that
`shuts`. -/
def reach (shuts : Tag → Bool) : Element → List Element
  | ⟨tag, content⟩ => ⟨tag, content⟩ :: if shuts tag then [] else reachAll shuts content

def reachAll (shuts : Tag → Bool) : List Element → List Element
  | [] => []
  | e :: rest => e.reach shuts ++ reachAll shuts rest

end

/-- The elements of a name that are inside no other element that `shuts`. In the content of an
element that does, they are those for which it is the nearest one around. -/
def within (shuts : Tag → Bool) (name : String) (forest : List Element) : List Element :=
  (reachAll shuts forest).filter (·.tag.name == name)

end Element

/-- A class element, the number of its class, and the nearest package and class around it. -/
structure ClassElement where
  element : Element
  number : ClassId
  package : Option String
  outer : Option ClassId

namespace Element

mutual

/-- The class elements in document order, numbered from `number` on. -/
def classes (number : ClassId) (package : Option String) (outer : Option ClassId) :
    Element → List ClassElement
  | ⟨tag, content⟩ =>
    if tag.opensClass then
      ⟨⟨tag, content⟩, number, package, outer⟩ ::
        classesAll (number + 1) package (some number) content
    else
      let package := if tag.name = "package" then tag.attribute? "name" else package
      classesAll number package outer content

def classesAll (number : ClassId) (package : Option String) (outer : Option ClassId) :
    List Element → List ClassElement
  | [] => []
  | e :: rest =>
    let first := e.classes number package outer
    first ++ classesAll (number + first.length) package outer rest

end

def packages (forest : List Element) : List Element := within (fun _ => false) "package" forest

mutual

theorem element_classes (number : ClassId) (package : Option String) (outer : Option ClassId) :
    (e : Element) → (e.classes number package outer).map (·.element) =
      (e.reach fun _ => false).filter (·.tag.opensClass)
  | ⟨tag, content⟩ => by
    by_cases opens : tag.opensClass <;>
      simp [classes, reach, opens, element_classesAll _ _ _ content]

theorem element_classesAll (number : ClassId) (package : Option String) (outer : Option ClassId) :
    (forest : List Element) → (classesAll number package outer forest).map (·.element) =
      (reachAll (fun _ => false) forest).filter (·.tag.opensClass)
  | [] => rfl
  | e :: rest => by
    simp [classesAll, reachAll, element_classes _ _ _ e, element_classesAll _ _ _ rest]

end

mutual

theorem number_classes (number : ClassId) (package : Option String) (outer : Option ClassId) :
    (e : Element) → (e.classes number package outer).map (·.number) =
      List.range' number (e.classes number package outer).length
  | ⟨tag, content⟩ => by
    by_cases opens : tag.opensClass <;>
      simp [classes, opens, number_classesAll _ _ _ content, List.range'_succ]

theorem number_classesAll (number : ClassId) (package : Option String) (outer : Option ClassId) :
    (forest : List Element) → (classesAll number package outer forest).map (·.number) =
      List.range' number (classesAll number package outer forest).length
  | [] => rfl
  | e :: rest => by
    simp only [classesAll, List.map_append, List.length_append, number_classes _ _ _ e,
      number_classesAll _ _ _ rest, List.range'_append_1]

end

theorem number_getElem_classesAll {forest : List Element} {id : ClassId}
    (inside : id < (classesAll 0 none none forest).length) :
    (classesAll 0 none none forest)[id].number = id := by
  have numbers := congrArg (·[id]?) (number_classesAll 0 none none forest)
  simpa [inside] using numbers

end Element

end Markup

theorem exists_of_mem_forall₂ {α β : Type} {R : α → β → Prop} {as : List α} {bs : List β}
    (each : List.Forall₂ R as bs) {b : β} (hb : b ∈ bs) : ∃ a ∈ as, R a b := by
  obtain ⟨i, hi, rfl⟩ := List.mem_iff_getElem.mp hb
  exact ⟨_, List.getElem_mem _, each.get (each.length_eq ▸ hi) hi⟩

structure Parameter.Described (scope : Scope) (tag : Tag) (p : Parameter) : Prop where
  name : p.name = (tag.attribute? "name").getD ""
  typeText : tag.required "type" = .ok p.typeText
  type : tag.readUse scope p.typeText = .ok p.type

/-- The tag names a type that is thrown. -/
def ClassRef.Thrown (tag : Tag) (ref : ClassRef) : Prop :=
  ∃ text, tag.requiredEither "type" "name" = .ok text ∧ ref = .named (eraseArguments text)

/-- The tag names an interface. -/
def ClassRef.Implemented (tag : Tag) (ref : ClassRef) : Prop :=
  ∃ text, tag.required "name" = .ok text ∧ ref = .named (eraseArguments text)

/-- The parameters and thrown types of a callable, or those that some elements add to it. -/
structure Parts where
  parameters : List Parameter
  exceptions : List ClassRef

def Callable.parts (c : Callable) : Parts := ⟨c.parameters, c.exceptions⟩

structure Parts.Described (scope : Scope) (forest : List Element) (g : Parts) : Prop where
  parameters : List.Forall₂ (fun e => Parameter.Described scope e.tag)
    (Element.within Tag.opensCallable "parameter" forest) g.parameters
  exceptions : List.Forall₂ (fun e => ClassRef.Thrown e.tag)
    (Element.within Tag.opensCallable "exception" forest) g.exceptions

structure Callable.Described (classScope : Scope) (e : Element) (c : Callable) : Prop where
  heading : e.tag.readDeclaredName = .ok (c.name, c.typeParameters)
  modifiers : c.modifiers = e.tag.modifiers
  deprecated : c.deprecated = e.tag.deprecated
  position : c.position = e.tag.position
  parts : c.parts.Described (c.scope classScope) e.content

structure Method.Described (classScope : Scope) (e : Element) (m : Method) : Prop where
  callable : m.toCallable.Described classScope e
  returnType : ∃ text, e.tag.requiredEither "return" "type" = .ok text ∧
    e.tag.readUse (m.scope classScope) text = .ok m.returnType

structure Field.Described (classScope : Scope) (tag : Tag) (f : Field) : Prop where
  name : tag.required "name" = .ok f.name
  modifiers : f.modifiers = tag.modifiers
  deprecated : f.deprecated = tag.deprecated
  position : f.position = tag.position
  type : ∃ text, tag.required "type" = .ok text ∧ tag.readUse classScope text = .ok f.type
  value : f.value = tag.attribute? "value"

/-- The members and interfaces of a class, or those that some elements add to it. -/
structure Holdings where
  interfaces : List ClassRef
  methods : List Method
  constructors : List Constructor
  fields : List Field

def ClassDecl.holdings (c : ClassDecl) : Holdings :=
  ⟨c.interfaces, c.methods, c.constructors, c.fields⟩

structure Holdings.Described (scope : Scope) (forest : List Element) (g : Holdings) : Prop where
  interfaces : List.Forall₂ (fun e => ClassRef.Implemented e.tag)
    (Element.within Tag.opensClass "implements" forest) g.interfaces
  methods : List.Forall₂ (Method.Described scope)
    (Element.within Tag.opensClass "method" forest) g.methods
  constructors : List.Forall₂ (Callable.Described scope)
    (Element.within Tag.opensClass "constructor" forest) g.constructors
  fields : List.Forall₂ (fun e => Field.Described scope e.tag)
    (Element.within Tag.opensClass "field" forest) g.fields

/-- What the tag of a class says of it, given the name of the class around it. -/
structure ClassDecl.Headed (tag : Tag) (around : Option String) (c : ClassDecl) : Prop where
  name : ∃ bare, tag.readDeclaredName = .ok (bare, c.typeParameters) ∧
    c.name = match around with
      | some outer => outer ++ "." ++ bare
      | none => bare
  qualifiedName : c.qualifiedName = if c.package = "" then c.name else c.package ++ "." ++ c.name
  kind : c.kind = if tag.name = "interface" then .interface else .plain
  modifiers : c.modifiers = tag.modifiers
  deprecated : c.deprecated = tag.deprecated
  position : c.position = tag.position
  superclass : c.superclass = ((tag.attribute? "extends").filter fun text =>
    !Text.isBlankText text.toList).map fun text => .named (eraseArguments text)

/-- The name of the class around a place. -/
def Snapshot.nameAround (s : Snapshot) (outer : Option ClassId) : Option String :=
  (outer.bind s.class?).map (·.name)

structure ClassDecl.Described (s : Snapshot) (e : Markup.ClassElement) (c : ClassDecl) : Prop where
  package : some c.package = e.package
  outer : c.outer = e.outer
  heading : c.Headed e.element.tag (s.nameAround e.outer)
  holdings : c.holdings.Described (s.typeScope e.number) e.element.content

/-- The snapshot is the one that the forest describes. -/
structure Snapshot.Described (forest : List Element) (s : Snapshot) : Prop where
  classes : List.Forall₂ (ClassDecl.Described s) (Element.classesAll 0 none none forest) s.classes
  packages : s.packages.map (·.name) =
    ((Element.packages forest).filterMap (·.tag.attribute? "name")).eraseDups
  positions : ∀ p ∈ s.packages, ∃ first, (Element.packages forest).find? (fun e =>
    e.tag.attribute? "name" == some p.name) = some first ∧ p.position = first.tag.position
  listing : ∀ p ∈ s.packages, p.classes =
    s.ids.filter fun id => (s.class? id).any (·.package == p.name)

end ApiCompat
