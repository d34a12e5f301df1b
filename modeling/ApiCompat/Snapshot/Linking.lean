import ApiCompat.Snapshot.Hierarchy

/-! Linking. A reference by name to a declared class becomes a link to it, in supertypes,
thrown types and the types of members; other names stay as they are. Then the kinds of
classes are derived from the linked hierarchy. A second run finds nothing left to do. -/
namespace ApiCompat

mutual

def Signature.link (find : String → Option ClassId) : Signature → Signature
  | ⟨kind, name, dimension, arguments, supers, uppers, varargs, linked⟩ =>
    ⟨kind, name, dimension, Signature.linkAll find arguments, Signature.linkAll find supers,
      Signature.linkAll find uppers, varargs,
      if kind = .classType ∧ linked = none then find name else linked⟩

def Signature.linkAll (find : String → Option ClassId) : List Signature → List Signature
  | [] => []
  | s :: rest => s.link find :: Signature.linkAll find rest

end

mutual

def Signature.newLinks (find : String → Option ClassId) : Signature → Nat
  | ⟨kind, name, _, arguments, supers, uppers, _, linked⟩ =>
    (if kind = .classType ∧ linked = none ∧ (find name).isSome then 1 else 0) +
      Signature.newLinksAll find arguments + Signature.newLinksAll find supers +
      Signature.newLinksAll find uppers

def Signature.newLinksAll (find : String → Option ClassId) : List Signature → Nat
  | [] => 0
  | s :: rest => s.newLinks find + Signature.newLinksAll find rest

end

namespace ClassRef

def link (find : String → Option ClassId) : ClassRef → ClassRef
  | named name => match find name with
    | some id => linked id
    | none => named name
  | linked id => linked id

def isLinkable (find : String → Option ClassId) : ClassRef → Bool
  | named name => (find name).isSome
  | linked _ => false

def isExternal (find : String → Option ClassId) : ClassRef → Bool
  | named name => (find name).isNone
  | linked _ => false

end ClassRef

namespace Parameter

def link (find : String → Option ClassId) (p : Parameter) : Parameter :=
  { p with type := p.type.link find }

end Parameter

namespace Callable

def link (find : String → Option ClassId) (c : Callable) : Callable :=
  { c with
    parameters := c.parameters.map (Parameter.link find)
    exceptions := c.exceptions.map (ClassRef.link find) }

end Callable

namespace Method

def link (find : String → Option ClassId) (m : Method) : Method :=
  { m with
    toCallable := m.toCallable.link find
    returnType := m.returnType.link find }

end Method

namespace Field

def link (find : String → Option ClassId) (f : Field) : Field :=
  { f with type := f.type.link find }

end Field

namespace ClassDecl

def link (find : String → Option ClassId) (c : ClassDecl) : ClassDecl :=
  { c with
    superclass := c.superclass.map (ClassRef.link find)
    interfaces := c.interfaces.map (ClassRef.link find)
    methods := c.methods.map (Method.link find)
    constructors := c.constructors.map (Callable.link find)
    fields := c.fields.map (Field.link find) }

def callables (c : ClassDecl) : List Callable := c.methods.map (·.toCallable) ++ c.constructors

def thrownRefs (c : ClassDecl) : List ClassRef := c.callables.flatMap (·.exceptions)

def memberTypes (c : ClassDecl) : List Signature :=
  c.methods.map (·.returnType) ++ c.callables.flatMap (fun k => k.parameters.map (·.type)) ++
    c.fields.map (·.type)

end ClassDecl

structure LinkCounts where
  superclasses : Nat
  interfaces : Nat
  exceptions : Nat
  signatures : Nat
  reclassified : Nat
  external : Nat
  deriving DecidableEq, Repr

def LinkCounts.changed (n : LinkCounts) : Nat :=
  n.superclasses + n.interfaces + n.exceptions + n.signatures + n.reclassified

namespace Snapshot

def linkNames (s : Snapshot) : Snapshot :=
  { s with classes := s.classes.map (ClassDecl.link s.find?) }

def kindOfMarker (name : String) : Option ClassKind :=
  if name = "java.lang.Error" then some .error
  else if name ∈ ["java.lang.Throwable", "java.lang.Exception", "java.lang.RuntimeException"] then
    some .exception
  else if name = "java.lang.Enum" then some .enumeration
  else none

def endsWith (suffix name : String) : Bool := suffix.toList.isSuffixOf name.toList

/-- The kind that the ending of an undeclared superclass name suggests. -/
def kindOfEnding (name : String) : Option ClassKind :=
  if endsWith "Exception" name then some .exception
  else if endsWith "Error" name then some .error
  else none

/-- The kind that a chain of superclass names gives: that of its first marker, or else the one
that its last name suggests, if that is not declared. -/
def kindOfChain (s : Snapshot) (chain : List String) : Option ClassKind :=
  (chain.findSome? kindOfMarker).or
    ((chain.getLast?.filter fun name => (s.find? name).isNone).bind kindOfEnding)

def annotationRoot : String := "java.lang.annotation.Annotation"

def derivedKind? (s : Snapshot) (id : ClassId) (declared : ClassKind) : Option ClassKind :=
  match declared with
  | .plain => s.kindOfChain (s.superclassChain id)
  | .interface => if (s.supertypeNames id).contains annotationRoot then some .annotationType else none
  | _ => none

def deriveKinds (s : Snapshot) : Snapshot :=
  { s with classes := s.classes.mapIdx fun id c =>
      { c with kind := (s.derivedKind? id c.kind).getD c.kind } }

def resolve (s : Snapshot) : Snapshot := s.linkNames.deriveKinds

def kindChanges (s : Snapshot) : List (ClassId × ClassKind) :=
  s.ids.filterMap fun id => do
    let c ← s.class? id
    let kind ← s.derivedKind? id c.kind
    return (id, kind)

def linkCounts (s : Snapshot) : LinkCounts :=
  let superclasses := s.classes.flatMap (·.superclass.toList)
  let interfaces := s.classes.flatMap (·.interfaces)
  let thrown := s.classes.flatMap ClassDecl.thrownRefs
  { superclasses := superclasses.countP (ClassRef.isLinkable s.find?)
    interfaces := interfaces.countP (ClassRef.isLinkable s.find?)
    exceptions := thrown.countP (ClassRef.isLinkable s.find?)
    signatures := Signature.newLinksAll s.find? (s.classes.flatMap ClassDecl.memberTypes)
    reclassified := s.linkNames.kindChanges.length
    external := (superclasses ++ interfaces ++ thrown).countP (ClassRef.isExternal s.find?) }

end Snapshot

end ApiCompat
