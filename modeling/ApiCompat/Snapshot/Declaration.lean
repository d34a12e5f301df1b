import ApiCompat.Signature.Erasure
import ApiCompat.Signature.Render
import ApiCompat.Snapshot.Modifiers
import ApiCompat.Snapshot.Position

/-! The declarations of an API: classes and their fields, methods and constructors. A method
or constructor is identified by its key, the name with the erased parameter types. -/
namespace ApiCompat

/-- A class referred to by name, or by number once the name is linked. -/
inductive ClassRef where
  | named (name : String)
  | linked (id : ClassId)
  deriving DecidableEq, Repr, Inhabited

def ClassRef.id? : ClassRef → Option ClassId
  | named _ => none
  | linked id => some id

inductive ClassKind where
  | plain
  | interface
  | enumeration
  | annotationType
  | exception
  | error
  deriving DecidableEq, Repr, Inhabited

namespace ClassKind

def text : ClassKind → String
  | plain => "class"
  | interface => "interface"
  | enumeration => "enum"
  | annotationType => "annotation"
  | exception => "exception"
  | error => "error"

/-- Interfaces, annotations among them, are implemented and not extended. -/
def isInterface : ClassKind → Bool
  | interface => true
  | annotationType => true
  | _ => false

end ClassKind

structure Parameter where
  name : String
  typeText : String
  type : Signature
  deriving Repr, Inhabited

structure Callable where
  name : String
  modifiers : Modifiers
  deprecated : Bool
  position : Option Position
  typeParameters : List Signature
  parameters : List Parameter
  exceptions : List ClassRef
  deriving Repr, Inhabited

abbrev Constructor := Callable

structure Method extends Callable where
  returnType : Signature
  deriving Repr, Inhabited

structure Field where
  name : String
  modifiers : Modifiers
  deprecated : Bool
  position : Option Position
  type : Signature
  value : Option String
  deriving Repr, Inhabited

namespace Callable

def scope (classScope : Scope) (c : Callable) : Scope := classScope.push c.typeParameters

def erasedParameters (classScope : Scope) (c : Callable) : List String :=
  c.parameters.map fun p => p.type.erasure (c.scope classScope)

def key (classScope : Scope) (c : Callable) : String :=
  c.name ++ "(" ++ ",".intercalate (c.erasedParameters classScope) ++ ")"

def parameterText (c : Callable) : String :=
  ", ".intercalate (c.parameters.map fun p => p.type.displayName)

end Callable

namespace Method

/-- Implementers must provide the method: it is declared abstract, or it stands in an
interface and is neither static nor has a body. -/
def mustBeImplemented (inInterface : Bool) (m : Method) : Bool :=
  m.modifiers.isAbstract || (inInterface && !m.modifiers.isStatic && !m.modifiers.isDefault)

end Method

structure ClassDecl where
  /-- The name within the package; a nested class carries the names of its enclosing classes. -/
  name : String
  qualifiedName : String
  package : String
  kind : ClassKind
  modifiers : Modifiers
  deprecated : Bool
  position : Option Position
  typeParameters : List Signature
  superclass : Option ClassRef
  interfaces : List ClassRef
  methods : List Method
  constructors : List Constructor
  fields : List Field
  outer : Option ClassId
  deriving Repr, Inhabited

namespace ClassDecl

def bare (package name : String) (kind : ClassKind) : ClassDecl where
  name := name
  qualifiedName := if package = "" then name else package ++ "." ++ name
  package := package
  kind := kind
  modifiers := .none
  deprecated := false
  position := none
  typeParameters := []
  superclass := none
  interfaces := []
  methods := []
  constructors := []
  fields := []
  outer := none

def isInterface (c : ClassDecl) : Bool := c.kind.isInterface

def exported (c : ClassDecl) : Bool := c.modifiers.visibility.exported

/-- Clients can create or extend the class. -/
def hasExportedConstructor (c : ClassDecl) : Bool :=
  c.constructors.any fun constructor => constructor.modifiers.visibility.exported

def field? (c : ClassDecl) (name : String) : Option Field := c.fields.find? (·.name == name)

def supertypes (c : ClassDecl) : List ClassRef := c.superclass.toList ++ c.interfaces

end ClassDecl

structure Package where
  name : String
  position : Option Position
  classes : List ClassId
  deriving Repr, Inhabited

end ApiCompat
