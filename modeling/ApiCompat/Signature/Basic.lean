import ApiCompat.Text.Blank

/-! Type signatures. A signature is one use of a type as an API description writes it:
a primitive, a class with arguments, a type variable or a wildcard, each with its bounds
and array suffix. Names are qualified; the simple name is their last segment. -/
namespace ApiCompat

/-- The number of a class in the order of declaration. -/
abbrev ClassId := Nat

inductive TypeKind where
  | primitive
  | typeVariable
  | wildcard
  | classType
  deriving DecidableEq, Repr, Inhabited

structure Signature where
  kind : TypeKind
  /-- The qualified name, or the bare name of a variable or primitive. -/
  name : String
  /-- The array suffix, such as `[][]`; empty when the type is no array. -/
  dimension : String
  arguments : List Signature
  superBounds : List Signature
  extendsBounds : List Signature
  varargs : Bool
  linked : Option ClassId
  deriving Repr, Inhabited

namespace Signature

def primitiveNames : List String :=
  ["boolean", "byte", "char", "double", "float", "int", "long", "short", "void"]

/-- The erasure of an unbounded type variable. -/
def rootClass : String := "java.lang.Object"

def ofName (kind : TypeKind) (name : String) : Signature :=
  ⟨kind, name, "", [], [], [], false, none⟩

def anyType : Signature := ofName .wildcard "?"

def isPrimitive (s : Signature) : Bool := s.kind == .primitive

def isTypeVariable (s : Signature) : Bool := s.kind == .typeVariable

def isWildcard (s : Signature) : Bool := s.kind == .wildcard

def simpleName (s : Signature) : String :=
  String.ofList (s.name.toList.reverse.takeWhile (· != '.')).reverse

/-- A name without a dot. Descriptions qualify every class, so such a name that is no primitive
means a type variable. -/
def isBareName (name : String) : Bool := !name.toList.contains '.'

/-- The signatures written directly inside this one: arguments, then lower, then upper bounds. -/
def children (s : Signature) : List Signature :=
  s.arguments ++ s.superBounds ++ s.extendsBounds

mutual

/-- Turns bare class names for which `isVariable` holds into type variables, at every depth. -/
def markVariables (isVariable : String → Bool) : Signature → Signature
  | ⟨kind, name, dimension, arguments, supers, uppers, varargs, linked⟩ =>
    let bare := kind == .classType && arguments.isEmpty
    ⟨if bare && isVariable name then .typeVariable else kind, name, dimension,
      markVariablesAll isVariable arguments, markVariablesAll isVariable supers,
      markVariablesAll isVariable uppers, varargs, linked⟩

def markVariablesAll (isVariable : String → Bool) : List Signature → List Signature
  | [] => []
  | s :: rest => markVariables isVariable s :: markVariablesAll isVariable rest

end

def markChildren (isVariable : String → Bool) (s : Signature) : Signature :=
  { s with
    arguments := markVariablesAll isVariable s.arguments
    superBounds := markVariablesAll isVariable s.superBounds
    extendsBounds := markVariablesAll isVariable s.extendsBounds }

theorem markVariablesAll_eq_map (isVariable : String → Bool) (list : List Signature) :
    markVariablesAll isVariable list = list.map (markVariables isVariable) := by
  induction list with
  | nil => rfl
  | cons s rest ih => simp [markVariablesAll, ih]

@[simp] theorem name_markVariables (isVariable : String → Bool) (s : Signature) :
    (markVariables isVariable s).name = s.name := by
  cases s; rfl

@[simp] theorem dimension_markVariables (isVariable : String → Bool) (s : Signature) :
    (markVariables isVariable s).dimension = s.dimension := by
  cases s; rfl

end Signature

end ApiCompat
