import ApiCompat.Snapshot.Declaration
import ApiCompat.Snapshot.Walk

/-! Snapshots. A snapshot lists packages and classes in order of declaration; a class is
known by its number in that order and found by its qualified name. Packages of one name are
one package, and a qualified name is declared once. -/
namespace ApiCompat

structure Snapshot where
  packages : List Package
  classes : List ClassDecl
  deriving Repr, Inhabited

namespace Snapshot

def empty : Snapshot := ⟨[], []⟩

def ids (s : Snapshot) : List ClassId := List.range s.classes.length

def class? (s : Snapshot) (id : ClassId) : Option ClassDecl := s.classes[id]?

def find? (s : Snapshot) (qualifiedName : String) : Option ClassId :=
  s.classes.findIdx? (·.qualifiedName == qualifiedName)

def package? (s : Snapshot) (name : String) : Option Package :=
  s.packages.find? (·.name == name)

/-- Opens a package; one that exists is kept as it is. -/
def addPackage (s : Snapshot) (name : String) (position : Option Position) : Snapshot :=
  if (s.package? name).isSome then s
  else { s with packages := s.packages ++ [⟨name, position, []⟩] }

/-- Declares a class in its package and answers its number; a declared name is refused. -/
def addClass? (s : Snapshot) (c : ClassDecl) : Option (ClassId × Snapshot) :=
  if (s.find? c.qualifiedName).isSome then none
  else
    let id := s.classes.length
    let enter (p : Package) : Package :=
      if p.name = c.package then { p with classes := p.classes ++ [id] } else p
    some (id, ⟨s.packages.map enter, s.classes ++ [c]⟩)

def update (s : Snapshot) (id : ClassId) (change : ClassDecl → ClassDecl) : Snapshot :=
  { s with classes := s.classes.modify id change }

def nameOf (s : Snapshot) (id : ClassId) : String :=
  match s.class? id with
  | some c => c.qualifiedName
  | none => ""

def nameOfRef (s : Snapshot) : ClassRef → String
  | .named name => name
  | .linked id => s.nameOf id

def outer? (s : Snapshot) (id : ClassId) : Option ClassId := (s.class? id).bind (·.outer)

/-- The classes around a class, innermost first; on cyclic nesting, up to the first repeat. -/
def enclosing (s : Snapshot) (id : ClassId) : List ClassId :=
  Walk.trail s.outer? (s.ids.erase id) id

def typeParametersOf (s : Snapshot) (id : ClassId) : List Signature :=
  match s.class? id with
  | some c => c.typeParameters
  | none => []

/-- The type parameters in force inside a class: its own, then those of the classes around it. -/
def typeScope (s : Snapshot) (id : ClassId) : Scope :=
  ⟨s.typeParametersOf id :: (s.enclosing id).map s.typeParametersOf⟩

end Snapshot

end ApiCompat
