import ApiCompat.Snapshot.Description
import ApiCompat.Snapshot.Linking
import Std.Data.HashMap.Basic

/-! Catalogs. A catalog is a snapshot with two tables, in which packages and classes are looked up
by name. Each operation keeps lists and tables in step, one assignment at a time. Classes can be
edited in place, but not renamed. -/
namespace ApiCompat

def Modifiers.withVisibility (visibility : Visibility) (m : Modifiers) : Modifiers :=
  { m with visibility := visibility }

inductive Edit where
  | superclass (name : Option String)
  | newInterface (name : String)
  | interface (place : Nat) (name : String)
  | visibility (visibility : Visibility)
  | methodVisibility (place : Nat) (visibility : Visibility)
  | constructorVisibility (place : Nat) (visibility : Visibility)
  | fieldVisibility (place : Nat) (visibility : Visibility)
  | outer (id : Option ClassId)
  deriving DecidableEq, Repr

def Edit.apply : Edit → ClassDecl → ClassDecl
  | superclass name, c => { c with superclass := name.map .named }
  | newInterface name, c => { c with interfaces := c.interfaces ++ [.named name] }
  | interface place name, c => { c with interfaces := c.interfaces.set place (.named name) }
  | visibility v, c => { c with modifiers := c.modifiers.withVisibility v }
  | methodVisibility place v, c =>
    { c with methods := c.methods.modify place fun m => { m with modifiers := m.modifiers.withVisibility v } }
  | constructorVisibility place v, c =>
    { c with
      constructors := c.constructors.modify place fun k => { k with modifiers := k.modifiers.withVisibility v } }
  | fieldVisibility place v, c =>
    { c with fields := c.fields.modify place fun f => { f with modifiers := f.modifiers.withVisibility v } }
  | outer id, c => { c with outer := id }

structure Catalog where
  snapshot : Snapshot
  packageTable : Std.HashMap String Nat
  classTable : Std.HashMap String ClassId

namespace Catalog

def empty : Catalog := ⟨.empty, ∅, ∅⟩

def package? (g : Catalog) (name : String) : Option Package :=
  g.packageTable[name]?.bind fun place => g.snapshot.packages[place]?

def find? (g : Catalog) (qualifiedName : String) : Option ClassId := g.classTable[qualifiedName]?

def classCount (g : Catalog) : Nat := g.snapshot.classes.length

def addPackage (name : String) (position : Option Position) : StateM Catalog Nat := do
  match (← get).packageTable[name]? with
  | some place => return place
  | none =>
    let place := (← get).snapshot.packages.length
    modify fun g => { g with
      snapshot.packages := g.snapshot.packages ++ [⟨name, position, []⟩] }
    modify fun g => { g with packageTable := g.packageTable.insert name place }
    return place

def addClass (place : Nat) (c : ClassDecl) : ExceptT LoadError (StateM Catalog) ClassId := do
  if (← get).classTable.contains c.qualifiedName then
    throw (.duplicateClass c.qualifiedName)
  let id := (← get).classCount
  modify fun g => { g with classTable := g.classTable.insert c.qualifiedName id }
  modify fun g => { g with snapshot.classes := g.snapshot.classes ++ [c] }
  modify fun g => { g with
    snapshot.packages := g.snapshot.packages.modify place fun p =>
      { p with classes := p.classes ++ [id] } }
  return id

def resolve (g : Catalog) : Catalog := { g with snapshot := g.snapshot.resolve }

def edit (g : Catalog) (id : ClassId) (e : Edit) : Catalog :=
  { g with snapshot := g.snapshot.update id e.apply }

/-- Numbers names in their order; of equal names the last counts. -/
def tabulate (names : List String) : Std.HashMap String Nat :=
  names.zipIdx.foldl (fun table (name, place) => table.insert name place) ∅

def ofSnapshot (s : Snapshot) : Catalog where
  snapshot := s
  packageTable := tabulate (s.packages.map (·.name))
  classTable := tabulate (s.classes.map (·.qualifiedName))

end Catalog

end ApiCompat
