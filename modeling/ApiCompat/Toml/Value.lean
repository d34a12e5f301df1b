/-! Values of a TOML document. A table keeps how it came to be, because that decides what may
still be added to it: a table made only on the way to another one may be opened once, one
made by dotted keys takes dotted keys only, and an inline table is closed. -/
namespace ApiCompat.Toml

inductive Origin where
  | header
  /-- Passed through by the header of a table inside it. -/
  | implied
  | dotted
  | inline
  deriving DecidableEq, Repr

inductive Value where
  | string (text : String)
  | integer (n : Int)
  | float
  | boolean (b : Bool)
  | moment
  | list (items : List Value)
  | table (origin : Origin) (entries : List (String × Value))
  | tables (rows : List Value)
  deriving Inhabited

/-- The keys of a table with their values, in the order of their first mention. -/
abbrev Entries := List (String × Value)

namespace Entries

def replace (key : String) (value : Value) (entries : Entries) : Entries :=
  entries.map fun entry => if entry.1 = key then (key, value) else entry

/-- Adds the value of a dotted key; `parents` are the parts in front of the last one. Of repeated
tables on the way the last is meant, and it takes nothing itself. -/
def assign (value : Value) : List String → String → Entries → Option Entries
  | [], key, entries =>
    if (entries.lookup key).isSome then none else some (entries ++ [(key, value)])
  | parent :: rest, key, entries =>
    match entries.lookup parent with
    | none => do
      let inner ← assign value rest key []
      return entries ++ [(parent, .table .dotted inner)]
    | some (.table origin inner) =>
      if origin = .dotted ∨ (origin = .implied ∧ rest ≠ []) then do
        let changed ← assign value rest key inner
        return entries.replace parent (.table origin changed)
      else none
    | some (.tables rows) =>
      match rows.getLast?, rest with
      | some (.table origin inner), _ :: _ => do
        let changed ← assign value rest key inner
        return entries.replace parent (.tables (rows.dropLast ++ [.table origin changed]))
      | _, _ => none
    | some _ => none

/-- Changes the table at the end of a path of headers; missing tables on the way are implied, and
of repeated tables the last is meant. -/
def changeAt (change : Entries → Option Entries) : List String → Entries → Option Entries
  | [], entries => change entries
  | name :: rest, entries =>
    match entries.lookup name with
    | none => do
      let inner ← changeAt change rest []
      return entries ++ [(name, .table .implied inner)]
    | some (.table origin inner) =>
      if origin = .inline then none
      else do
        let changed ← changeAt change rest inner
        return entries.replace name (.table origin changed)
    | some (.tables rows) =>
      match rows.getLast? with
      | some (.table origin inner) => do
        let changed ← changeAt change rest inner
        return entries.replace name (.tables (rows.dropLast ++ [.table origin changed]))
      | _ => none
    | some _ => none

end Entries

structure Assignment where
  parents : List String
  key : String
  value : Value

def assignAll (entries : Entries) (assignments : List Assignment) : Option Entries :=
  assignments.foldlM (fun entries a => Entries.assign a.value a.parents a.key entries) entries

inductive Header where
  | root
  | table (parents : List String) (name : String)
  | element (parents : List String) (name : String)

structure Block where
  header : Header
  assignments : List Assignment

def addBlock (document : Entries) (block : Block) : Option Entries :=
  match block.header with
  | .root => assignAll document block.assignments
  | .table parents name =>
    Entries.changeAt (fun entries =>
      match entries.lookup name with
      | none => do
        let inner ← assignAll [] block.assignments
        return entries ++ [(name, .table .header inner)]
      | some (.table .implied inner) => do
        let changed ← assignAll inner block.assignments
        return entries.replace name (.table .header changed)
      | some _ => none) parents document
  | .element parents name =>
    Entries.changeAt (fun entries => do
      let row ← assignAll [] block.assignments
      match entries.lookup name with
      | none => some (entries ++ [(name, .tables [.table .header row])])
      | some (.tables rows) =>
        some (entries.replace name (.tables (rows ++ [.table .header row])))
      | some _ => none) parents document

end ApiCompat.Toml
