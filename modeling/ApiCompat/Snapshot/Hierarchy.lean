import ApiCompat.Snapshot.Basic

/-! The class hierarchy of a snapshot. Linked superclasses and interfaces are the edges;
names that stay unlinked are external supertypes. All walks end on cyclic hierarchies too. -/
namespace ApiCompat.Snapshot

def supertypeRefs (s : Snapshot) (id : ClassId) : List ClassRef :=
  match s.class? id with
  | some c => c.supertypes
  | none => []

/-- The declared direct supertypes in the order of a walk: the last listed interface first, the
superclass last. -/
def parents (s : Snapshot) (id : ClassId) : List ClassId :=
  ((s.supertypeRefs id).filterMap ClassRef.id?).reverse

def superclassRef? (s : Snapshot) (id : ClassId) : Option ClassRef :=
  (s.class? id).bind (·.superclass)

def superclass? (s : Snapshot) (id : ClassId) : Option ClassId :=
  (s.superclassRef? id).bind ClassRef.id?

def superclasses (s : Snapshot) (id : ClassId) : List ClassId :=
  Walk.trail s.superclass? (s.ids.erase id) id

/-- The names of the superclasses from the direct one upward. The chain ends at an external
name, at a class without superclass, or with the first repeat. -/
def superclassChain (s : Snapshot) (id : ClassId) : List String :=
  (id :: s.superclasses id).filterMap fun c => (s.superclassRef? c).map s.nameOfRef

def ancestors (s : Snapshot) (id : ClassId) : List ClassId :=
  Walk.layers s.parents (s.ids.erase id) [id]

def externalNames (s : Snapshot) (id : ClassId) : List String :=
  (s.supertypeRefs id).filterMap fun
    | .named name => some name
    | .linked _ => none

/-- The names of all supertypes, declared or external, in order and each once. -/
def supertypeNames (s : Snapshot) (id : ClassId) : List String :=
  let declared := (s.ancestors id).map s.nameOf
  let external := (id :: s.ancestors id).flatMap s.externalNames
  ((declared ++ external).mergeSort (· ≤ ·)).eraseDups

def isSubtypeOf (s : Snapshot) (id : ClassId) (name : String) : Bool :=
  s.nameOf id == name || (s.supertypeNames id).contains name

def hasCycle (s : Snapshot) : Bool :=
  s.ids.any fun id => (id :: s.ancestors id).any fun a => (s.parents a).contains id

end ApiCompat.Snapshot
