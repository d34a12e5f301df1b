import ApiCompat.Compatibility.Member

/-! Comparison of two snapshots. What the old snapshot exports is owed to its clients: each
exported class, unless it is enclosed by one that is not or by one that has left the API, has
to be found again in the new snapshot. The comparison gives the list of findings; what counts
as an error is decided later. -/
namespace ApiCompat.Compatibility

def isExported (s : Snapshot) (id : ClassId) : Bool := (s.class? id).any ClassDecl.exported

def enclosedByUnexported (s : Snapshot) (id : ClassId) : Bool :=
  (s.enclosing id).any fun outer => !isExported s outer

/-- Some enclosing class still exists in the new snapshot and is not exported there. -/
def outerWithdrawn (old new : Snapshot) (id : ClassId) : Bool :=
  (old.enclosing id).any fun outer =>
    (new.find? (old.nameOf outer)).any fun found => !isExported new found

/-- The class is owed to clients of the old snapshot. -/
def isObligation (old new : Snapshot) (id : ClassId) : Bool :=
  isExported old id && !enclosedByUnexported old id && !outerWithdrawn old new id

def supertypeFindings (old new : Place) : List Finding :=
  let location := new.decl.position
  let name := old.decl.qualifiedName
  let chain := new.snapshot.superclassChain new.id
  let oldSuper := old.decl.superclass.map old.snapshot.nameOfRef
  let lost := match oldSuper with
    | some s => !old.decl.isInterface && s != Signature.rootClass && !chain.contains s
    | none => false
  let oldInterfaces := old.decl.interfaces.map old.snapshot.nameOfRef
  let newInterfaces := new.decl.interfaces.map new.snapshot.nameOfRef
  finding lost .changedSuperclass location
      ("Class " ++ name ++ " superclass changed from " ++ oldSuper.getD "" ++ " to " ++
        chain.headD "<none>") ++
    oldInterfaces.flatMap (fun i =>
      finding (!(new.snapshot.supertypeNames new.id).contains i) .removedInterface location
        ("Class " ++ name ++ " no longer implements " ++ i)) ++
    newInterfaces.flatMap fun i =>
      finding (!(old.snapshot.supertypeNames old.id).contains i) .addedInterface location
        ("Added interface " ++ i ++ " to class " ++ name)

/-- What is said of a class as such, whether or not it is still exported. -/
def standingFindings (a b : ClassDecl) : List Finding :=
  finding (kindIncompatible a.kind b.kind) .changedClass b.position
      ("Class " ++ a.qualifiedName ++ " changed from " ++ a.kind.text ++ " to " ++ b.kind.text) ++
    finding (a.modifiers.visibility.narrowed b.modifiers.visibility) .changedScope b.position
      ("Class " ++ a.qualifiedName ++ visibilityText a.modifiers.visibility b.modifiers.visibility)

def modifierFindings (a b : ClassDecl) : List Finding :=
  let (m, n) := (a.modifiers, b.modifiers)
  let label := "Class " ++ a.qualifiedName
  finding (staticChanged m n) .changedStatic b.position (label ++ " changed 'static' qualifier") ++
    finding (becameFinal m n && instantiable a) .changedFinal b.position
      (label ++ " added 'final' qualifier") ++
    finding (becameFinal m n && !instantiable a) .addedFinalUninstantiable b.position
      (label ++ " added 'final' qualifier but was previously uninstantiable") ++
    finding (lostFinal m n) .removedFinal b.position (label ++ " removed 'final' qualifier") ++
    finding (classBecameAbstract a b && instantiable a) .changedAbstract b.position
      (label ++ " changed 'abstract' qualifier") ++
    finding (a.deprecated != b.deprecated) .changedDeprecated b.position
      (label ++ " has changed deprecation state")

/-- Two classes of one name. Members are compared only while the class is exported: otherwise
they left the API together with it. -/
def compareClass (old new : Place) : List Finding :=
  standingFindings old.decl new.decl ++
    if new.decl.exported then
      modifierFindings old.decl new.decl ++ supertypeFindings old new ++ memberFindings old new
    else []

def removedClass (c : ClassDecl) : Finding :=
  ⟨.removedClass,
    "Removed " ++ c.modifiers.visibility.text ++ " " ++ c.kind.text ++ " " ++ c.qualifiedName,
    c.position⟩

def counterpart? (new : Snapshot) (c : ClassDecl) : Option Place :=
  (new.find? c.qualifiedName).bind (Place.of? new)

def obligationFindings (new : Snapshot) (old : Place) : List Finding :=
  match counterpart? new old.decl with
  | some found => compareClass old found
  | none => [removedClass old.decl]

def addedClass (old : Snapshot) (new : Place) : List Finding :=
  finding (new.decl.exported && !enclosedByUnexported new.snapshot new.id &&
      (old.find? new.decl.qualifiedName).isNone) .addedClass new.decl.position
    ("Added " ++ new.decl.kind.text ++ " " ++ new.decl.qualifiedName)

def obligations (old new : Snapshot) (p : Package) : List Place :=
  (p.classes.filter (isObligation old new)).filterMap (Place.of? old)

def packageFindings (old new : Snapshot) (p : Package) : List Finding :=
  match new.package? p.name with
  | none => [⟨.removedPackage, "Removed package " ++ p.name, p.position⟩]
  | some q =>
    (obligations old new p).flatMap (obligationFindings new) ++
      (q.classes.filterMap (Place.of? new)).flatMap (addedClass old)

def addedPackage (old : Snapshot) (q : Package) : List Finding :=
  finding (old.package? q.name).isNone .addedPackage q.position ("Added package " ++ q.name)

def compare (old new : Snapshot) : List Finding :=
  old.packages.flatMap (packageFindings old new) ++ new.packages.flatMap (addedPackage old)

structure Tally where
  packages : Nat
  classes : Nat
  members : Nat
  deriving DecidableEq, Repr

def sharedPackages (old new : Snapshot) : List Package :=
  old.packages.filter fun p => (new.package? p.name).isSome

def comparedClasses (old new : Snapshot) : List (Place × Place) :=
  (sharedPackages old new).flatMap fun p => (obligations old new p).filterMap fun a =>
    (counterpart? new a.decl).map fun b => (a, b)

def tally (old new : Snapshot) : Tally :=
  let pairs := comparedClasses old new
  let withMembers := pairs.filter fun pair => pair.2.decl.exported
  { packages := (sharedPackages old new).length
    classes := pairs.length
    members := withMembers.foldr (fun pair members => memberCount pair.1.decl + members) 0 }

def check (table : SeverityTable) (old new : Snapshot) : Log :=
  (Log.empty table).recordAll (compare old new)

end ApiCompat.Compatibility
