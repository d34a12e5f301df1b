import ApiCompat.Compatibility.Rules
import ApiCompat.Diagnostic.Log
import ApiCompat.Snapshot.Hierarchy

/-! Comparison of members. Methods and constructors of one key, and fields of one name, are
compared with each other; the findings come in a fixed order. Each declaration is compared
inside its own snapshot, whose scopes and hierarchy give its types their meaning. -/
namespace ApiCompat.Compatibility

def finding (holds : Bool) (category : Category) (location : Option Position)
    (message : String) : List Finding :=
  if holds then [⟨category, message, location⟩] else []

def visibilityText (old new : Visibility) : String :=
  " changed visibility from " ++ old.text ++ " to " ++ new.text

def typeText (old new : Signature) : String :=
  " from " ++ old.displayName ++ " to " ++ new.displayName

/-- Callers need not declare the thrown type: its name is known as unchecked, or its class is an
error or has an unchecked superclass. -/
def isUnchecked (s : Snapshot) : ClassRef → Bool
  | .named name => isUncheckedName name
  | .linked id =>
    (s.class? id).any (·.kind == .error) || isUncheckedName (s.nameOf id) ||
      chainIsUnchecked (s.superclassChain id)

/-- The new declaration's thrown type is one that the old declaration threw, or below one. -/
def wasThrown (old new : Snapshot) (oldThrown : List ClassRef) (thrown : ClassRef) : Bool :=
  oldThrown.any fun ref =>
    old.nameOfRef ref == new.nameOfRef thrown ||
      thrown.id?.any fun id => new.isSubtypeOf id (old.nameOfRef ref)

def addedThrows (old new : Snapshot) (a b : Callable) : List ClassRef :=
  b.exceptions.filter fun thrown =>
    !isUnchecked new thrown && !wasThrown old new a.exceptions thrown

def compareCallable (old new : Snapshot) (label : String) (a b : Callable) : List Finding :=
  let location := b.position.or a.position
  let (m, n) := (a.modifiers, b.modifiers)
  finding (m.visibility.narrowed n.visibility) .changedScope location
      ("Method " ++ label ++ visibilityText m.visibility n.visibility) ++
    finding (staticChanged m n) .changedStatic location
      ("Method " ++ label ++ " has changed 'static' qualifier") ++
    finding (a.deprecated != b.deprecated) .changedDeprecated location
      ("Method " ++ label ++ " has changed deprecation state") ++
    (addedThrows old new a b).map fun thrown =>
      ⟨.changedThrows, "Method " ++ label ++ " added thrown exception " ++ new.nameOfRef thrown,
        location⟩

structure Place where
  snapshot : Snapshot
  id : ClassId
  decl : ClassDecl

namespace Place

def scope (p : Place) : Scope := p.snapshot.typeScope p.id

def of? (s : Snapshot) (id : ClassId) : Option Place := (s.class? id).map fun c => ⟨s, id, c⟩

/-- The last method with a key. -/
def method? (p : Place) (key : String) : Option Method :=
  p.decl.methods.reverse.find? fun m => m.key p.scope == key

def constructor? (p : Place) (key : String) : Option Constructor :=
  p.decl.constructors.reverse.find? fun c => c.key p.scope == key

def ancestors (p : Place) : List Place := (p.snapshot.ancestors p.id).filterMap (of? p.snapshot)

def inheritsMethod (p : Place) (key : String) : Bool :=
  p.ancestors.any fun a => (a.method? key).isSome

def inheritsExportedMethod (p : Place) (key : String) : Bool :=
  p.ancestors.any fun a => (a.method? key).any (·.modifiers.visibility.exported)

def inheritsField (p : Place) (name : String) : Bool :=
  p.ancestors.any fun a => (a.decl.field? name).isSome

def inheritsExportedField (p : Place) (name : String) : Bool :=
  p.ancestors.any fun a => (a.decl.field? name).any (·.modifiers.visibility.exported)

end Place

def methodLabel (c : ClassDecl) (m : Method) : String :=
  c.qualifiedName ++ "." ++ m.name ++ "(" ++ m.parameterText ++ ")"

def constructorLabel (c : ClassDecl) (k : Constructor) : String :=
  c.qualifiedName ++ "(" ++ k.parameterText ++ ")"

def fieldLabel (c : ClassDecl) (f : Field) : String := c.qualifiedName ++ "." ++ f.name

def exportedConstructors (c : ClassDecl) : List Constructor :=
  c.constructors.filter (·.modifiers.visibility.exported)

def exportedMethods (c : ClassDecl) : List Method :=
  c.methods.filter (·.modifiers.visibility.exported)

def exportedFields (c : ClassDecl) : List Field :=
  c.fields.filter (·.modifiers.visibility.exported)

def compareMethod (old new : Place) (a b : Method) : List Finding :=
  let label := methodLabel old.decl a
  let location := b.position.or new.decl.position
  let (m, n) := (a.modifiers, b.modifiers)
  let madeFinal := methodBecameFinal old.decl a b
  finding (a.returnType.canonical (a.scope old.scope) != b.returnType.canonical (b.scope new.scope))
      .changedType location
      ("Method " ++ label ++ " has changed return type" ++ typeText a.returnType b.returnType) ++
    finding (methodBecameAbstract a old.decl.isInterface b new.decl.isInterface)
      .changedAbstract location ("Method " ++ label ++ " has changed 'abstract' qualifier") ++
    finding madeFinal .changedFinal location
      ("Method " ++ label ++ " has added 'final' qualifier") ++
    finding (!madeFinal && lostFinal m n) .removedFinal location
      ("Method " ++ label ++ " has removed 'final' qualifier") ++
    finding (m.isNative != n.isNative) .changedNative location
      ("Method " ++ label ++ " has changed 'native' qualifier") ++
    finding (m.isSynchronized != n.isSynchronized) .changedSynchronized location
      ("Method " ++ label ++ " has changed 'synchronized' qualifier") ++
    compareCallable old.snapshot new.snapshot label a.toCallable b.toCallable

def compareField (old new : Place) (a b : Field) : List Finding :=
  let label := fieldLabel old.decl a
  let location := b.position.or new.decl.position
  let (m, n) := (a.modifiers, b.modifiers)
  finding (a.type.canonical old.scope != b.type.canonical new.scope) .changedType location
      ("Field " ++ label ++ " has changed type" ++ typeText a.type b.type) ++
    finding (m.visibility.narrowed n.visibility) .changedScope location
      ("Field " ++ label ++ visibilityText m.visibility n.visibility) ++
    finding (staticChanged m n) .changedStatic location
      ("Field " ++ label ++ " has changed 'static' qualifier") ++
    finding (becameFinal m n) .changedFinal location
      ("Field " ++ label ++ " has added 'final' qualifier") ++
    finding (lostFinal m n) .removedFinal location
      ("Field " ++ label ++ " has removed 'final' qualifier") ++
    finding (m.isTransient != n.isTransient) .changedTransient location
      ("Field " ++ label ++ " has changed 'transient' qualifier") ++
    finding (m.isVolatile != n.isVolatile) .changedVolatile location
      ("Field " ++ label ++ " has changed 'volatile' qualifier") ++
    finding (constantValueChanged a b) .changedValue location
      ("Field " ++ label ++ " has changed value from " ++ a.value.getD "" ++ " to " ++
        b.value.getD "") ++
    finding (a.deprecated != b.deprecated) .changedDeprecated location
      ("Field " ++ label ++ " has changed deprecation state")

def constructorFindings (old new : Place) (a : Constructor) : List Finding :=
  let label := constructorLabel old.decl a
  match new.constructor? (a.key old.scope) with
  | some b => compareCallable old.snapshot new.snapshot label a b
  | none =>
    [⟨.removedMethod, "Removed constructor " ++ label, a.position.or old.decl.position⟩]

def addedConstructor (old new : Place) (b : Constructor) : List Finding :=
  finding (old.constructor? (b.key new.scope)).isNone .addedMethod
    (b.position.or new.decl.position) ("Added constructor " ++ constructorLabel new.decl b)

/-- What became of an old method; one that is inherited now is still there. -/
def methodFindings (old new : Place) (a : Method) : List Finding :=
  let key := a.key old.scope
  match new.method? key with
  | some b => compareMethod old new a b
  | none =>
    finding (!new.inheritsExportedMethod key) .removedMethod (a.position.or old.decl.position)
      ("Removed method " ++ methodLabel old.decl a)

def addedMethod (old new : Place) (b : Method) : List Finding :=
  let key := b.key new.scope
  if (old.method? key).isSome || old.inheritsMethod key then []
  else
    let label := methodLabel new.decl b
    let location := b.position.or new.decl.position
    if isAddedAbstract new.decl old.decl b then
      [⟨.addedAbstractMethod,
        "Added abstract method " ++ label ++ " to existing " ++ old.decl.kind.text, location⟩]
    else [⟨.addedMethod, "Added method " ++ label, location⟩]

def fieldFindings (old new : Place) (a : Field) : List Finding :=
  match new.decl.field? a.name with
  | some b => compareField old new a b
  | none =>
    finding (!new.inheritsExportedField a.name) .removedField (a.position.or old.decl.position)
      ("Removed field " ++ fieldLabel old.decl a)

def addedField (old new : Place) (b : Field) : List Finding :=
  finding ((old.decl.field? b.name).isNone && !old.inheritsField b.name) .addedField
    (b.position.or new.decl.position) ("Added field " ++ fieldLabel new.decl b)

def memberFindings (old new : Place) : List Finding :=
  (exportedConstructors old.decl).flatMap (constructorFindings old new) ++
    (exportedConstructors new.decl).flatMap (addedConstructor old new) ++
    (exportedMethods old.decl).flatMap (methodFindings old new) ++
    (exportedMethods new.decl).flatMap (addedMethod old new) ++
    (exportedFields old.decl).flatMap (fieldFindings old new) ++
    (exportedFields new.decl).flatMap (addedField old new)

def memberCount (c : ClassDecl) : Nat :=
  (exportedConstructors c).length + (exportedMethods c).length + (exportedFields c).length

end ApiCompat.Compatibility
