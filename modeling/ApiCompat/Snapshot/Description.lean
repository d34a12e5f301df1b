import ApiCompat.Markup.Reader
import ApiCompat.Signature.Bounds
import ApiCompat.Signature.Parser
import ApiCompat.Snapshot.Basic

/-! Descriptions: the documents that snapshots are read from. Elements open packages, classes
and members; each one adds to what is open around it, and elements of other names add
nothing. References to classes are kept by name. -/
namespace ApiCompat

inductive LoadError where
  | markup (e : Markup.Error)
  | missingAttribute (element key : String) (offset : Nat)
  | misplaced (element parent : String) (offset : Nat)
  | badType (element : String) (offset : Nat) (e : TypeError)
  | duplicateClass (qualifiedName : String)
  deriving DecidableEq, Repr

namespace LoadError

def atElement (element : String) (offset : Nat) : String :=
  "<" ++ element ++ "> at byte " ++ Nat.repr offset

def message : LoadError → String
  | markup e => e.message
  | missingAttribute element key offset =>
    atElement element offset ++ " is missing required attribute '" ++ key ++ "'"
  | misplaced element parent offset =>
    atElement element offset ++ " must be nested directly inside <" ++ parent ++ ">"
  | badType element offset e => atElement element offset ++ ": " ++ e.message
  | duplicateClass name => "duplicate class declaration '" ++ name ++ "'"

end LoadError

namespace Markup.Tag

def required (tag : Tag) (key : String) : Except LoadError String :=
  match tag.attribute? key with
  | some value => .ok value
  | none => .error (.missingAttribute tag.name key tag.offset)

def requiredEither (tag : Tag) (key other : String) : Except LoadError String :=
  match tag.attribute? key, tag.attribute? other with
  | some value, _ => .ok value
  | none, some value => .ok value
  | none, none => .error (.missingAttribute tag.name key tag.offset)

def flag (tag : Tag) (key : String) : Bool := tag.attribute? key == some "true"

def deprecated (tag : Tag) : Bool :=
  tag.attribute? "deprecated" == some "deprecated" || tag.flag "deprecated"

def position (tag : Tag) : Option Position := (tag.attribute? "source").bind Position.parse?

def modifiers (tag : Tag) : Modifiers where
  visibility := Visibility.ofToken ((tag.attribute? "visibility").getD "")
  isStatic := tag.flag "static"
  isFinal := tag.flag "final"
  isAbstract := tag.flag "abstract"
  isSynchronized := tag.flag "synchronized"
  isNative := tag.flag "native"
  isTransient := tag.flag "transient"
  isVolatile := tag.flag "volatile"
  isDefault := tag.flag "default"

def misplacedIn (tag : Tag) (parent : String) : LoadError :=
  .misplaced tag.name parent tag.offset

/-- Reads the type of a use: bare names are variables, and each receives its declared bounds. -/
def readUse (tag : Tag) (scope : Scope) (expression : String) : Except LoadError Signature := do
  let s ← (Signature.parse expression).mapError (.badType tag.name tag.offset)
  return (s.markVariables Signature.isBareName).attachBounds scope

def readDeclaredName (tag : Tag) : Except LoadError (String × List Signature) := do
  let text ← tag.required "name"
  let (name, parameters) ←
    (Signature.parseDeclaredName text).mapError (.badType tag.name tag.offset)
  return (name, parameters.map (Signature.markChildren Signature.isBareName))

end Markup.Tag

open Markup (Tag Event)

/-- The text outside angle brackets, a stray closing bracket left out as well. -/
def outsideBrackets : Nat → List Char → List Char
  | _, [] => []
  | depth, c :: rest =>
    let others := outsideBrackets (Text.depthAfter depth c) rest
    if c = '<' ∨ c = '>' ∨ depth ≠ 0 then others else c :: others

/-- The name of a class in a type expression, all arguments dropped. -/
def eraseArguments (expression : String) : String :=
  String.ofList (Text.trim (outsideBrackets 0 expression.toList))

inductive Member where
  | method (m : Method)
  | constructor (c : Constructor)
  | field (f : Field)
  deriving Inhabited

namespace Member

def updateCallable? (change : Callable → Callable) : Member → Option Member
  | method m => some (method { m with toCallable := change m.toCallable })
  | constructor c => some (constructor (change c))
  | field _ => none

def typeParameters : Member → List Signature
  | method m => m.typeParameters
  | constructor c => c.typeParameters
  | field _ => []

def addTo (member : Member) (c : ClassDecl) : ClassDecl :=
  match member with
  | method m => { c with methods := c.methods ++ [m] }
  | constructor k => { c with constructors := c.constructors ++ [k] }
  | field f => { c with fields := c.fields ++ [f] }

end Member

structure Builder where
  snapshot : Snapshot
  package : Option String
  current : Option ClassId
  /-- What was the innermost open class before each open one. -/
  around : List (Option ClassId)
  member : Option Member

namespace Builder

def empty : Builder := ⟨.empty, none, none, [], none⟩

def classScope (b : Builder) : Scope :=
  match b.current with
  | some id => b.snapshot.typeScope id
  | none => .empty

def memberScope (b : Builder) : Scope :=
  match b.member with
  | some member => b.classScope.push member.typeParameters
  | none => b.classScope

/-- The class to which a member is added: one is open, and no member is. -/
def receivingClass (b : Builder) (tag : Tag) : Except LoadError ClassId :=
  match b.current, b.member with
  | some id, none => .ok id
  | _, _ => .error (tag.misplacedIn "class")

def enterPackage (b : Builder) (tag : Tag) : Except LoadError Builder := do
  let name ← tag.required "name"
  return { b with snapshot := b.snapshot.addPackage name tag.position, package := some name }

def enterClass (b : Builder) (tag : Tag) (kind : ClassKind) : Except LoadError Builder :=
  match b.package with
  | none => .error (tag.misplacedIn "package")
  | some package =>
    if b.member.isSome then .error (tag.misplacedIn "class")
    else do
      let (bareName, typeParameters) ← tag.readDeclaredName
      let name := match b.current.bind b.snapshot.class? with
        | some outer => outer.name ++ "." ++ bareName
        | none => bareName
      let extended := (tag.attribute? "extends").filter fun text =>
        !Text.isBlankText text.toList
      let declared : ClassDecl :=
        { ClassDecl.bare package name kind with
          modifiers := tag.modifiers
          deprecated := tag.deprecated
          position := tag.position
          typeParameters := typeParameters
          superclass := extended.map fun text => .named (eraseArguments text)
          outer := b.current }
      match b.snapshot.addClass? declared with
      | none => .error (.duplicateClass declared.qualifiedName)
      | some (id, snapshot) =>
        return { b with snapshot, current := some id, around := b.current :: b.around }

def declaredCallable (tag : Tag) (name : String) (typeParameters : List Signature) : Callable where
  name := name
  modifiers := tag.modifiers
  deprecated := tag.deprecated
  position := tag.position
  typeParameters := typeParameters
  parameters := []
  exceptions := []

def enterMethod (b : Builder) (tag : Tag) : Except LoadError Builder := do
  let _ ← b.receivingClass tag
  let (name, typeParameters) ← tag.readDeclaredName
  let expression ← tag.requiredEither "return" "type"
  let returnType ← tag.readUse (b.classScope.push typeParameters) expression
  return { b with member := some (.method ⟨declaredCallable tag name typeParameters, returnType⟩) }

def enterConstructor (b : Builder) (tag : Tag) : Except LoadError Builder := do
  let _ ← b.receivingClass tag
  let (name, typeParameters) ← tag.readDeclaredName
  return { b with member := some (.constructor (declaredCallable tag name typeParameters)) }

def enterField (b : Builder) (tag : Tag) : Except LoadError Builder := do
  let _ ← b.receivingClass tag
  let name ← tag.required "name"
  let expression ← tag.required "type"
  let type ← tag.readUse b.classScope expression
  let declared : Field :=
    ⟨name, tag.modifiers, tag.deprecated, tag.position, type, tag.attribute? "value"⟩
  return { b with member := some (.field declared) }

def updateMember (b : Builder) (tag : Tag) (change : Callable → Callable) :
    Except LoadError Builder :=
  match b.member.bind (Member.updateCallable? change) with
  | some member => .ok { b with member := some member }
  | none => .error (tag.misplacedIn "method")

def enterParameter (b : Builder) (tag : Tag) : Except LoadError Builder := do
  let typeText ← tag.required "type"
  let type ← tag.readUse b.memberScope typeText
  let parameter : Parameter := ⟨(tag.attribute? "name").getD "", typeText, type⟩
  b.updateMember tag fun c => { c with parameters := c.parameters ++ [parameter] }

def enterException (b : Builder) (tag : Tag) : Except LoadError Builder := do
  let thrown ← tag.requiredEither "type" "name"
  let ref := ClassRef.named (eraseArguments thrown)
  b.updateMember tag fun c => { c with exceptions := c.exceptions ++ [ref] }

def enterInterfaceName (b : Builder) (tag : Tag) : Except LoadError Builder := do
  let id ← b.receivingClass tag
  let name ← tag.required "name"
  let ref := ClassRef.named (eraseArguments name)
  return { b with
    snapshot := b.snapshot.update id fun c => { c with interfaces := c.interfaces ++ [ref] } }

def enter (b : Builder) (tag : Tag) : Except LoadError Builder :=
  match tag.name with
  | "package" => b.enterPackage tag
  | "class" => b.enterClass tag .plain
  | "interface" => b.enterClass tag .interface
  | "method" => b.enterMethod tag
  | "constructor" => b.enterConstructor tag
  | "field" => b.enterField tag
  | "parameter" => b.enterParameter tag
  | "exception" => b.enterException tag
  | "implements" => b.enterInterfaceName tag
  | _ => .ok b

def leaveMember (b : Builder) : Builder :=
  match b.current, b.member with
  | some id, some member => { b with snapshot := b.snapshot.update id member.addTo, member := none }
  | _, _ => { b with member := none }

def leaveClass (b : Builder) : Builder :=
  match b.around with
  | [] => { b with current := none }
  | outer :: rest => { b with current := outer, around := rest }

def leave (b : Builder) (name : String) : Builder :=
  match name with
  | "package" => { b with package := none }
  | "class" => b.leaveClass
  | "interface" => b.leaveClass
  | "method" => b.leaveMember
  | "constructor" => b.leaveMember
  | "field" => b.leaveMember
  | _ => b

def step (b : Builder) : Event → Except LoadError Builder
  | .start tag => b.enter tag
  | .empty tag => do
    let entered ← b.enter tag
    return entered.leave tag.name
  | .finish name => .ok (b.leave name)

def run (events : List Event) : Except LoadError Builder := events.foldlM step empty

end Builder

/-- Reads a description. What is wrong first in the document is the error. -/
def Snapshot.load (document : List UInt8) : Except LoadError Snapshot := do
  let reading := Markup.read document
  let b ← Builder.run reading.events
  match reading.fault with
  | some e => .error (.markup e)
  | none => .ok b.snapshot

end ApiCompat
