import ApiCompat.Snapshot.Declaration

/-! The rules of compatibility, one question each about an old and a new declaration. -/
namespace ApiCompat.Compatibility

/-- Thrown types that callers need not declare, known by name. -/
def uncheckedNames : List String :=
  ["java.lang.RuntimeException", "java.lang.Error", "java.lang.IllegalArgumentException",
    "java.lang.IllegalStateException", "java.lang.NullPointerException",
    "java.lang.UnsupportedOperationException", "java.lang.IndexOutOfBoundsException",
    "java.lang.ArrayIndexOutOfBoundsException", "java.lang.ClassCastException",
    "java.lang.ArithmeticException", "java.lang.SecurityException",
    "java.lang.NumberFormatException", "java.util.ConcurrentModificationException",
    "java.util.NoSuchElementException"]

def isUncheckedName (name : String) : Bool := uncheckedNames.contains name

def chainIsUnchecked (chain : List String) : Bool := chain.any isUncheckedName

/-- Classes and interfaces do not replace one another; all kinds of classes do. -/
def kindIncompatible (old new : ClassKind) : Bool := old.isInterface != new.isInterface

def staticChanged (old new : Modifiers) : Bool := old.isStatic != new.isStatic

def becameFinal (old new : Modifiers) : Bool := !old.isFinal && new.isFinal

def lostFinal (old new : Modifiers) : Bool := old.isFinal && !new.isFinal

def instantiable (c : ClassDecl) : Bool := !c.isInterface && c.hasExportedConstructor

def classBecameAbstract (old new : ClassDecl) : Bool :=
  !old.isInterface && !old.modifiers.isAbstract && new.modifiers.isAbstract

def methodBecameAbstract (old : Method) (oldInInterface : Bool) (new : Method)
    (newInInterface : Bool) : Bool :=
  !old.mustBeImplemented oldInInterface && new.mustBeImplemented newInInterface

def methodBecameFinal (oldClass : ClassDecl) (old new : Method) : Bool :=
  becameFinal old.modifiers new.modifiers && !oldClass.modifiers.isFinal &&
    !old.modifiers.isStatic

/-- A new method that everyone who implements or extends the old class has to provide. -/
def isAddedAbstract (newClass oldClass : ClassDecl) (added : Method) : Bool :=
  added.mustBeImplemented newClass.isInterface &&
    (oldClass.isInterface || oldClass.hasExportedConstructor)

def isConstant (f : Field) : Bool := f.modifiers.isStatic && f.modifiers.isFinal

def constantValueChanged (old new : Field) : Bool :=
  match old.value, new.value with
  | some a, some b => isConstant old && isConstant new && a != b
  | _, _ => false

end ApiCompat.Compatibility
