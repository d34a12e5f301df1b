/-! Categories of changes and their severities. A category has a stable code by which users
name it, a key for reports and a severity that holds unless it is overridden. -/
namespace ApiCompat

/-- How a change counts; errors come first, hidden changes are only counted. -/
inductive Severity where
  | error
  | warning
  | hidden
  deriving DecidableEq, Repr, Inhabited

namespace Severity

def text : Severity → String
  | error => "error"
  | warning => "warning"
  | hidden => "hidden"

def rank : Severity → Nat
  | error => 0
  | warning => 1
  | hidden => 2

end Severity

inductive Category where
  | addedPackage
  | addedClass
  | addedMethod
  | addedField
  | addedInterface
  | removedPackage
  | removedClass
  | removedMethod
  | removedField
  | removedInterface
  | changedStatic
  | changedFinal
  | changedTransient
  | changedVolatile
  | changedType
  | changedValue
  | changedSuperclass
  | changedScope
  | changedAbstract
  | changedThrows
  | changedNative
  | changedClass
  | changedDeprecated
  | changedSynchronized
  | addedFinalUninstantiable
  | removedFinal
  | addedAbstractMethod
  deriving DecidableEq, Repr, Inhabited

namespace Category

def all : List Category :=
  [addedPackage, addedClass, addedMethod, addedField, addedInterface, removedPackage,
    removedClass, removedMethod, removedField, removedInterface, changedStatic, changedFinal,
    changedTransient, changedVolatile, changedType, changedValue, changedSuperclass,
    changedScope, changedAbstract, changedThrows, changedNative, changedClass,
    changedDeprecated, changedSynchronized, addedFinalUninstantiable, removedFinal,
    addedAbstractMethod]

def code : Category → Nat
  | addedPackage => 1
  | addedClass => 2
  | addedMethod => 3
  | addedField => 4
  | addedInterface => 5
  | removedPackage => 6
  | removedClass => 7
  | removedMethod => 8
  | removedField => 9
  | removedInterface => 10
  | changedStatic => 11
  | changedFinal => 12
  | changedTransient => 13
  | changedVolatile => 14
  | changedType => 15
  | changedValue => 16
  | changedSuperclass => 17
  | changedScope => 18
  | changedAbstract => 19
  | changedThrows => 20
  | changedNative => 21
  | changedClass => 22
  | changedDeprecated => 23
  | changedSynchronized => 24
  | addedFinalUninstantiable => 25
  | removedFinal => 26
  | addedAbstractMethod => 27

def key : Category → String
  | addedPackage => "added_package"
  | addedClass => "added_class"
  | addedMethod => "added_method"
  | addedField => "added_field"
  | addedInterface => "added_interface"
  | removedPackage => "removed_package"
  | removedClass => "removed_class"
  | removedMethod => "removed_method"
  | removedField => "removed_field"
  | removedInterface => "removed_interface"
  | changedStatic => "changed_static"
  | changedFinal => "changed_final"
  | changedTransient => "changed_transient"
  | changedVolatile => "changed_volatile"
  | changedType => "changed_type"
  | changedValue => "changed_value"
  | changedSuperclass => "changed_superclass"
  | changedScope => "changed_scope"
  | changedAbstract => "changed_abstract"
  | changedThrows => "changed_throws"
  | changedNative => "changed_native"
  | changedClass => "changed_class"
  | changedDeprecated => "changed_deprecated"
  | changedSynchronized => "changed_synchronized"
  | addedFinalUninstantiable => "added_final_uninstantiable"
  | removedFinal => "removed_final"
  | addedAbstractMethod => "added_abstract_method"

/-- Additions are hidden, what breaks clients is an error, and what may break some is a warning. -/
def defaultSeverity : Category → Severity
  | addedPackage | addedClass | addedMethod | addedField | addedInterface => .hidden
  | changedNative | changedDeprecated | changedSynchronized | removedFinal => .hidden
  | changedTransient | changedVolatile | changedThrows | addedFinalUninstantiable => .warning
  | removedPackage | removedClass | removedMethod | removedField | removedInterface => .error
  | changedStatic | changedFinal | changedType | changedValue | changedSuperclass => .error
  | changedScope | changedAbstract | changedClass | addedAbstractMethod => .error

def ofCode? (code : Nat) : Option Category := all.find? (·.code == code)

theorem ofCode?_code (c : Category) : ofCode? c.code = some c := by cases c <;> decide

end Category

end ApiCompat
