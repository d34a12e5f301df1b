/-! Visibility and the other declaration modifiers. Visibilities are ordered from the
narrowest to the widest; the two widest are what clients outside the package can use. -/
namespace ApiCompat

inductive Visibility where
  | ownClass
  | ownPackage
  | subclasses
  | everywhere
  deriving DecidableEq, Repr, Inhabited

namespace Visibility

def rank : Visibility → Nat
  | ownClass => 0
  | ownPackage => 1
  | subclasses => 2
  | everywhere => 3

/-- The visibility that a description's token names; any other token means the package. -/
def ofToken (token : String) : Visibility :=
  if token = "public" then everywhere
  else if token = "protected" then subclasses
  else if token = "private" then ownClass
  else ownPackage

def text : Visibility → String
  | ownClass => "private"
  | ownPackage => "package-private"
  | subclasses => "protected"
  | everywhere => "public"

def exported : Visibility → Bool
  | ownClass => false
  | ownPackage => false
  | subclasses => true
  | everywhere => true

def narrowed (old new : Visibility) : Bool := new.rank < old.rank

theorem exported_iff (v : Visibility) : v.exported = true ↔ subclasses.rank ≤ v.rank := by
  cases v <;> decide

end Visibility

structure Modifiers where
  visibility : Visibility
  isStatic : Bool
  isFinal : Bool
  isAbstract : Bool
  isSynchronized : Bool
  isNative : Bool
  isTransient : Bool
  isVolatile : Bool
  isDefault : Bool
  deriving DecidableEq, Repr, Inhabited

def Modifiers.none : Modifiers :=
  ⟨.ownPackage, false, false, false, false, false, false, false, false⟩

end ApiCompat
