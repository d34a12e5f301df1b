import ApiCompat.Signature.Basic

/-! Scopes of type parameters. A scope is a stack of parameter lists; a name means its
declaration in the innermost list that declares it. Walks along declared bounds end because
each step uses up a declared name: `pending` counts the declarations not yet used. -/
namespace ApiCompat

/-- The type parameters in force at a place, innermost list first. -/
structure Scope where
  frames : List (List Signature)
  deriving Inhabited

namespace Scope

def empty : Scope := ⟨[]⟩

def push (parameters : List Signature) (scope : Scope) : Scope := ⟨parameters :: scope.frames⟩

def parameters (scope : Scope) : List Signature := scope.frames.flatten

def lookup (scope : Scope) (name : String) : Option Signature :=
  scope.parameters.find? (·.name == name)

def declares (scope : Scope) (name : String) : Bool := (scope.lookup name).isSome

def pending (scope : Scope) (used : List String) : Nat :=
  scope.parameters.countP fun parameter => !used.contains parameter.name

theorem countP_lt_of_mem {α : Type} {p q : α → Bool} {a : α} {list : List α}
    (h : ∀ b, q b = true → p b = true) (hmem : a ∈ list) (hp : p a = true) (hq : q a = false) :
    list.countP q < list.countP p := by
  induction list with
  | nil => cases hmem
  | cons b rest ih =>
    rcases List.mem_cons.1 hmem with rfl | hrest
    · have := List.countP_mono_left (l := rest) fun b _ => h b
      simp [hp, hq]
      omega
    · have hlt := ih hrest
      by_cases hb : q b = true
      · simp [hb, h b hb, hlt]
      · rw [List.countP_cons_of_neg hb, List.countP_cons]
        omega

theorem pending_cons_le (scope : Scope) (used : List String) (name : String) :
    scope.pending (name :: used) ≤ scope.pending used :=
  List.countP_mono_left fun parameter _ h => by
    simp only [List.contains_cons, Bool.not_or, Bool.and_eq_true] at h
    exact h.2

theorem lookup_name {scope : Scope} {name : String} {declared : Signature}
    (h : scope.lookup name = some declared) : declared.name = name := by
  simpa using List.find?_some h

theorem pending_cons_lt {scope : Scope} {used : List String} {name : String}
    {declared : Signature} (h : scope.lookup name = some declared) (fresh : name ∉ used) :
    scope.pending (name :: used) < scope.pending used := by
  refine countP_lt_of_mem (a := declared) (fun parameter hp => ?_)
    (List.mem_of_find?_eq_some h) ?_ ?_
  · simp only [List.contains_cons, Bool.not_or, Bool.and_eq_true] at hp
    exact hp.2
  · simp [lookup_name h, fresh]
  · simp [lookup_name h]

end Scope

end ApiCompat
