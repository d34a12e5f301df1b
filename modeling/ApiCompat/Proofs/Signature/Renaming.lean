import ApiCompat.Signature.Erasure
import Mathlib.Data.List.Basic
import Mathlib.Data.List.Find

/-! Renaming type variables. A renaming that keeps names apart commutes with the search for a
declaration, so the walk along bounds takes the same way under new names: erasures and
canonical forms, in which no variable is left, are the same. -/
namespace ApiCompat

namespace Signature

mutual

/-- Renames the type variables of a signature at every depth. -/
def rename (f : String → String) : Signature → Signature
  | ⟨kind, name, dimension, arguments, supers, uppers, varargs, linked⟩ =>
    ⟨kind, if kind = .typeVariable then f name else name, dimension, renameAll f arguments,
      renameAll f supers, renameAll f uppers, varargs, linked⟩

def renameAll (f : String → String) : List Signature → List Signature
  | [] => []
  | s :: rest => rename f s :: renameAll f rest

end

theorem renameAll_eq_map (f : String → String) (list : List Signature) :
    renameAll f list = list.map (rename f) := by
  induction list with
  | nil => rfl
  | cons s rest ih => simp [renameAll, ih]

variable {f : String → String}

@[simp] theorem kind_rename (s : Signature) : (s.rename f).kind = s.kind := by
  cases s; rfl

@[simp] theorem dimension_rename (s : Signature) : (s.rename f).dimension = s.dimension := by
  cases s; rfl

@[simp] theorem fullDimension_rename (s : Signature) :
    (s.rename f).fullDimension = s.fullDimension := by
  cases s; rfl

theorem extendsBounds_rename (s : Signature) :
    (s.rename f).extendsBounds = s.extendsBounds.map (rename f) := by
  cases s
  exact renameAll_eq_map f _

theorem name_rename_of_variable {s : Signature} (h : s.kind = .typeVariable) :
    (s.rename f).name = f s.name := by
  cases s
  exact if_pos h

theorem name_rename_of_not_variable {s : Signature} (h : s.kind ≠ .typeVariable) :
    (s.rename f).name = s.name := by
  cases s
  exact if_neg h

end Signature

namespace Scope

/-- Renames the declarations of a scope together with their bounds. -/
def rename (f : String → String) (scope : Scope) : Scope :=
  ⟨scope.frames.map (List.map (Signature.rename f))⟩

/-- All declarations are variables. -/
def DeclaresVariables (scope : Scope) : Prop := ∀ p ∈ scope.parameters, p.kind = .typeVariable

variable {f : String → String} {scope : Scope}

theorem parameters_rename (f : String → String) (scope : Scope) :
    (scope.rename f).parameters = scope.parameters.map (Signature.rename f) :=
  List.map_flatten.symm

theorem declaresVariables_push_iff {parameters : List Signature} :
    (scope.push parameters).DeclaresVariables ↔
      (∀ p ∈ parameters, p.kind = .typeVariable) ∧ scope.DeclaresVariables :=
  List.forall_mem_append

theorem lookup_rename (apart : Function.Injective f) (declared : scope.DeclaresVariables)
    (name : String) :
    (scope.rename f).lookup (f name) = (scope.lookup name).map (Signature.rename f) := by
  unfold lookup
  rw [parameters_rename, List.find?_map]
  congr 1
  refine List.find?_congr ?_
  intro p hp
  simp [Signature.name_rename_of_variable (declared p hp), apart.eq_iff]

end Scope

namespace Signature

variable {f : String → String} {scope : Scope}

theorem firstBound?_rename (apart : Function.Injective f) (declared : scope.DeclaresVariables)
    {s : Signature} (h : s.kind = .typeVariable) :
    (s.rename f).firstBound? (scope.rename f) = (s.firstBound? scope).map (rename f) := by
  unfold firstBound?
  rw [extendsBounds_rename, name_rename_of_variable h, Scope.lookup_rename apart declared]
  cases s.extendsBounds with
  | cons bound others => rfl
  | nil =>
    cases scope.lookup s.name with
    | none => rfl
    | some found => simp [extendsBounds_rename]

theorem erasedBase_of_named {used : List String} {s : Signature}
    (h : s.kind = .primitive ∨ s.kind = .classType) : erasedBase scope used s = s.name := by
  rw [erasedBase]
  rcases h with h | h <;> split <;> simp_all

theorem erasedBase_of_wildcard {used : List String} {s : Signature} (h : s.kind = .wildcard) :
    erasedBase scope used s = match s.extendsBounds with
      | bound :: _ => erasedBase scope used bound
      | [] => rootClass := by
  rw [erasedBase]
  split
  case h_3 => split <;> simp_all only
  all_goals simp_all

theorem erasedBase_of_variable {used : List String} {s : Signature}
    (h : s.kind = .typeVariable) :
    erasedBase scope used s = if s.name ∈ used then rootClass else
      match s.firstBound? scope with
      | some bound => erasedBase scope (s.name :: used) bound ++ bound.dimension
      | none => rootClass := by
  rw [erasedBase]
  split
  case h_4 =>
    split
    · rfl
    · split <;> simp_all only
  all_goals simp_all

theorem erasedBase_rename (apart : Function.Injective f) (declared : scope.DeclaresVariables)
    (used : List String) (s : Signature) :
    erasedBase (scope.rename f) (used.map f) (s.rename f) = erasedBase scope used s := by
  fun_induction erasedBase scope used s with
  | case1 used s primitive =>
    rw [erasedBase_of_named (.inl (by rw [kind_rename, primitive]))]
    exact name_rename_of_not_variable (by simp [primitive])
  | case2 used s classType =>
    rw [erasedBase_of_named (.inr (by rw [kind_rename, classType]))]
    exact name_rename_of_not_variable (by simp [classType])
  | case3 used s wildcard bound others bounds ih =>
    rw [erasedBase_of_wildcard (by rw [kind_rename, wildcard]), extendsBounds_rename, bounds]
    exact ih
  | case4 used s wildcard bounds =>
    rw [erasedBase_of_wildcard (by rw [kind_rename, wildcard]), extendsBounds_rename, bounds]
    rfl
  | case5 used s isVariable seen =>
    rw [erasedBase_of_variable (by rw [kind_rename, isVariable]),
      name_rename_of_variable isVariable, if_pos (List.mem_map_of_mem seen)]
  | case6 used s isVariable unseen bound found ih =>
    have unseen' : f s.name ∉ used.map f := by
      rwa [List.mem_map_of_injective apart]
    rw [erasedBase_of_variable (by rw [kind_rename, isVariable]),
      name_rename_of_variable isVariable, if_neg unseen',
      firstBound?_rename apart declared isVariable, found]
    change _ ++ (bound.rename f).dimension = _
    rw [dimension_rename, ← ih, List.map_cons]
  | case7 used s isVariable unseen unbounded =>
    have unseen' : f s.name ∉ used.map f := by
      rwa [List.mem_map_of_injective apart]
    rw [erasedBase_of_variable (by rw [kind_rename, isVariable]),
      name_rename_of_variable isVariable, if_neg unseen',
      firstBound?_rename apart declared isVariable, unbounded]
    rfl

theorem erasure_rename (apart : Function.Injective f) (declared : scope.DeclaresVariables)
    (s : Signature) : (s.rename f).erasure (scope.rename f) = s.erasure scope := by
  rw [erasure, erasure, fullDimension_rename]
  exact congrArg (· ++ s.fullDimension) (erasedBase_rename apart declared [] s)

mutual

theorem canonical_rename (apart : Function.Injective f) (declared : scope.DeclaresVariables) :
    ∀ s : Signature, (s.rename f).canonical (scope.rename f) = s.canonical scope
  | ⟨kind, name, dimension, arguments, supers, uppers, varargs, linked⟩ => by
    have base := erasedBase_rename apart declared []
      ⟨kind, name, dimension, arguments, supers, uppers, varargs, linked⟩
    have inside := canonicalAll_rename apart declared arguments
    have lower := canonicalAll_rename apart declared supers
    have upper := canonicalAll_rename apart declared uppers
    have empty : (renameAll f arguments).isEmpty = arguments.isEmpty := by
      rw [renameAll_eq_map, List.isEmpty_map]
    simp only [rename, canonical, inside, lower, upper, empty]
    cases kind with
    | primitive => rfl
    | classType => rfl
    | wildcard => rfl
    | typeVariable =>
      rw [← base]
      rfl

theorem canonicalAll_rename (apart : Function.Injective f) (declared : scope.DeclaresVariables) :
    ∀ list, canonicalAll (scope.rename f) (renameAll f list) = canonicalAll scope list
  | [] => rfl
  | s :: rest => by
    have first := canonical_rename apart declared s
    have others := canonicalAll_rename apart declared rest
    simp only [renameAll, canonicalAll, first, others]

end

end Signature

end ApiCompat
