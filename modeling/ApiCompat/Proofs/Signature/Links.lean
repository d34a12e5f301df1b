import ApiCompat.Proofs.Signature.Renaming
import ApiCompat.Snapshot.Linking

/-! Links of signatures. Nothing that is said of a type reads its links: neither its erasure nor
its canonical form nor the way it is written. So these are the same before and after linking,
and when classes receive other numbers. -/
namespace ApiCompat

namespace Signature

mutual

/-- Forgets the links at every depth. -/
def unlink : Signature → Signature
  | ⟨kind, name, dimension, arguments, supers, uppers, varargs, _⟩ =>
    ⟨kind, name, dimension, unlinkAll arguments, unlinkAll supers, unlinkAll uppers, varargs, none⟩

def unlinkAll : List Signature → List Signature
  | [] => []
  | s :: rest => s.unlink :: unlinkAll rest

end

mutual

/-- Gives the linked classes other numbers at every depth. -/
def renumber (σ : ClassId → ClassId) : Signature → Signature
  | ⟨kind, name, dimension, arguments, supers, uppers, varargs, linked⟩ =>
    ⟨kind, name, dimension, renumberAll σ arguments, renumberAll σ supers, renumberAll σ uppers,
      varargs, linked.map σ⟩

def renumberAll (σ : ClassId → ClassId) : List Signature → List Signature
  | [] => []
  | s :: rest => s.renumber σ :: renumberAll σ rest

end

theorem unlinkAll_eq_map (list : List Signature) : unlinkAll list = list.map unlink := by
  induction list with
  | nil => rfl
  | cons s rest ih => rw [unlinkAll, List.map_cons, ih]

@[simp] theorem kind_unlink (s : Signature) : s.unlink.kind = s.kind := by
  cases s; rfl

@[simp] theorem name_unlink (s : Signature) : s.unlink.name = s.name := by
  cases s; rfl

@[simp] theorem dimension_unlink (s : Signature) : s.unlink.dimension = s.dimension := by
  cases s; rfl

@[simp] theorem varargs_unlink (s : Signature) : s.unlink.varargs = s.varargs := by
  cases s; rfl

theorem extendsBounds_unlink (s : Signature) :
    s.unlink.extendsBounds = s.extendsBounds.map unlink := by
  cases s
  exact unlinkAll_eq_map _

end Signature

def Scope.unlink (scope : Scope) : Scope := ⟨scope.frames.map (List.map Signature.unlink)⟩

namespace Signature

variable {scope : Scope}

theorem lookup_unlink (scope : Scope) (name : String) :
    scope.unlink.lookup name = (scope.lookup name).map unlink := by
  have parameters : scope.unlink.parameters = scope.parameters.map unlink :=
    List.map_flatten.symm
  rw [Scope.lookup, parameters, List.find?_map, Scope.lookup]
  congr 2
  funext p
  exact congrArg (· == name) (name_unlink p)

theorem firstBound?_unlink (scope : Scope) (s : Signature) :
    s.unlink.firstBound? scope.unlink = (s.firstBound? scope).map unlink := by
  unfold firstBound?
  rw [extendsBounds_unlink, name_unlink, lookup_unlink]
  cases s.extendsBounds with
  | cons bound others => rfl
  | nil =>
    cases scope.lookup s.name with
    | none => rfl
    | some found => simp [extendsBounds_unlink]

theorem erasedBase_unlink (scope : Scope) (used : List String) (s : Signature) :
    erasedBase scope.unlink used s.unlink = erasedBase scope used s := by
  fun_induction erasedBase scope used s with
  | case1 used s primitive =>
    rw [erasedBase_of_named (.inl (by rw [kind_unlink, primitive])), name_unlink]
  | case2 used s classType =>
    rw [erasedBase_of_named (.inr (by rw [kind_unlink, classType])), name_unlink]
  | case3 used s wildcard bound others bounds ih =>
    rw [erasedBase_of_wildcard (by rw [kind_unlink, wildcard]), extendsBounds_unlink, bounds]
    exact ih
  | case4 used s wildcard bounds =>
    rw [erasedBase_of_wildcard (by rw [kind_unlink, wildcard]), extendsBounds_unlink, bounds]
    rfl
  | case5 used s isVariable seen =>
    rw [erasedBase_of_variable (by rw [kind_unlink, isVariable]), name_unlink, if_pos seen]
  | case6 used s isVariable unseen bound found ih =>
    rw [erasedBase_of_variable (by rw [kind_unlink, isVariable]), name_unlink, if_neg unseen,
      firstBound?_unlink, found]
    change _ ++ bound.unlink.dimension = _
    rw [dimension_unlink, ← ih]
  | case7 used s isVariable unseen unbounded =>
    rw [erasedBase_of_variable (by rw [kind_unlink, isVariable]), name_unlink, if_neg unseen,
      firstBound?_unlink, unbounded]
    rfl

theorem erasure_unlink (s : Signature) : s.unlink.erasure scope.unlink = s.erasure scope := by
  rw [erasure, erasure, erasedBase_unlink, fullDimension, fullDimension, varargs_unlink,
    dimension_unlink]

mutual

theorem canonical_unlink : ∀ s : Signature, s.unlink.canonical scope.unlink = s.canonical scope
  | ⟨kind, name, dimension, arguments, supers, uppers, varargs, linked⟩ => by
    have base := erasedBase_unlink scope []
      ⟨kind, name, dimension, arguments, supers, uppers, varargs, linked⟩
    have inside := canonicalAll_unlink arguments
    have lower := canonicalAll_unlink supers
    have upper := canonicalAll_unlink uppers
    have empty : (unlinkAll arguments).isEmpty = arguments.isEmpty := by
      rw [unlinkAll_eq_map, List.isEmpty_map]
    simp only [unlink, canonical, inside, lower, upper, empty]
    cases kind with
    | primitive => rfl
    | classType => rfl
    | wildcard => rfl
    | typeVariable =>
      rw [← base]
      rfl

theorem canonicalAll_unlink :
    ∀ list, canonicalAll scope.unlink (unlinkAll list) = canonicalAll scope list
  | [] => rfl
  | s :: rest => by
    have first := canonical_unlink s
    have others := canonicalAll_unlink rest
    simp only [unlinkAll, canonicalAll, first, others]

end

mutual

theorem renderWith_unlink :
    ∀ (s : Signature) (shown : List String), s.unlink.renderWith shown = s.renderWith shown
  | ⟨kind, name, dimension, arguments, supers, uppers, varargs, linked⟩, shown => by
    have inside := renderAllWith_unlink arguments
    have lower := renderAllWith_unlink supers
    have upper := renderAllWith_unlink uppers
    have empty (list : List Signature) : (unlinkAll list).isEmpty = list.isEmpty := by
      rw [unlinkAll_eq_map, List.isEmpty_map]
    simp only [unlink, renderWith, inside, lower, upper, empty]

theorem renderAllWith_unlink :
    ∀ (list : List Signature) (shown : List String),
      renderAllWith shown (unlinkAll list) = renderAllWith shown list
  | [], _ => rfl
  | s :: rest, shown => by
    have first := renderWith_unlink s
    have others := renderAllWith_unlink rest
    simp only [unlinkAll, renderAllWith, first, others]

end

theorem displayName_unlink (s : Signature) : s.unlink.displayName = s.displayName := by
  rw [displayName, displayName, fullName, fullName, renderWith_unlink, varargs_unlink]

section Alike

variable {s t : Signature} {scope' : Scope}

theorem canonical_eq_of_unlink (same : s.unlink = t.unlink) (scopes : scope.unlink = scope'.unlink) :
    s.canonical scope = t.canonical scope' := by
  rw [← canonical_unlink, same, scopes, canonical_unlink]

theorem displayName_eq_of_unlink (same : s.unlink = t.unlink) : s.displayName = t.displayName := by
  rw [← displayName_unlink, same, displayName_unlink]

end Alike

mutual

theorem unlink_link (find : String → Option ClassId) :
    ∀ s : Signature, (s.link find).unlink = s.unlink
  | ⟨_, _, _, arguments, supers, uppers, _, _⟩ => by
    simp only [link, unlink, unlinkAll_linkAll find arguments, unlinkAll_linkAll find supers,
      unlinkAll_linkAll find uppers]

theorem unlinkAll_linkAll (find : String → Option ClassId) :
    ∀ list, unlinkAll (linkAll find list) = unlinkAll list
  | [] => rfl
  | s :: rest => by simp only [linkAll, unlinkAll, unlink_link find s, unlinkAll_linkAll find rest]

end

mutual

theorem unlink_renumber (σ : ClassId → ClassId) :
    ∀ s : Signature, (s.renumber σ).unlink = s.unlink
  | ⟨_, _, _, arguments, supers, uppers, _, _⟩ => by
    simp only [renumber, unlink, unlinkAll_renumberAll σ arguments, unlinkAll_renumberAll σ supers,
      unlinkAll_renumberAll σ uppers]

theorem unlinkAll_renumberAll (σ : ClassId → ClassId) :
    ∀ list, unlinkAll (renumberAll σ list) = unlinkAll list
  | [] => rfl
  | s :: rest => by
    simp only [renumberAll, unlinkAll, unlink_renumber σ s, unlinkAll_renumberAll σ rest]

end

section Commute

variable {σ : ClassId → ClassId} {find find' : String → Option ClassId}

mutual

theorem link_renumber (found : ∀ name, find' name = (find name).map σ) :
    ∀ s : Signature, (s.renumber σ).link find' = (s.link find).renumber σ
  | ⟨kind, name, _, arguments, supers, uppers, _, linked⟩ => by
    have unset : linked.map σ = none ↔ linked = none := Option.map_eq_none_iff
    simp only [renumber, link, linkAll_renumberAll found arguments, linkAll_renumberAll found supers,
      linkAll_renumberAll found uppers, unset, found]
    split <;> rfl

theorem linkAll_renumberAll (found : ∀ name, find' name = (find name).map σ) :
    ∀ list, linkAll find' (renumberAll σ list) = renumberAll σ (linkAll find list)
  | [] => rfl
  | s :: rest => by
    simp only [renumberAll, linkAll, link_renumber found s, linkAll_renumberAll found rest]

end

end Commute

end Signature

end ApiCompat
