import ApiCompat.Proofs.Signature.Renaming
import ApiCompat.Signature.Bounds

/-! Declared bounds copied onto uses change no comparison. A copy differs from its use only in the
bounds of variables, and a walk along bounds finds those in the scope anyway. Copying stops at
the variables that it is copying for, and the walk has met at least those, so where the copy
stays bare the walk has come to its end. -/
namespace ApiCompat

namespace Signature

variable {scope : Scope} {copying used : List String}

theorem attachAllWith_eq_map (scope : Scope) (copying : List String) (list : List Signature) :
    attachAllWith scope copying list = list.map (attachBoundsWith scope copying) := by
  induction list with
  | nil => rw [attachAllWith, List.map_nil]
  | cons s rest ih => rw [attachAllWith, List.map_cons, ih]

theorem attachBoundsWith_of_inherited {s : Signature} {bounds : List Signature}
    (inherited : inheritedBounds? scope copying s = some bounds) :
    attachBoundsWith scope copying s =
      { s with extendsBounds := bounds.map (attachBoundsWith scope (s.name :: copying)) } := by
  rw [attachBoundsWith]
  split
  · rename_i other found
    cases Option.some.inj (inherited.symm.trans found)
    rw [attachAllWith_eq_map]
  · rename_i absent
    cases inherited.symm.trans absent

theorem attachBoundsWith_of_own {s : Signature} (own : inheritedBounds? scope copying s = none) :
    attachBoundsWith scope copying s =
      { s with
        arguments := s.arguments.map (attachBoundsWith scope copying)
        superBounds := s.superBounds.map (attachBoundsWith scope copying)
        extendsBounds := s.extendsBounds.map (attachBoundsWith scope copying) } := by
  rw [attachBoundsWith]
  split
  · rename_i other found
    cases own.symm.trans found
  · simp only [attachAllWith_eq_map]

/-- Bounds are received by a variable without bounds, from a declaration that has some. -/
theorem eq_of_inheritedBounds? {s : Signature} {bounds : List Signature}
    (inherited : inheritedBounds? scope copying s = some bounds) :
    s.kind = .typeVariable ∧ s.extendsBounds = [] ∧ bounds ≠ [] ∧
      ∃ declared, scope.lookup s.name = some declared ∧ declared.extendsBounds = bounds := by
  unfold inheritedBounds? at inherited
  split at inherited
  · rename_i usable
    obtain ⟨isVariable, bare, _⟩ := usable
    split at inherited
    · rename_i declared found
      split at inherited
      · cases inherited
      · rename_i bounded
        cases inherited
        exact ⟨by simpa [isTypeVariable] using isVariable, List.isEmpty_iff.mp bare,
          fun empty => bounded (List.isEmpty_iff.mpr empty), declared, found, rfl⟩
    · cases inherited
  · cases inherited

theorem inheritedBounds?_of_not_variable {s : Signature} (other : s.kind ≠ .typeVariable) :
    inheritedBounds? scope copying s = none := by
  cases inherited : inheritedBounds? scope copying s with
  | none => rfl
  | some bounds => exact absurd (eq_of_inheritedBounds? inherited).1 other

section Frame

variable (scope : Scope) (copying : List String) (s : Signature)

/-- Copying changes nothing but arguments and bounds. -/
theorem attachBoundsWith_frame : attachBoundsWith scope copying s = { s with
    arguments := (attachBoundsWith scope copying s).arguments
    superBounds := (attachBoundsWith scope copying s).superBounds
    extendsBounds := (attachBoundsWith scope copying s).extendsBounds } := by
  cases inherited : inheritedBounds? scope copying s with
  | some bounds => rw [attachBoundsWith_of_inherited inherited]
  | none => rw [attachBoundsWith_of_own inherited]

@[simp] theorem kind_attachBoundsWith : (attachBoundsWith scope copying s).kind = s.kind := by
  rw [attachBoundsWith_frame]

@[simp] theorem name_attachBoundsWith : (attachBoundsWith scope copying s).name = s.name := by
  rw [attachBoundsWith_frame]

@[simp] theorem dimension_attachBoundsWith :
    (attachBoundsWith scope copying s).dimension = s.dimension := by
  rw [attachBoundsWith_frame]

@[simp] theorem fullDimension_attachBoundsWith :
    (attachBoundsWith scope copying s).fullDimension = s.fullDimension := by
  rw [attachBoundsWith_frame]
  rfl

end Frame

/-- The first bound in force is the same or a copy, made without more than the variable itself and
those that its bounds were being copied for. -/
theorem firstBound?_attachBoundsWith (scope : Scope) (copying : List String) (s : Signature) :
    (attachBoundsWith scope copying s).firstBound? scope = s.firstBound? scope ∨
      ∃ inner ⊆ s.name :: copying, (attachBoundsWith scope copying s).firstBound? scope =
        (s.firstBound? scope).map (attachBoundsWith scope inner) := by
  cases inherited : inheritedBounds? scope copying s with
  | some bounds =>
    obtain ⟨_, bare, bounded, declared, found, rfl⟩ := eq_of_inheritedBounds? inherited
    refine .inr ⟨s.name :: copying, fun _ h => h, ?_⟩
    rw [attachBoundsWith_of_inherited inherited, firstBound?, firstBound?, bare]
    simp only [found, Option.bind_some]
    cases bounds : declared.extendsBounds with
    | nil => exact absurd bounds bounded
    | cons bound others => rfl
  | none =>
    rw [attachBoundsWith_of_own inherited, firstBound?, firstBound?]
    cases s.extendsBounds with
    | nil => exact .inl rfl
    | cons bound others => exact .inr ⟨copying, List.subset_cons_self _ _, rfl⟩

theorem erasedBase_attachBoundsWith (within : copying ⊆ used) (s : Signature) :
    erasedBase scope used (attachBoundsWith scope copying s) = erasedBase scope used s := by
  fun_induction erasedBase scope used s generalizing copying with
  | case1 used s primitive =>
    rw [erasedBase_of_named (.inl ((kind_attachBoundsWith ..).trans primitive)),
      name_attachBoundsWith]
  | case2 used s classType =>
    rw [erasedBase_of_named (.inr ((kind_attachBoundsWith ..).trans classType)),
      name_attachBoundsWith]
  | case3 used s wildcard bound others bounds ih =>
    have own : inheritedBounds? scope copying s = none :=
      inheritedBounds?_of_not_variable (by simp [wildcard])
    rw [erasedBase_of_wildcard ((kind_attachBoundsWith ..).trans wildcard),
      attachBoundsWith_of_own own, bounds]
    exact ih within
  | case4 used s wildcard bounds =>
    have own : inheritedBounds? scope copying s = none :=
      inheritedBounds?_of_not_variable (by simp [wildcard])
    rw [erasedBase_of_wildcard ((kind_attachBoundsWith ..).trans wildcard),
      attachBoundsWith_of_own own, bounds]
    rfl
  | case5 used s isVariable seen =>
    rw [erasedBase_of_variable ((kind_attachBoundsWith ..).trans isVariable), name_attachBoundsWith,
      if_pos seen]
  | case6 used s isVariable unseen bound found ih =>
    rw [erasedBase_of_variable ((kind_attachBoundsWith ..).trans isVariable), name_attachBoundsWith,
      if_neg unseen]
    rcases firstBound?_attachBoundsWith scope copying s with same | ⟨inner, fewer, copied⟩
    · rw [same, found]
    · have met : inner ⊆ s.name :: used :=
        List.Subset.trans fewer (List.cons_subset_cons _ within)
      rw [copied, found, Option.map_some]
      simp only [ih met, dimension_attachBoundsWith]
  | case7 used s isVariable unseen unbounded =>
    rw [erasedBase_of_variable ((kind_attachBoundsWith ..).trans isVariable), name_attachBoundsWith,
      if_neg unseen]
    rcases firstBound?_attachBoundsWith scope copying s with same | ⟨inner, _, copied⟩
    · rw [same, unbounded]
    · rw [copied, unbounded, Option.map_none]

theorem erasure_attachBounds (scope : Scope) (s : Signature) :
    (s.attachBounds scope).erasure scope = s.erasure scope := by
  rw [erasure, erasure, attachBounds, fullDimension_attachBoundsWith,
    erasedBase_attachBoundsWith (List.Subset.refl [])]

mutual

/-- The walks that a canonical form makes all begin anew, and so do the copies that it meets. -/
theorem canonical_attachBounds (scope : Scope) :
    ∀ s : Signature, (s.attachBounds scope).canonical scope = s.canonical scope
  | ⟨kind, name, dimension, arguments, supers, uppers, varargs, linked⟩ => by
    have base := @erasedBase_attachBoundsWith scope [] [] (List.Subset.refl [])
      ⟨kind, name, dimension, arguments, supers, uppers, varargs, linked⟩
    have inside := canonicalAll_attachBounds scope arguments
    have lower := canonicalAll_attachBounds scope supers
    have upper := canonicalAll_attachBounds scope uppers
    rw [attachBounds]
    cases inherited : inheritedBounds? scope []
        ⟨kind, name, dimension, arguments, supers, uppers, varargs, linked⟩ with
    | some bounds =>
      obtain ⟨isVariable, _⟩ := eq_of_inheritedBounds? inherited
      cases isVariable
      rw [attachBoundsWith_of_inherited inherited] at base ⊢
      simp only [canonical, base]
    | none =>
      rw [attachBoundsWith_of_own inherited] at base ⊢
      have empty : (arguments.map (attachBoundsWith scope [])).isEmpty = arguments.isEmpty :=
        List.isEmpty_map
      simp only [canonical, inside, lower, upper, empty]
      cases kind with
      | primitive => rfl
      | classType => rfl
      | wildcard => rfl
      | typeVariable =>
        rw [← base]

theorem canonicalAll_attachBounds (scope : Scope) : ∀ list : List Signature,
    canonicalAll scope (list.map (attachBoundsWith scope [])) = canonicalAll scope list
  | [] => rfl
  | s :: rest => by
    have first := canonical_attachBounds scope s
    have others := canonicalAll_attachBounds scope rest
    rw [attachBounds] at first
    simp only [List.map_cons, canonicalAll, first, others]

end

end Signature

end ApiCompat
