import ApiCompat.Signature.Scope

/-! Declared bounds copied onto uses. A use of a declared variable that has no bounds of its
own receives those of its declaration. Inside a copied bound, a variable whose bounds are
being copied stays bare, so every copy is finite. -/
namespace ApiCompat.Signature

/-- The declared bounds that a signature receives: it is a variable without bounds, its
declaration has some, and they are not being copied already. -/
def inheritedBounds? (scope : Scope) (used : List String) (s : Signature) :
    Option (List Signature) :=
  if s.isTypeVariable ∧ s.extendsBounds.isEmpty ∧ s.superBounds.isEmpty ∧ s.name ∉ used then
    match scope.lookup s.name with
    | some declared => if declared.extendsBounds.isEmpty then none else some declared.extendsBounds
    | none => none
  else none

theorem pending_lt_of_inheritedBounds? {scope : Scope} {used : List String} {s : Signature}
    {bounds : List Signature} (h : inheritedBounds? scope used s = some bounds) :
    scope.pending (s.name :: used) < scope.pending used := by
  unfold inheritedBounds? at h
  split at h
  · rename_i usable
    split at h
    · rename_i declared hlookup
      exact Scope.pending_cons_lt hlookup usable.2.2.2
    · cases h
  · cases h

mutual

def attachBoundsWith (scope : Scope) (used : List String) (s : Signature) : Signature :=
  match _inherited : inheritedBounds? scope used s with
  | some bounds => { s with extendsBounds := attachAllWith scope (s.name :: used) bounds }
  | none =>
    { s with
      arguments := attachAllWith scope used s.arguments
      superBounds := attachAllWith scope used s.superBounds
      extendsBounds := attachAllWith scope used s.extendsBounds }
termination_by (scope.pending used, sizeOf s)
decreasing_by
  · exact Prod.Lex.left _ _ (pending_lt_of_inheritedBounds? _inherited)
  all_goals
    refine Prod.Lex.right _ ?_
    cases s
    simp only [mk.sizeOf_spec]
    omega

def attachAllWith (scope : Scope) (used : List String) (list : List Signature) :
    List Signature :=
  match list with
  | [] => []
  | s :: rest => attachBoundsWith scope used s :: attachAllWith scope used rest
termination_by (scope.pending used, sizeOf list)

end

def attachBounds (scope : Scope) (s : Signature) : Signature := attachBoundsWith scope [] s

end ApiCompat.Signature
