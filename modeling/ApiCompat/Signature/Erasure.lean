import ApiCompat.Signature.Scope

/-! Erasure and canonical form. The erasure of a type drops its arguments and replaces a
variable by the erasure of its first upper bound, the one written or else the one declared;
a variable met again, or without a bound, erases to the root class. The canonical form
keeps the arguments, so it is the same for two types that differ in variable names only. -/
namespace ApiCompat.Signature

/-- The first upper bound in force for a variable: its own, else the declared one. -/
def firstBound? (scope : Scope) (s : Signature) : Option Signature :=
  match s.extendsBounds with
  | bound :: _ => some bound
  | [] => (scope.lookup s.name).bind fun declared => declared.extendsBounds.head?

/-- The erased name without the array suffix of the type itself; `used` holds the variables
already replaced on the way here. -/
def erasedBase (scope : Scope) (used : List String) (s : Signature) : String :=
  match _kind : s.kind with
  | .primitive => s.name
  | .classType => s.name
  | .wildcard =>
    match _bounds : s.extendsBounds with
    | bound :: _ => erasedBase scope used bound
    | [] => rootClass
  | .typeVariable =>
    if _seen : s.name ∈ used then rootClass
    else
      match _bounds : s.firstBound? scope with
      | some bound => erasedBase scope (s.name :: used) bound ++ bound.dimension
      | none => rootClass
termination_by (scope.pending used, sizeOf s)
decreasing_by
  · refine Prod.Lex.right _ ?_
    cases s
    simp only at _bounds
    simp only [_bounds, mk.sizeOf_spec, List.cons.sizeOf_spec]
    omega
  · unfold firstBound? at _bounds
    split at _bounds
    · rename_i first others hbounds
      cases _bounds
      rcases Nat.lt_or_eq_of_le (scope.pending_cons_le used s.name) with hlt | heq
      · exact Prod.Lex.left _ _ hlt
      · rw [heq]
        refine Prod.Lex.right _ ?_
        cases s
        simp only at hbounds
        simp only [hbounds, mk.sizeOf_spec, List.cons.sizeOf_spec]
        omega
    · obtain ⟨declared, hlookup, _⟩ := Option.bind_eq_some_iff.1 _bounds
      exact Prod.Lex.left _ _ (Scope.pending_cons_lt hlookup _seen)

/-- The array suffix of a type as a parameter declares it: an ellipsis is one more dimension. -/
def fullDimension (s : Signature) : String := if s.varargs then s.dimension ++ "[]" else s.dimension

def erasure (scope : Scope) (s : Signature) : String :=
  erasedBase scope [] s ++ s.fullDimension

mutual

def canonical (scope : Scope) : Signature → String
  | ⟨kind, name, dimension, arguments, supers, uppers, varargs, linked⟩ =>
    let lower := canonicalAll scope supers
    let upper := canonicalAll scope uppers
    let head := match kind with
      | .primitive => name
      | .classType => name
      | .typeVariable =>
        erasedBase scope [] ⟨kind, name, dimension, arguments, supers, uppers, varargs, linked⟩
      | .wildcard =>
        match lower, upper with
        | bound :: _, _ => "? super " ++ bound
        | [], bound :: _ => "? extends " ++ bound
        | [], [] => "?"
    let list := if arguments.isEmpty then ""
      else "<" ++ ",".intercalate (canonicalAll scope arguments) ++ ">"
    head ++ list ++ (if varargs then dimension ++ "[]" else dimension)

def canonicalAll (scope : Scope) : List Signature → List String
  | [] => []
  | s :: rest => canonical scope s :: canonicalAll scope rest

end

theorem canonicalAll_eq_map (scope : Scope) (list : List Signature) :
    canonicalAll scope list = list.map (canonical scope) := by
  induction list with
  | nil => rfl
  | cons s rest ih => simp [canonicalAll, ih]

end ApiCompat.Signature
