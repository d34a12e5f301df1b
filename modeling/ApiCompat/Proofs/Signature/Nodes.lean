import ApiCompat.Signature.Basic
import Mathlib.Data.List.Basic

/-! The signatures inside a signature: its arguments and bounds, and theirs, at every depth. -/
namespace ApiCompat.Signature

theorem mem_children {s t : Signature} :
    t ∈ s.children ↔ t ∈ s.arguments ∨ t ∈ s.superBounds ∨ t ∈ s.extendsBounds := by
  simp only [children, List.mem_append, or_assoc]

theorem children_eq_nil_iff {s : Signature} :
    s.children = [] ↔ s.arguments = [] ∧ s.superBounds = [] ∧ s.extendsBounds = [] := by
  simp [children]

mutual

/-- A signature and those inside it, at every depth. -/
def nodes : Signature → List Signature
  | ⟨kind, name, dimension, arguments, supers, uppers, varargs, linked⟩ =>
    ⟨kind, name, dimension, arguments, supers, uppers, varargs, linked⟩ ::
      (nodesAll arguments ++ nodesAll supers ++ nodesAll uppers)

def nodesAll : List Signature → List Signature
  | [] => []
  | s :: rest => s.nodes ++ nodesAll rest

end

theorem nodesAll_eq_flatMap (list : List Signature) : nodesAll list = list.flatMap nodes := by
  induction list with
  | nil => rfl
  | cons s rest ih => rw [nodesAll, List.flatMap_cons, ih]

theorem nodes_eq (s : Signature) : s.nodes = s :: s.children.flatMap nodes := by
  cases s
  simp only [nodes, nodesAll_eq_flatMap, children, List.flatMap_append]

theorem mem_nodes_self (s : Signature) : s ∈ s.nodes := by
  rw [nodes_eq]
  exact List.mem_cons_self

theorem mem_nodes_of_child {s t n : Signature} (inside : t ∈ s.children) (h : n ∈ t.nodes) :
    n ∈ s.nodes := by
  rw [nodes_eq]
  exact List.mem_cons_of_mem _ (List.mem_flatMap.mpr ⟨t, inside, h⟩)

theorem sizeOf_lt_of_mem_children {s t : Signature} (inside : t ∈ s.children) :
    sizeOf t < sizeOf s := by
  obtain ⟨kind, name, dimension, arguments, supers, uppers, varargs, linked⟩ := s
  rw [mk.sizeOf_spec]
  rcases mem_children.mp inside with h | h | h <;>
  · have := List.sizeOf_lt_of_mem h
    simp only at this
    omega

/-- What holds of a signature whenever it holds of its arguments and bounds holds of all. -/
theorem byChildren {motive : Signature → Prop}
    (step : ∀ s, (∀ t ∈ s.children, motive t) → motive s) (s : Signature) : motive s :=
  step s fun t _ => byChildren step t
termination_by sizeOf s
decreasing_by exact sizeOf_lt_of_mem_children ‹_›

theorem children_markVariables (isVariable : String → Bool) (s : Signature) :
    (s.markVariables isVariable).children = s.children.map (markVariables isVariable) := by
  obtain ⟨kind, name, dimension, arguments, supers, uppers, varargs, linked⟩ := s
  simp only [markVariables, children, markVariablesAll_eq_map, List.map_append]

theorem children_markChildren (isVariable : String → Bool) (s : Signature) :
    (s.markChildren isVariable).children = s.children.map (markVariables isVariable) := by
  simp only [markChildren, children, markVariablesAll_eq_map, List.map_append]

theorem nodes_markVariables (isVariable : String → Bool) (s : Signature) :
    (s.markVariables isVariable).nodes = s.nodes.map (markVariables isVariable) := by
  induction s using byChildren with
  | step s ih =>
    rw [nodes_eq, nodes_eq s, children_markVariables, List.map_cons, List.flatMap_map,
      List.map_flatMap]
    exact congrArg _ (List.flatMap_congr ih)

end ApiCompat.Signature
