import ApiCompat.CommandLine.Arguments
import Mathlib.Data.List.Sort

/-! The order of the line. The three options for severities are gathered apart, each with the
indices of its codes. Indices grow from left to right, so one list lies behind the three, ordered by
its indices, and sorting what they hold together gives that list back. -/
namespace ApiCompat.CommandLine.Arguments

/-- The list behind the three. -/
structure Indexed (arguments : Arguments) (marks : List (Nat × Nat × Severity)) : Prop where
  increasing : marks.Pairwise fun earlier later => earlier.1 < later.1
  bounded : ∀ mark ∈ marks, mark.1 ≤ arguments.index
  perm : arguments.indexed.Perm marks

variable {arguments : Arguments} {marks : List (Nat × Nat × Severity)}

theorem eq_of_index_eq (increasing : marks.Pairwise fun earlier later => earlier.1 < later.1)
    {a b : Nat × Nat × Severity} (ha : a ∈ marks) (hb : b ∈ marks) (same : a.1 = b.1) : a = b := by
  induction marks with
  | nil => cases ha
  | cons first rest ih =>
    obtain ⟨below, increasing⟩ := List.pairwise_cons.mp increasing
    cases ha with
    | head =>
      cases hb with
      | head => rfl
      | tail _ hb =>
        have strict := below b hb
        omega
    | tail _ ha =>
      cases hb with
      | head =>
        have strict := below a ha
        omega
      | tail _ hb => exact ih increasing ha hb

/-- Sorting by strictly growing indices leaves no choice, in whatever order the lists come. -/
theorem mergeSort_eq_of_perm {gathered : List (Nat × Nat × Severity)}
    (increasing : marks.Pairwise fun earlier later => earlier.1 < later.1)
    (perm : gathered.Perm marks) : gathered.mergeSort (fun a b => a.1 ≤ b.1) = marks := by
  have sorted : (gathered.mergeSort fun a b => a.1 ≤ b.1).Pairwise fun a b => a.1 ≤ b.1 := by
    have result := @List.pairwise_mergeSort _ (fun a b : Nat × Nat × Severity => decide (a.1 ≤ b.1))
      (fun a b c ab bc => by simp only [decide_eq_true_eq] at *; omega)
      (fun a b => by simp only [Bool.or_eq_true, decide_eq_true_eq]; omega) gathered
    simpa using result
  have whole := (List.mergeSort_perm gathered fun a b => a.1 ≤ b.1).trans perm
  apply List.Perm.eq_of_pairwise ?_ sorted (increasing.imp Nat.le_of_lt) whole
  intro a b ha hb ab ba
  exact eq_of_index_eq increasing (whole.subset ha) hb (Nat.le_antisymm ab ba)

namespace Indexed

theorem overrides_eq (indexed : arguments.Indexed marks) :
    arguments.overrides = marks.map (·.2) := by
  rw [overrides, mergeSort_eq_of_perm indexed.increasing indexed.perm]

theorem empty : Arguments.empty.Indexed [] := ⟨.nil, by simp, .nil⟩

/-- What does not touch the three lists only moves the index on. -/
theorem advance (indexed : arguments.Indexed marks) {other : Arguments}
    (same : other.indexed = arguments.indexed) (later : arguments.index ≤ other.index) :
    other.Indexed marks where
  increasing := indexed.increasing
  bounded mark inside := (indexed.bounded mark inside).trans later
  perm := same ▸ indexed.perm

theorem mention (indexed : arguments.Indexed marks) (severity : Severity) (code : Nat) :
    (arguments.mention severity code).Indexed
      (marks ++ [(arguments.index + 2, code, severity)]) := by
  have index : (arguments.mention severity code).index = arguments.index + 2 := by
    cases severity <;> rfl
  have moved : ∀ (front behind : List (Nat × Nat × Severity)) mark,
      (front ++ [mark] ++ behind).Perm (front ++ behind ++ [mark]) := by
    intro front behind mark
    rw [List.append_assoc, List.append_assoc]
    exact List.perm_append_comm.append_left front
  have added : (arguments.mention severity code).indexed.Perm
      (arguments.indexed ++ [(arguments.index + 2, code, severity)]) := by
    simp only [Arguments.indexed, Arguments.mention]
    cases severity with
    | error =>
      have last := moved (graded arguments.error .error)
        (graded arguments.warning .warning ++ graded arguments.hide .hidden)
      simpa [graded] using last (arguments.index + 2, code, .error)
    | warning =>
      have last := moved (graded arguments.error .error ++ graded arguments.warning .warning)
        (graded arguments.hide .hidden)
      simpa [graded] using last (arguments.index + 2, code, .warning)
    | hidden => simp [graded]
  constructor
  · apply List.pairwise_append.mpr
    refine ⟨indexed.increasing, List.pairwise_singleton _ _, ?_⟩
    intro a ha b hb
    have below := indexed.bounded a ha
    cases List.mem_singleton.mp hb
    change a.1 < arguments.index + 2
    omega
  · intro mark inside
    rw [index]
    rcases List.mem_append.mp inside with old | new
    · have below := indexed.bounded mark old
      omega
    · cases List.mem_singleton.mp new
      exact Nat.le_refl _
  · exact added.trans (indexed.perm.append_right _)

end Indexed

end ApiCompat.CommandLine.Arguments
