import ApiCompat.Proofs.Snapshot.Supertypes
import Mathlib.Order.Bounds.Basic
import Mathlib.Order.Lattice.Nat

/-! The order of the ancestors. A walk layer by layer meets nodes in the order of a walk that keeps
the nodes it has found in a queue, each of them once, and never a nearer node after a farther one.
The invariant is that of a frontier: after some steps the layer is what is exactly that far, and
unseen is what cannot be reached with so few steps. -/
namespace ApiCompat

open Relation (ReflTransGen TransGen)

theorem nodup_eraseDups {α : Type} [BEq α] [LawfulBEq α] (list : List α) :
    list.eraseDups.Nodup := by
  cases list with
  | nil => exact List.nodup_nil
  | cons a rest =>
    rw [List.eraseDups_cons, List.nodup_cons]
    constructor
    · simp [List.mem_eraseDups]
    · exact nodup_eraseDups (rest.filter fun b => !b == a)
termination_by list.length
decreasing_by exact Nat.lt_succ_of_le (List.length_filter_le _ _)

namespace Walk

section Queue

variable {links : Nat → List Nat}

theorem remaining_nil (unseen : List Nat) : remaining unseen [] = unseen :=
  List.filter_eq_self.mpr (by simp)

/-- A walk with a queue. Its first node is met, and the unseen nodes that this one links to queue
up behind the others. -/
def queued (links : Nat → List Nat) (unseen queue : List Nat) : List Nat :=
  match queue with
  | [] => []
  | node :: rest =>
    node :: queued links (remaining unseen (nextLayer links unseen [node]))
      (rest ++ nextLayer links unseen [node])
termination_by (unseen.length, queue.length)
decreasing_by
  cases found : nextLayer links unseen [node] with
  | nil =>
    rw [remaining_nil, List.append_nil]
    exact Prod.Lex.right _ (Nat.lt_succ_self _)
  | cons a more =>
    have ha : a ∈ nextLayer links unseen [node] := found ▸ List.mem_cons_self
    have unmet := mem_unseen_of_mem_nextLayer ha
    exact Prod.Lex.left _ _ (length_remaining_lt unmet List.mem_cons_self)

theorem remaining_remaining (unseen first second : List Nat) :
    remaining (remaining unseen first) second = remaining unseen (first ++ second) := by
  rw [remaining, remaining, remaining, List.filter_filter]
  apply List.filter_congr
  intro node _
  simp [Bool.and_comm]

theorem nextLayer_nil (links : Nat → List Nat) (unseen : List Nat) :
    nextLayer links unseen [] = [] := rfl

/-- What a layer links to is what its first node links to and, of the rest, what else the others do. -/
theorem nextLayer_cons (links : Nat → List Nat) (unseen : List Nat) (node : Nat)
    (rest : List Nat) : nextLayer links unseen (node :: rest) =
      nextLayer links unseen [node] ++
        nextLayer links (remaining unseen (nextLayer links unseen [node])) rest := by
  have single : nextLayer links unseen [node] =
      ((links node).filter fun a => unseen.contains a).eraseDups := by
    simp [nextLayer]
  rw [single, nextLayer, List.flatMap_cons, List.filter_append, List.eraseDups_append]
  congr 1
  rw [nextLayer, List.removeAll, List.filter_filter]
  congr 1
  apply List.filter_congr
  intro a _
  rw [Bool.eq_iff_iff]
  simp [mem_remaining_iff, and_comm]

/-- Taking one layer off the queue leaves what it linked to behind what was already there. -/
theorem queued_append (links : Nat → List Nat) (front : List Nat) : ∀ unseen back : List Nat,
    queued links unseen (front ++ back) =
      front ++ queued links (remaining unseen (nextLayer links unseen front))
        (back ++ nextLayer links unseen front) := by
  induction front with
  | nil =>
    intro unseen back
    rw [nextLayer_nil, remaining_nil, List.append_nil]
    rfl
  | cons node rest ih =>
    intro unseen back
    rw [List.cons_append, queued, List.append_assoc, ih, nextLayer_cons links unseen node rest,
      remaining_remaining, List.append_assoc]
    rfl

theorem queued_eq_layers (links : Nat → List Nat) (unseen layer : List Nat) :
    queued links unseen layer = layer ++ layers links unseen layer := by
  fun_induction layers links unseen layer with
  | case1 unseen layer reached =>
    have step := queued_append links layer unseen []
    rw [List.append_nil, List.nil_append, reached, queued] at step
    exact step
  | case2 unseen layer first rest reached ih =>
    have step := queued_append links layer unseen []
    rw [List.append_nil, List.nil_append, reached, ih] at step
    exact step

theorem nodup_layers (links : Nat → List Nat) (unseen layer : List Nat) :
    (layers links unseen layer).Nodup := by
  fun_induction layers links unseen layer with
  | case1 => exact List.nodup_nil
  | case2 unseen layer first rest reached ih =>
    rw [List.nodup_append]
    refine ⟨reached ▸ nodup_eraseDups _, ih, ?_⟩
    rintro a near _ far rfl
    exact (mem_remaining_iff.mp (layers_sound far).1).2 near

end Queue

section Distance

variable {r : Nat → Nat → Prop} {start node : Nat}

/-- A node is reached from another one over a number of steps. -/
inductive Steps (r : Nat → Nat → Prop) (start : Nat) : Nat → Nat → Prop where
  | none : Steps r start 0 start
  | more {n a b : Nat} : Steps r start n a → r a b → Steps r start (n + 1) b

theorem exists_steps (path : ReflTransGen r start node) : ∃ n, Steps r start n node := by
  induction path with
  | refl => exact ⟨0, .none⟩
  | tail _ link ih =>
    obtain ⟨n, steps⟩ := ih
    exact ⟨n + 1, steps.more link⟩

theorem eq_start_of_steps (steps : Steps r start 0 node) : node = start := by
  cases steps
  rfl

/-- The number of steps of a shortest way. -/
abbrev Distance (r : Nat → Nat → Prop) (start n node : Nat) : Prop :=
  IsLeast {m | Steps r start m node} n

/-- A walk that has gone some steps far. -/
structure Frontier (links : Nat → List Nat) (nodes : List Nat) (start n : Nat)
    (unseen layer : List Nat) : Prop where
  layer : ∀ node, node ∈ layer ↔ Distance (fun a b => b ∈ links a) start n node
  unseen : ∀ node, node ∈ unseen ↔
    node ∈ nodes ∧ ∀ m ≤ n, ¬Steps (fun a b => b ∈ links a) start m node

namespace Frontier

variable {links : Nat → List Nat} {nodes unseen layer : List Nat} {n : Nat}

theorem begin (distinct : nodes.Nodup) : Frontier links nodes start 0 (nodes.erase start) [start] := by
  constructor
  · intro node
    rw [List.mem_singleton]
    constructor
    · rintro rfl
      exact ⟨.none, fun m _ => Nat.zero_le m⟩
    · intro near
      exact eq_start_of_steps near.1
  · intro node
    rw [distinct.mem_erase_iff, and_comm]
    refine and_congr_right fun _ => ?_
    constructor
    · intro apart m hm steps
      cases Nat.le_zero.mp hm
      exact apart (eq_start_of_steps steps)
    · rintro far rfl
      exact far 0 (Nat.le_refl 0) .none

theorem next (frontier : Frontier links nodes start n unseen layer)
    (within : ∀ a b, b ∈ links a → b ∈ nodes) :
    Frontier links nodes start (n + 1) (remaining unseen (nextLayer links unseen layer))
      (nextLayer links unseen layer) := by
  have reached : ∀ node, node ∈ nextLayer links unseen layer ↔
      Distance (fun a b => b ∈ links a) start (n + 1) node := by
    intro node
    rw [mem_nextLayer_iff, frontier.unseen]
    constructor
    · rintro ⟨⟨a, ha, link⟩, _, far⟩
      refine ⟨((frontier.layer a).mp ha).1.more link, fun m steps => ?_⟩
      exact Nat.lt_of_not_le fun hm => far m hm steps
    · rintro ⟨steps, least⟩
      have far : ∀ m ≤ n, ¬Steps (fun a b => b ∈ links a) start m node := by
        intro m hm nearer
        exact Nat.not_succ_le_self n (Nat.le_trans (least nearer) hm)
      cases steps with
      | @more _ a _ before link =>
        -- The node before the last step is in the layer: a shorter way to it would be one here too.
        have inside : a ∈ layer := by
          refine (frontier.layer a).mpr ⟨before, fun m shorter => ?_⟩
          exact Nat.le_of_succ_le_succ (least (shorter.more link))
        exact ⟨⟨a, inside, link⟩, within a node link, far⟩
  refine ⟨reached, fun node => ?_⟩
  rw [mem_remaining_iff, frontier.unseen, reached]
  constructor
  · rintro ⟨⟨declared, far⟩, apart⟩
    refine ⟨declared, fun m hm steps => ?_⟩
    rcases Nat.le_succ_iff.mp hm with hm | rfl
    · exact far m hm steps
    · apply apart
      exact ⟨steps, fun k nearer => Nat.lt_of_not_le fun hk => far k hk nearer⟩
  · rintro ⟨declared, far⟩
    refine ⟨⟨declared, fun m hm => far m (Nat.le_succ_of_le hm)⟩, fun at_next => ?_⟩
    exact far (n + 1) (Nat.le_refl _) at_next.1

theorem pairwise_layers (frontier : Frontier links nodes start n unseen layer)
    (within : ∀ a b, b ∈ links a → b ∈ nodes) :
    (layers links unseen layer).Pairwise fun a b => ∀ k l,
      Distance (fun a b => b ∈ links a) start k a → Distance (fun a b => b ∈ links a) start l b →
        k ≤ l := by
  fun_induction layers links unseen layer generalizing n with
  | case1 => exact List.Pairwise.nil
  | case2 unseen layer first rest reached ih =>
    have further := frontier.next within
    rw [reached] at further
    rw [List.pairwise_append]
    refine ⟨List.pairwise_of_forall_mem_list ?_, ih further, ?_⟩
    · intro a ha b hb k l atK atL
      rw [atK.unique ((further.layer a).mp ha), atL.unique ((further.layer b).mp hb)]
    · intro a near b far k l atK atL
      rw [atK.unique ((further.layer a).mp near)]
      -- What is met later was still unseen, so it is not that near.
      have unmet := (further.unseen b).mp (layers_sound far).1
      exact Nat.le_of_not_le fun nearer => unmet.2 l nearer atL.1

end Frontier

end Distance

end Walk

namespace Snapshot

/-- The ancestors are the other classes that links lead to, each once, in the order of a walk with
a queue and so by their distance. -/
theorem ancestors_breadthFirst {s : Snapshot} (closed : s.Closed) (id : ClassId) :
    (∀ a, a ∈ s.ancestors id ↔ a ≠ id ∧ TransGen s.Extends id a) ∧
      (s.ancestors id).Nodup ∧
      (∃ distance : ClassId → Nat,
        (∀ a ∈ s.ancestors id, IsLeast {n | Walk.Steps s.Extends id n a} (distance a)) ∧
        ((s.ancestors id).map distance).Pairwise (· ≤ ·)) ∧
      id :: s.ancestors id = Walk.queued s.parents (s.ids.erase id) [id] := by
  have links : (fun a b => b ∈ s.parents a) = s.Extends :=
    funext fun a => funext fun b => propext mem_parents_iff
  refine ⟨fun a => ?_, Walk.nodup_layers _ _ _, ?_,
    (Walk.queued_eq_layers s.parents (s.ids.erase id) [id]).symm⟩
  · rw [mem_ancestors_iff closed, Relation.reflTransGen_iff_eq_or_transGen]
    exact and_congr_right fun apart => or_iff_right apart
  · have nearest : ∀ a ∈ s.ancestors id, Walk.Distance s.Extends id
        (sInf {n | Walk.Steps s.Extends id n a}) a := by
      intro a ha
      obtain ⟨n, steps⟩ := Walk.exists_steps ((mem_ancestors_iff closed).mp ha).2
      exact isLeast_csInf ⟨n, steps⟩
    refine ⟨fun a => sInf {n | Walk.Steps s.Extends id n a}, nearest, ?_⟩
    have begun : Walk.Frontier s.parents s.ids id 0 (s.ids.erase id) [id] := .begin List.nodup_range
    have ordered := begun.pairwise_layers fun a b link => closed a b (mem_parents_iff.mp link)
    rw [links] at ordered
    rw [List.pairwise_map]
    exact ordered.imp_of_mem fun ha hb le => le _ _ (nearest _ ha) (nearest _ hb)

/-- A diamond whose top leads back to its bottom, which also lists itself. -/
def knot : Snapshot :=
  let declared (name : String) (superclass : ClassId) (interfaces : List ClassId) : ClassDecl :=
    { ClassDecl.bare "p" name .plain with
      superclass := some (.linked superclass), interfaces := interfaces.map .linked }
  { packages := [⟨"p", none, [0, 1, 2, 3]⟩]
    classes := [declared "Bottom" 1 [2, 0], declared "Left" 3 [], declared "Right" 3 [],
      declared "Top" 0 []] }

/-- The way round is cut where it comes back, and the side listed last is met first. -/
theorem ancestors_breadthFirst_knot :
    (∀ a, a ∈ [2, 1, 3] ↔ a ≠ 0 ∧ TransGen knot.Extends 0 a) ∧
      (∃ distance : ClassId → Nat,
        (∀ a ∈ [2, 1, 3], IsLeast {n | Walk.Steps knot.Extends 0 n a} (distance a)) ∧
        ([2, 1, 3].map distance).Pairwise (· ≤ ·)) ∧
      [0, 2, 1, 3] = Walk.queued knot.parents (knot.ids.erase 0) [0] := by
  have closed : knot.Closed := by
    intro a b link
    obtain ⟨c, hc, mem⟩ := mem_supertypeRefs_iff.mp link
    have declared : ∀ c ∈ knot.classes, ∀ ref ∈ c.supertypes, ∀ b ∈ ref.id?, b ∈ knot.ids := by
      decide +kernel
    exact declared c (mem_classes_of_class? hc) (.linked b) mem b rfl
  have met : knot.ancestors 0 = [2, 1, 3] := by decide +kernel
  obtain ⟨reached, _, nearestFirst, queue⟩ := ancestors_breadthFirst closed 0
  rw [met] at reached nearestFirst queue
  exact ⟨reached, nearestFirst, queue⟩

end Snapshot

end ApiCompat
