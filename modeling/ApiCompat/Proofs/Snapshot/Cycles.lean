import ApiCompat.Proofs.Snapshot.BreadthFirst
import Mathlib.Data.List.Perm.Subperm

/-! Cyclic hierarchies. A hierarchy is cyclic if links lead from some class back to it, and that is
what the search finds. Otherwise the classes can be put in an order in which every link leads
forward: they are sorted by how many classes lie below them. -/
namespace ApiCompat

open Relation (ReflTransGen TransGen)

namespace Walk

/-- Some node has a link back from a node that it leads to. -/
def cyclic (links : Nat → List Nat) (nodes : List Nat) : Bool :=
  nodes.any fun node =>
    (node :: layers links (nodes.erase node) [node]).any fun last => (links last).contains node

theorem cyclic_iff {links : Nat → List Nat} {nodes : List Nat} (distinct : nodes.Nodup)
    (within : ∀ a b, b ∈ links a → b ∈ nodes) : cyclic links nodes = true ↔
      ∃ node ∈ nodes, TransGen (fun a b => b ∈ links a) node node := by
  have reached : ∀ node last, last ∈ node :: layers links (nodes.erase node) [node] ↔
      ReflTransGen (fun a b => b ∈ links a) node last := by
    intro node last
    rw [List.mem_cons, mem_layers_iff distinct within]
    constructor
    · rintro (rfl | ⟨_, path⟩)
      · exact .refl
      · exact path
    · intro path
      by_cases same : last = node
      · exact .inl same
      · exact .inr ⟨same, path⟩
  simp only [cyclic, List.any_eq_true, reached, List.contains_iff_mem, TransGen.tail'_iff]

/-- The function tells whether edges between nodes go round in a circle. -/
def DecidesCycles (search : List Nat → List (Nat × Nat) → Bool) : Prop :=
  ∀ nodes edges, nodes.Nodup → (∀ edge ∈ edges, edge.1 ∈ nodes ∧ edge.2 ∈ nodes) →
    (search nodes edges = true ↔ ∃ node, TransGen (fun a b => (a, b) ∈ edges) node node)

/-- What the edges lead to from a node. -/
def successors (edges : List (Nat × Nat)) (node : Nat) : List Nat :=
  (edges.filter fun edge => edge.1 == node).map (·.2)

theorem mem_successors_iff {edges : List (Nat × Nat)} {a b : Nat} :
    b ∈ successors edges a ↔ (a, b) ∈ edges := by
  simp [successors]

theorem decidesCycles_cyclic :
    DecidesCycles fun nodes edges => cyclic (successors edges) nodes := by
  intro nodes edges distinct inside
  have within : ∀ a b, b ∈ successors edges a → b ∈ nodes := by
    intro a b edge
    exact (inside (a, b) (mem_successors_iff.mp edge)).2
  simp only [cyclic_iff distinct within, mem_successors_iff]
  constructor
  · rintro ⟨node, _, circle⟩
    exact ⟨node, circle⟩
  · rintro ⟨node, circle⟩
    obtain ⟨last, _, edge⟩ := TransGen.tail'_iff.mp circle
    exact ⟨node, (inside (last, node) edge).2, circle⟩

end Walk

namespace Snapshot

variable {s : Snapshot} {a b id : ClassId}

/-- The links of the hierarchy, class by class and as often as they are listed. -/
def links (s : Snapshot) : List (ClassId × ClassId) :=
  s.ids.flatMap fun id => ((s.supertypeRefs id).filterMap ClassRef.id?).map fun target => (id, target)

theorem Extends.mem_ids (link : s.Extends a b) : a ∈ s.ids := by
  obtain ⟨c, hc, _⟩ := mem_supertypeRefs_iff.mp link
  exact mem_ids_of_class? hc

theorem mem_ids_of_reaches (closed : s.Closed) (path : TransGen s.Extends a b) : b ∈ s.ids := by
  obtain ⟨last, _, link⟩ := TransGen.tail'_iff.mp path
  exact closed last b link

theorem mem_links_iff : (a, b) ∈ s.links ↔ s.Extends a b := by
  simp only [links, List.mem_flatMap, List.mem_map, Prod.mk.injEq, List.mem_filterMap]
  constructor
  · rintro ⟨id, _, target, ⟨ref, href, hid⟩, rfl, rfl⟩
    rw [ClassRef.id?_eq_some_iff.mp hid] at href
    exact href
  · intro link
    exact ⟨a, link.mem_ids, b, ⟨.linked b, link, rfl⟩, rfl, rfl⟩

theorem hasCycle_iff (closed : s.Closed) :
    s.hasCycle = true ↔ ∃ id ∈ s.ids, TransGen s.Extends id id := by
  have distinct : s.ids.Nodup := List.nodup_range
  have within : ∀ a b, b ∈ s.parents a → b ∈ s.ids := by
    intro a b link
    exact closed a b (mem_parents_iff.mp link)
  change Walk.cyclic s.parents s.ids = true ↔ _
  rw [Walk.cyclic_iff distinct within, parents_eq_extends]

/-- The classes from which links lead to a class. -/
def below (s : Snapshot) (id : ClassId) : List ClassId :=
  s.ids.filter fun a => (s.ancestors a).contains id

theorem mem_below_iff (closed : s.Closed) :
    a ∈ s.below id ↔ a ∈ s.ids ∧ id ≠ a ∧ ReflTransGen s.Extends a id := by
  rw [below, List.mem_filter, List.contains_iff_mem, mem_ancestors_iff closed]

theorem length_below_lt (closed : s.Closed) (acyclic : s.hasCycle = false) (link : s.Extends a b) :
    (s.below a).length < (s.below b).length := by
  have noCircle : ∀ id, ¬TransGen s.Extends id id := by
    intro id circle
    have found := (hasCycle_iff closed).mpr ⟨id, mem_ids_of_reaches closed circle, circle⟩
    rw [acyclic] at found
    cases found
  have more : a :: s.below a ⊆ s.below b := by
    intro c hc
    rw [mem_below_iff closed]
    rcases List.mem_cons.mp hc with rfl | further
    · refine ⟨link.mem_ids, ?_, .single link⟩
      rintro rfl
      exact noCircle _ (.single link)
    · obtain ⟨inside, _, path⟩ := (mem_below_iff closed).mp further
      refine ⟨inside, ?_, path.tail link⟩
      rintro rfl
      exact noCircle _ (TransGen.tail'_iff.mpr ⟨a, path, link⟩)
  have distinct : (a :: s.below a).Nodup := by
    rw [List.nodup_cons]
    constructor
    · intro own
      exact ((mem_below_iff closed).mp own).2.1 rfl
    · exact List.nodup_range.filter _
  exact (distinct.subperm more).length_le

/-- The classes, those with fewer classes below them first. -/
def upward (s : Snapshot) : List ClassId :=
  s.ids.mergeSort fun a b => (s.below a).length ≤ (s.below b).length

theorem upward_perm (s : Snapshot) : s.upward.Perm s.ids := List.mergeSort_perm _ _

theorem pairwise_upward (s : Snapshot) :
    s.upward.Pairwise fun a b => (s.below a).length ≤ (s.below b).length := by
  have sorted : s.upward.Pairwise fun a b => decide ((s.below a).length ≤ (s.below b).length) = true := by
    apply List.pairwise_mergeSort
    · intro a b c
      simp only [decide_eq_true_eq]
      omega
    · intro a b
      simp only [Bool.or_eq_true, decide_eq_true_eq]
      omega
  exact sorted.imp of_decide_eq_true

theorem idxOf_upward_lt (closed : s.Closed) (acyclic : s.hasCycle = false) (link : s.Extends a b) :
    s.upward.idxOf a < s.upward.idxOf b := by
  have fewer := length_below_lt closed acyclic link
  have ha : s.upward.idxOf a < s.upward.length :=
    List.idxOf_lt_length_iff.mpr ((upward_perm s).mem_iff.mpr link.mem_ids)
  have hb : s.upward.idxOf b < s.upward.length :=
    List.idxOf_lt_length_iff.mpr ((upward_perm s).mem_iff.mpr (closed a b link))
  by_contra behind
  rcases Nat.eq_or_lt_of_not_lt behind with same | before
  · have equal : a = b := by
      rw [← List.getElem_idxOf ha, ← List.getElem_idxOf hb]
      simp only [same]
    subst equal
    omega
  · have ordered := List.pairwise_iff_getElem.mp (pairwise_upward s) _ _ hb ha before
    rw [List.getElem_idxOf, List.getElem_idxOf] at ordered
    omega

theorem lt_of_reaches {number : ClassId → Nat} (grows : ∀ a b, s.Extends a b → number a < number b)
    (path : TransGen s.Extends a b) : number a < number b := by
  induction path with
  | single link => exact grows _ _ link
  | tail _ link ih => exact Nat.lt_trans ih (grows _ _ link)

/-- The search finds a circle if there is one, as any search of the links does; and there is none
exactly if numbers of the classes grow along the links, for which the places in some order of the
classes can serve. -/
theorem hasCycle_exact (closed : s.Closed) :
    (s.hasCycle = true ↔ ∃ id ∈ s.ids, TransGen s.Extends id id) ∧
      (s.hasCycle = false ↔ ∃ number : ClassId → Nat, ∀ a b, s.Extends a b → number a < number b) ∧
      (s.hasCycle = false → ∃ order : List ClassId, order.Perm s.ids ∧
        ∀ a b, s.Extends a b → order.idxOf a < order.idxOf b) ∧
      ∀ search, Walk.DecidesCycles search → search s.ids s.links = s.hasCycle := by
  have ordered : s.hasCycle = false → ∃ order : List ClassId, order.Perm s.ids ∧
      ∀ a b, s.Extends a b → order.idxOf a < order.idxOf b := by
    intro acyclic
    exact ⟨s.upward, upward_perm s, fun a b link => idxOf_upward_lt closed acyclic link⟩
  refine ⟨hasCycle_iff closed, ⟨?_, ?_⟩, ordered, ?_⟩
  · intro acyclic
    obtain ⟨order, _, grows⟩ := ordered acyclic
    exact ⟨order.idxOf, grows⟩
  · rintro ⟨number, grows⟩
    rw [Bool.eq_false_iff]
    intro found
    obtain ⟨id, _, circle⟩ := (hasCycle_iff closed).mp found
    exact Nat.lt_irrefl _ (lt_of_reaches grows circle)
  · intro search decides
    have inside : ∀ edge ∈ s.links, edge.1 ∈ s.ids ∧ edge.2 ∈ s.ids := by
      rintro ⟨a, b⟩ edge
      have link := mem_links_iff.mp edge
      exact ⟨link.mem_ids, closed a b link⟩
    rw [Bool.eq_iff_iff, decides s.ids s.links List.nodup_range inside, hasCycle_iff closed]
    simp only [mem_links_iff]
    constructor
    · rintro ⟨id, circle⟩
      exact ⟨id, mem_ids_of_reaches closed circle, circle⟩
    · rintro ⟨id, _, circle⟩
      exact ⟨id, circle⟩

/-- A diamond without a way back, one side of which is listed twice. -/
def diamond : Snapshot :=
  let declared (name : String) (superclass : Option ClassId) (interfaces : List ClassId) : ClassDecl :=
    { ClassDecl.bare "p" name .plain with
      superclass := superclass.map .linked, interfaces := interfaces.map .linked }
  { packages := [⟨"p", none, [0, 1, 2, 3]⟩]
    classes := [declared "Bottom" (some 1) [2, 2], declared "Left" (some 3) [],
      declared "Right" (some 3) [], declared "Top" none []] }

/-- The knot goes round in a circle, and the classes of the diamond can be put in order. -/
theorem hasCycle_exact_knot : knot.Closed ∧ knot.hasCycle = true ∧
    (∃ id ∈ knot.ids, TransGen knot.Extends id id) ∧
    Walk.cyclic (Walk.successors knot.links) knot.ids = knot.hasCycle ∧
    diamond.Closed ∧ diamond.hasCycle = false ∧
    ∃ order : List ClassId, order.Perm diamond.ids ∧
      ∀ a b, diamond.Extends a b → order.idxOf a < order.idxOf b := by
  have tied : knot.Closed := closed_of_classes (by decide +kernel)
  have untied : diamond.Closed := closed_of_classes (by decide +kernel)
  have found : knot.hasCycle = true := by decide +kernel
  have acyclic : diamond.hasCycle = false := by decide +kernel
  obtain ⟨circle, _, _, search⟩ := hasCycle_exact tied
  obtain ⟨_, _, ordered, _⟩ := hasCycle_exact untied
  exact ⟨tied, found, circle.mp found, search _ Walk.decidesCycles_cyclic, untied, acyclic,
    ordered acyclic⟩

end Snapshot

end ApiCompat
