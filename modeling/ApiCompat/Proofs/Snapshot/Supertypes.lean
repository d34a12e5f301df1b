import ApiCompat.Proofs.Snapshot.WellFormed
import Mathlib.Logic.Relation

/-! Supertypes as reachability. A walk meets exactly the unseen nodes that its links reach, on
cyclic graphs too, so the ancestors of a class are what its linked supertypes reach, and its
supertype names are those of the ancestors and of the names that stay unlinked on the way. -/
namespace ApiCompat

open Relation (ReflTransGen TransGen)

namespace Walk

theorem trail_sound {next : Nat → Option Nat} {unseen : List Nat} {start node : Nat}
    (h : node ∈ trail next unseen start) :
    node ∈ unseen ∧ TransGen (fun a b => next a = some b) start node := by
  fun_induction trail next unseen start with
  | case1 => cases h
  | case2 unseen start target link fresh ih =>
    rcases List.mem_cons.mp h with rfl | later
    · exact ⟨fresh, .single link⟩
    · obtain ⟨hmem, path⟩ := ih later
      exact ⟨List.mem_of_mem_erase hmem, .head link path⟩
  | case3 => cases h

theorem mem_nextLayer_iff {links : Nat → List Nat} {unseen layer : List Nat} {node : Nat} :
    node ∈ nextLayer links unseen layer ↔ (∃ a ∈ layer, node ∈ links a) ∧ node ∈ unseen := by
  simp only [nextLayer, List.mem_eraseDups, List.mem_filter, List.mem_flatMap,
    List.contains_iff_mem]

theorem mem_remaining_iff {unseen reached : List Nat} {node : Nat} :
    node ∈ remaining unseen reached ↔ node ∈ unseen ∧ node ∉ reached := by
  simp [remaining]

theorem layers_sound {links : Nat → List Nat} {unseen layer : List Nat} {node : Nat}
    (h : node ∈ layers links unseen layer) :
    node ∈ unseen ∧ ∃ start ∈ layer, TransGen (fun a b => b ∈ links a) start node := by
  fun_induction layers links unseen layer with
  | case1 => cases h
  | case2 unseen layer first rest reached ih =>
    have expand : ∀ b ∈ first :: rest, ∃ a ∈ layer, b ∈ links a := by
      intro b hb
      exact (mem_nextLayer_iff.mp (reached ▸ hb)).1
    rcases List.mem_append.mp h with near | far
    · obtain ⟨a, ha, hlink⟩ := expand node near
      exact ⟨(mem_nextLayer_iff.mp (reached ▸ near)).2, a, ha, .single hlink⟩
    · obtain ⟨hmem, b, hb, path⟩ := ih far
      obtain ⟨a, ha, hlink⟩ := expand b hb
      exact ⟨(mem_remaining_iff.mp hmem).1, a, ha, .head hlink path⟩

/-- What a met node links to is met, if it was unseen at the start. -/
theorem layers_closed {links : Nat → List Nat} {unseen layer : List Nat} {a b : Nat}
    (met : a ∈ layer ∨ a ∈ layers links unseen layer) (link : b ∈ links a) (fresh : b ∈ unseen) :
    b ∈ layers links unseen layer := by
  fun_induction layers links unseen layer with
  | case1 unseen layer reached =>
    rcases met with start | impossible
    · have : b ∈ nextLayer links unseen layer := mem_nextLayer_iff.mpr ⟨⟨a, start, link⟩, fresh⟩
      rw [reached] at this
      cases this
    · cases impossible
  | case2 unseen layer first rest reached ih =>
    rw [List.mem_append]
    by_cases near : b ∈ first :: rest
    · exact .inl near
    · right
      have later : a ∈ first :: rest ∨
          a ∈ layers links (remaining unseen (first :: rest)) (first :: rest) := by
        rcases met with start | inside
        · exact absurd (reached ▸ mem_nextLayer_iff.mpr ⟨⟨a, start, link⟩, fresh⟩) near
        · exact List.mem_append.mp inside
      exact ih later (mem_remaining_iff.mpr ⟨fresh, near⟩)

/-- A walk over links within some nodes meets what they reach, the start apart. -/
theorem mem_layers_iff {links : Nat → List Nat} {nodes : List Nat} (distinct : nodes.Nodup)
    (within : ∀ a b, b ∈ links a → b ∈ nodes) {start node : Nat} :
    node ∈ layers links (nodes.erase start) [start] ↔
      node ≠ start ∧ ReflTransGen (fun a b => b ∈ links a) start node := by
  constructor
  · intro h
    obtain ⟨hmem, first, hfirst, path⟩ := layers_sound h
    rw [List.mem_singleton.mp hfirst] at path
    exact ⟨(distinct.mem_erase_iff.mp hmem).1, path.to_reflTransGen⟩
  · rintro ⟨hne, path⟩
    have met : node = start ∨ node ∈ layers links (nodes.erase start) [start] := by
      clear hne
      induction path with
      | refl => exact .inl rfl
      | @tail a b _ link ih =>
        by_cases back : b = start
        · exact .inl back
        · right
          have fresh := distinct.mem_erase_iff.mpr ⟨back, within a b link⟩
          exact layers_closed (ih.imp_left List.mem_singleton.mpr) link fresh
    exact met.resolve_left hne

end Walk

namespace Snapshot

/-- One class is linked to another as its direct supertype. -/
def Extends (s : Snapshot) (a b : ClassId) : Prop := ClassRef.linked b ∈ s.supertypeRefs a

/-- Linked supertypes are declared. -/
def Closed (s : Snapshot) : Prop := ∀ a b, s.Extends a b → b ∈ s.ids

theorem closed_of_classes {s : Snapshot}
    (declared : ∀ c ∈ s.classes, ∀ ref ∈ c.supertypes, ∀ id ∈ ref.id?, id ∈ s.ids) : s.Closed := by
  intro a b link
  obtain ⟨c, hc, mem⟩ := mem_supertypeRefs_iff.mp link
  exact declared c (mem_classes_of_class? hc) (.linked b) mem b rfl

theorem WellFormed.closed {s : Snapshot} (wf : s.WellFormed) : s.Closed :=
  fun _ _ link => wf.supertypeRef_mem_ids link

theorem mem_parents_iff {s : Snapshot} {a b : ClassId} : b ∈ s.parents a ↔ s.Extends a b := by
  rw [parents, List.mem_reverse, List.mem_filterMap, Extends]
  constructor
  · rintro ⟨ref, href, hid⟩
    rw [← ClassRef.id?_eq_some_iff.mp hid]
    exact href
  · intro h
    exact ⟨.linked b, h, rfl⟩

theorem superclassRef_mem {s : Snapshot} {id : ClassId} {ref : ClassRef}
    (h : s.superclassRef? id = some ref) : ref ∈ s.supertypeRefs id := by
  obtain ⟨c, hc, hsuper⟩ := Option.bind_eq_some_iff.mp h
  refine mem_supertypeRefs_iff.mpr ⟨c, hc, List.mem_append_left _ ?_⟩
  exact Option.mem_toList.mpr hsuper

theorem extends_of_superclass? {s : Snapshot} {a b : ClassId} (h : s.superclass? a = some b) :
    s.Extends a b := by
  obtain ⟨ref, href, hid⟩ := Option.bind_eq_some_iff.mp h
  rw [ClassRef.id?_eq_some_iff.mp hid] at href
  exact superclassRef_mem href

theorem mem_externalNames_iff {s : Snapshot} {id : ClassId} {name : String} :
    name ∈ s.externalNames id ↔ ClassRef.named name ∈ s.supertypeRefs id := by
  rw [externalNames, List.mem_filterMap]
  constructor
  · rintro ⟨ref, href, hname⟩
    cases ref with
    | named other =>
      cases hname
      exact href
    | linked id => cases hname
  · intro h
    exact ⟨.named name, h, rfl⟩

theorem parents_eq_extends (s : Snapshot) : (fun a b => b ∈ s.parents a) = s.Extends := by
  funext a b
  exact propext mem_parents_iff

theorem mem_ancestors_iff {s : Snapshot} (closed : s.Closed) {id a : ClassId} :
    a ∈ s.ancestors id ↔ a ≠ id ∧ ReflTransGen s.Extends id a := by
  have distinct : s.ids.Nodup := List.nodup_range
  have within : ∀ a b, b ∈ s.parents a → b ∈ s.ids := by
    intro a b link
    exact closed a b (mem_parents_iff.mp link)
  rw [ancestors, Walk.mem_layers_iff distinct within, parents_eq_extends]

/-- Sorting and dropping repetitions does not matter to membership. -/
theorem mem_supertypeNames_iff_unsorted {s : Snapshot} {id : ClassId} {name : String} :
    name ∈ s.supertypeNames id ↔ name ∈ (s.ancestors id).map s.nameOf ∨
      name ∈ (id :: s.ancestors id).flatMap s.externalNames := by
  simp only [supertypeNames, List.mem_eraseDups, List.mem_mergeSort, List.mem_append]

theorem mem_supertypeNames_iff {s : Snapshot} (closed : s.Closed) {id : ClassId}
    {name : String} : name ∈ s.supertypeNames id ↔
      (∃ a, a ≠ id ∧ ReflTransGen s.Extends id a ∧ s.nameOf a = name) ∨
      (∃ a, ReflTransGen s.Extends id a ∧ ClassRef.named name ∈ s.supertypeRefs a) := by
  have reached : ∀ a, a ∈ id :: s.ancestors id ↔ ReflTransGen s.Extends id a := by
    intro a
    rw [List.mem_cons, mem_ancestors_iff closed]
    constructor
    · rintro (rfl | h)
      · exact .refl
      · exact h.2
    · intro path
      by_cases same : a = id
      · exact .inl same
      · exact .inr ⟨same, path⟩
  simp only [mem_supertypeNames_iff_unsorted, List.mem_map, mem_ancestors_iff closed,
    List.mem_flatMap, reached, mem_externalNames_iff, and_assoc]

/-- The name under which a reference of a reached class is known, unless it leads back. -/
theorem nameOfRef_mem_supertypeNames {s : Snapshot} (closed : s.Closed) {id a : ClassId}
    {ref : ClassRef} (path : ReflTransGen s.Extends id a) (href : ref ∈ s.supertypeRefs a) :
    s.nameOfRef ref ∈ s.supertypeNames id ∨ ref = .linked id := by
  cases ref with
  | named name => exact .inl ((mem_supertypeNames_iff closed).mpr (.inr ⟨a, path, href⟩))
  | linked b =>
    by_cases back : b = id
    · exact .inr (congrArg ClassRef.linked back)
    · exact .inl ((mem_supertypeNames_iff closed).mpr (.inl ⟨b, back, path.tail href, rfl⟩))

theorem mem_supertypeNames_of_superclassChain {s : Snapshot} (closed : s.Closed) {id : ClassId}
    {name : String} (h : name ∈ s.superclassChain id) :
    name ∈ s.supertypeNames id ∨ name = s.nameOf id := by
  obtain ⟨a, ha, hname⟩ := List.mem_filterMap.mp h
  obtain ⟨ref, href, rfl⟩ := Option.map_eq_some_iff.mp hname
  have path : ReflTransGen s.Extends id a := by
    rcases List.mem_cons.mp ha with rfl | later
    · exact .refl
    · have steps := (Walk.trail_sound later).2.to_reflTransGen
      exact ReflTransGen.mono (fun _ _ => extends_of_superclass?) _ _ steps
  rcases nameOfRef_mem_supertypeNames closed path (superclassRef_mem href) with inside | rfl
  · exact .inl inside
  · exact .inr rfl

/-- No supertype is left by name although its class is declared. -/
def LinksResolved (s : Snapshot) : Prop :=
  ∀ id name, ClassRef.named name ∈ s.supertypeRefs id → s.find? name = none

theorem linksResolved_resolve (s : Snapshot) : s.resolve.LinksResolved := by
  intro id name h
  rw [supertypeRefs_resolve] at h
  obtain ⟨before, hmem, hlink⟩ := List.mem_map.mp h
  rw [find?_resolve]
  exact (link_eq_named hlink).2

/-- Supertypes of a supertype are supertypes, except that a cycle leads back to the class. -/
theorem mem_supertypeNames_trans {s : Snapshot} (wf : s.WellFormed) {a b : ClassId}
    {name : String} (path : ReflTransGen s.Extends a b) (h : name ∈ s.supertypeNames b) :
    name ∈ s.supertypeNames a ∨ name = s.nameOf a := by
  rcases (mem_supertypeNames_iff wf.closed).mp h with ⟨c, _, further, rfl⟩ | ⟨c, further, href⟩
  · by_cases back : c = a
    · exact .inr (congrArg s.nameOf back)
    · have above := path.trans further
      exact .inl ((mem_supertypeNames_iff wf.closed).mpr (.inl ⟨c, back, above, rfl⟩))
  · exact .inl ((mem_supertypeNames_iff wf.closed).mpr (.inr ⟨c, path.trans further, href⟩))

/-- A declared class among the supertype names is reached by links. -/
theorem reaches_of_mem_supertypeNames {s : Snapshot} (wf : s.WellFormed)
    (resolved : s.LinksResolved) {a b : ClassId} {name : String} (hb : s.find? name = some b)
    (h : name ∈ s.supertypeNames a) : ReflTransGen s.Extends a b ∧ b ≠ a := by
  rcases (mem_supertypeNames_iff wf.closed).mp h with ⟨c, hne, path, rfl⟩ | ⟨c, _, href⟩
  · have inside : c ∈ s.ids := by
      rcases ReflTransGen.cases_tail path with rfl | ⟨d, _, link⟩
      · exact absurd rfl hne
      · exact wf.supertypeRef_mem_ids link
    obtain ⟨decl, hdecl⟩ := exists_class?_of_mem_ids inside
    have found := wf.find?_qualifiedName hdecl
    rw [← nameOf_of_class? hdecl, hb] at found
    cases found
    exact ⟨path, hne⟩
  · rw [resolved c name href] at hb
    cases hb

theorem nameOf_not_mem_supertypeNames {s : Snapshot} (wf : s.WellFormed)
    (resolved : s.LinksResolved) {id : ClassId} {c : ClassDecl} (hc : s.class? id = some c) :
    s.nameOf id ∉ s.supertypeNames id := by
  intro h
  have found := wf.find?_qualifiedName hc
  rw [← nameOf_of_class? hc] at found
  exact (reaches_of_mem_supertypeNames wf resolved found h).2 rfl

end Snapshot

end ApiCompat
