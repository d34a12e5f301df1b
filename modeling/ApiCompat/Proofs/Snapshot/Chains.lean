import ApiCompat.Proofs.Snapshot.Superclasses
import Mathlib.Data.List.Perm.Subperm

/-! The superclass chain, link by link. The superclass links of a class form a sequence that ends at
an external name or at a class without superclass, or that goes round for ever. The chain names what
the first of these links lead to. It is cut behind the first repeat, and what the sequence names
behind the cut was named before. -/
namespace ApiCompat

theorem Walk.nodup_trail {next : Nat → Option Nat} {unseen : List Nat} {start : Nat}
    (distinct : unseen.Nodup) (met : start ∉ unseen) : (start :: trail next unseen start).Nodup := by
  fun_induction trail next unseen start with
  | case1 => exact List.nodup_singleton _
  | case2 unseen start target step fresh ih =>
    rw [List.nodup_cons]
    constructor
    · intro again
      rcases List.mem_cons.mp again with rfl | further
      · exact met fresh
      · exact met (List.mem_of_mem_erase (trail_sound further).1)
    · exact ih (distinct.erase target) distinct.not_mem_erase
  | case3 => exact List.nodup_singleton _

namespace Snapshot

open Relation (ReflTransGen)

/-- The superclass reference that comes after a number of superclass links. -/
def superclassLink? (s : Snapshot) : ClassId → Nat → Option ClassRef
  | id, 0 => s.superclassRef? id
  | id, k + 1 => (s.superclass? id).bind fun a => s.superclassLink? a k

section Links

variable {s : Snapshot} {id a : ClassId} {k : Nat} {ref : ClassRef} {unseen : List ClassId}

theorem superclassLink?_succ (link : s.superclass? id = some a) :
    s.superclassLink? id (k + 1) = s.superclassLink? a k := by
  simp only [superclassLink?, link, Option.bind_some]

theorem exists_superclassLink?_iff : (∃ k, s.superclassLink? id k = some ref) ↔
    ∃ a, ReflTransGen (fun a b => s.superclassRef? a = some (.linked b)) id a ∧
      s.superclassRef? a = some ref := by
  constructor
  · rintro ⟨k, met⟩
    induction k generalizing id with
    | zero => exact ⟨id, .refl, met⟩
    | succ k ih =>
      obtain ⟨a, link, further⟩ := Option.bind_eq_some_iff.mp met
      obtain ⟨b, path, last⟩ := ih further
      exact ⟨b, .head (superclass?_eq_some_iff.mp link) path, last⟩
  · rintro ⟨b, path, last⟩
    induction path using ReflTransGen.head_induction_on with
    | refl => exact ⟨0, last⟩
    | head link _ ih =>
      obtain ⟨k, met⟩ := ih
      exact ⟨k + 1, (superclassLink?_succ (superclass?_eq_some_iff.mpr link)).trans met⟩

theorem superclassLink?_of_trail (met : (Walk.trail s.superclass? unseen id)[k]? = some a) :
    s.superclassLink? id k = some (.linked a) := by
  fun_induction Walk.trail s.superclass? unseen id generalizing k with
  | case1 => cases met
  | case2 unseen id target step fresh ih =>
    cases k with
    | zero =>
      cases met
      exact superclass?_eq_some_iff.mp step
    | succ k => exact (superclassLink?_succ step).trans (ih met)
  | case3 => cases met

/-- The names on a trail are those of the classes that it meets, and that of the next link. -/
theorem names_trail : ((id :: Walk.trail s.superclass? unseen id).filterMap fun c =>
      (s.superclassRef? c).map s.nameOfRef) =
    (Walk.trail s.superclass? unseen id).map s.nameOf ++
      ((s.superclassLink? id (Walk.trail s.superclass? unseen id).length).map s.nameOfRef).toList := by
  fun_induction Walk.trail s.superclass? unseen id with
  | case1 unseen id stop =>
    cases last : s.superclassRef? id <;> simp [superclassLink?, last]
  | case2 unseen id target step fresh ih =>
    have named : (s.superclassRef? id).map s.nameOfRef = some (s.nameOf target) :=
      congrArg (Option.map s.nameOfRef) (superclass?_eq_some_iff.mp step)
    rw [List.filterMap_cons, named, List.length_cons, superclassLink?_succ step, ih]
    rfl
  | case3 unseen id target step met =>
    have link := superclass?_eq_some_iff.mp step
    simp [superclassLink?, link]

theorem superclassChain_eq (s : Snapshot) (id : ClassId) : s.superclassChain id =
    (s.superclasses id).map s.nameOf ++
      ((s.superclassLink? id (s.superclasses id).length).map s.nameOfRef).toList :=
  names_trail

theorem exists_superclassLink?_of_chain {name : String}
    (met : (s.superclassChain id)[k]? = some name) :
    ∃ ref, s.superclassLink? id k = some ref ∧ s.nameOfRef ref = name := by
  rw [superclassChain_eq, List.getElem?_append] at met
  split at met
  · rw [List.getElem?_map] at met
    obtain ⟨a, there, rfl⟩ := Option.map_eq_some_iff.mp met
    exact ⟨.linked a, superclassLink?_of_trail there, rfl⟩
  · rename_i far
    rw [List.length_map] at met far
    obtain ⟨inside, _⟩ := List.getElem?_eq_some_iff.mp met
    have last : k = (s.superclasses id).length := by
      have single : ∀ name? : Option String, name?.toList.length ≤ 1 := fun _ => Option.length_toList_le
      have bound := single ((s.superclassLink? id (s.superclasses id).length).map s.nameOfRef)
      omega
    subst last
    cases link : s.superclassLink? id (s.superclasses id).length with
    | none => simp [link] at met
    | some ref => exact ⟨ref, rfl, by simpa [link] using met⟩

theorem mem_superclassChain_iff_link (closed : s.Closed) {name : String} :
    name ∈ s.superclassChain id ↔
      ∃ k ref, s.superclassLink? id k = some ref ∧ s.nameOfRef ref = name := by
  rw [mem_superclassChain_iff closed]
  constructor
  · rintro ⟨a, ref, path, last, named⟩
    obtain ⟨k, met⟩ := exists_superclassLink?_iff.mpr ⟨a, path, last⟩
    exact ⟨k, ref, met, named⟩
  · rintro ⟨k, ref, met, named⟩
    obtain ⟨a, path, last⟩ := exists_superclassLink?_iff.mp ⟨k, met⟩
    exact ⟨a, ref, path, last, named⟩

end Links

section Repeats

variable {s : Snapshot} {id a b : ClassId} {k : Nat}

theorem nodup_superclasses (s : Snapshot) (id : ClassId) : (id :: s.superclasses id).Nodup := by
  have distinct : s.ids.Nodup := List.nodup_range
  exact Walk.nodup_trail (distinct.erase id) distinct.not_mem_erase

theorem superclasses_subset_ids (declared : id ∈ s.ids) : id :: s.superclasses id ⊆ s.ids := by
  intro a ha
  rcases List.mem_cons.mp ha with rfl | above
  · exact declared
  · exact List.mem_of_mem_erase (Walk.trail_sound above).1

theorem length_superclassChain_le (declared : id ∈ s.ids) :
    (s.superclassChain id).length ≤ s.classes.length := by
  have within := (nodup_superclasses s id).subperm (superclasses_subset_ids declared)
  calc (s.superclassChain id).length
      ≤ (id :: s.superclasses id).length := List.length_filterMap_le _ _
    _ ≤ s.ids.length := within.length_le
    _ = s.classes.length := List.length_range

/-- A name that is not the last one is that of a class which is met there for the first time. -/
theorem linked_of_not_last (more : k + 1 < (s.superclassChain id).length) :
    ∃ a, a ≠ id ∧ s.superclassLink? id k = some (.linked a) ∧
      ∀ j < k, s.superclassLink? id j ≠ some (.linked a) := by
  have count := List.length_filterMap_le (fun c => (s.superclassRef? c).map s.nameOfRef)
    (id :: s.superclasses id)
  have inside : k < (s.superclasses id).length := by
    rw [List.length_cons] at count
    unfold superclassChain at more
    omega
  obtain ⟨own, distinct⟩ := List.nodup_cons.mp (nodup_superclasses s id)
  refine ⟨(s.superclasses id)[k], ?_, superclassLink?_of_trail (List.getElem?_eq_getElem inside), ?_⟩
  · intro same
    have met := List.getElem_mem inside
    rw [same] at met
    exact own met
  · intro j earlier again
    have before : j < (s.superclasses id).length := by omega
    have link := superclassLink?_of_trail (List.getElem?_eq_getElem before)
    rw [link] at again
    have places := distinct.getElem_inj_iff.mp (ClassRef.linked.inj (Option.some.inj again))
    omega

theorem nameOf_inj (names : (s.classes.map (·.qualifiedName)).Nodup) (ha : a ∈ s.ids)
    (hb : b ∈ s.ids) (same : s.nameOf a = s.nameOf b) : a = b := by
  obtain ⟨c, hc⟩ := exists_class?_of_mem_ids ha
  obtain ⟨d, hd⟩ := exists_class?_of_mem_ids hb
  rw [nameOf_of_class? hc, nameOf_of_class? hd] at same
  have first : (s.classes.map (·.qualifiedName))[a]? = some c.qualifiedName := by
    rw [List.getElem?_map]
    exact congrArg (Option.map _) hc
  have second : (s.classes.map (·.qualifiedName))[b]? = some c.qualifiedName := by
    rw [List.getElem?_map, same]
    exact congrArg (Option.map _) hd
  rw [← findIdx?_beq_eq_some_iff names] at first second
  exact Option.some.inj (first.symm.trans second)

theorem nodup_names_superclasses (names : (s.classes.map (·.qualifiedName)).Nodup)
    (declared : id ∈ s.ids) : (s.nameOf id :: (s.superclassChain id).dropLast).Nodup := by
  have inside := superclasses_subset_ids declared
  have distinct : ((id :: s.superclasses id).map s.nameOf).Nodup :=
    (nodup_superclasses s id).map_on fun a ha b hb same => nameOf_inj names (inside ha) (inside hb) same
  have cut : (s.superclassChain id).dropLast.Sublist ((s.superclasses id).map s.nameOf) := by
    rw [superclassChain_eq]
    cases s.superclassLink? id (s.superclasses id).length with
    | none => simpa using List.dropLast_sublist _
    | some ref => simp
  exact distinct.sublist (cut.cons_cons _)

end Repeats

/-- The chain of a declared class is short, names link after link what the links lead to, misses
nothing that they lead to, repeats nothing but at its end, and names supertypes. -/
theorem superclassChain_exact {s : Snapshot} (closed : s.Closed) {id : ClassId}
    (declared : id ∈ s.ids) :
    (s.superclassChain id).length ≤ s.classes.length ∧
      (∀ k < (s.superclassChain id).length, ∃ ref, s.superclassLink? id k = some ref ∧
        (s.superclassChain id)[k]? = some (s.nameOfRef ref)) ∧
      (∀ name, name ∈ s.superclassChain id ↔
        ∃ k ref, s.superclassLink? id k = some ref ∧ s.nameOfRef ref = name) ∧
      (∀ k, k + 1 < (s.superclassChain id).length → ∃ a, a ≠ id ∧
        s.superclassLink? id k = some (.linked a) ∧
        ∀ j < k, s.superclassLink? id j ≠ some (.linked a)) ∧
      ((s.classes.map (·.qualifiedName)).Nodup →
        (s.nameOf id :: (s.superclassChain id).dropLast).Nodup) ∧
      ∀ name ∈ s.superclassChain id, name ≠ s.nameOf id → name ∈ s.supertypeNames id := by
  refine ⟨length_superclassChain_le declared, ?_, fun name => mem_superclassChain_iff_link closed,
    fun k => linked_of_not_last, fun names => nodup_names_superclasses names declared, ?_⟩
  · intro k inside
    have there := List.getElem?_eq_getElem inside
    obtain ⟨ref, link, named⟩ := exists_superclassLink?_of_chain there
    exact ⟨ref, link, named ▸ there⟩
  · intro name above apart
    exact (mem_supertypeNames_of_superclassChain closed above).resolve_right apart

/-- A class below two classes that extend each other. -/
def lasso : Snapshot :=
  let declared (name : String) (superclass : ClassId) : ClassDecl :=
    { ClassDecl.bare "p" name .plain with superclass := some (.linked superclass) }
  { packages := [⟨"p", none, [0, 1, 2]⟩]
    classes := [declared "Tail" 1, declared "Left" 2, declared "Right" 1] }

/-- The chain is as long as there are classes, and it ends with the first name that comes again. -/
theorem superclassChain_exact_lasso : lasso.Closed ∧ 0 ∈ lasso.ids ∧
    lasso.superclassChain 0 = ["p.Left", "p.Right", "p.Left"] ∧
    (∀ k < 3, ∃ ref, lasso.superclassLink? 0 k = some ref ∧
      ["p.Left", "p.Right", "p.Left"][k]? = some (lasso.nameOfRef ref)) ∧
    (∀ name, name ∈ ["p.Left", "p.Right", "p.Left"] ↔
      ∃ k ref, lasso.superclassLink? 0 k = some ref ∧ lasso.nameOfRef ref = name) ∧
    (lasso.classes.map (·.qualifiedName)).Nodup ∧ ["p.Tail", "p.Left", "p.Right"].Nodup ∧
    "p.Right" ∈ lasso.supertypeNames 0 := by
  have closed : lasso.Closed := closed_of_classes (by decide +kernel)
  have names : (lasso.classes.map (·.qualifiedName)).Nodup := by decide +kernel
  have own : lasso.nameOf 0 = "p.Tail" := by decide +kernel
  have declared : 0 ∈ lasso.ids := by decide
  have chain : lasso.superclassChain 0 = ["p.Left", "p.Right", "p.Left"] := by decide +kernel
  have exact := superclassChain_exact closed declared
  rw [chain, own] at exact
  obtain ⟨_, links, complete, _, distinct, above⟩ := exact
  exact ⟨closed, declared, chain, links, complete, names, distinct names,
    above "p.Right" (by decide) (by decide)⟩

end Snapshot

end ApiCompat
