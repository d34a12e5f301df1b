import ApiCompat.Proofs.Snapshot.Nesting

/-! Superclasses as reachability. The chain ends with the first repeat, but nothing is lost there: on
a circle the classes behind the repeat were met before. So a name is in the chain of a class exactly
if some superclass link leads to it, at any distance; and it is above the class in the hierarchy
exactly if some link of either sort does. -/
namespace ApiCompat.Snapshot

open Relation (ReflTransGen TransGen)

variable {s : Snapshot} {id a b : ClassId} {name : String}

/-- The name of a superclass, declared or not, at any distance. -/
def HasSuperclass (s : Snapshot) (id : ClassId) (name : String) : Prop :=
  ∃ a ref, ReflTransGen (fun a b => s.superclassRef? a = some (.linked b)) id a ∧
    s.superclassRef? a = some ref ∧ s.nameOfRef ref = name

/-- The name of a supertype, declared or not, at any distance. -/
def HasSupertype (s : Snapshot) (id : ClassId) (name : String) : Prop :=
  ∃ a ref, ReflTransGen s.Extends id a ∧ ref ∈ s.supertypeRefs a ∧ s.nameOfRef ref = name

theorem superclass?_eq_some_iff : s.superclass? a = some b ↔ s.superclassRef? a = some (.linked b) := by
  rw [superclass?, Option.bind_eq_some_iff]
  constructor
  · rintro ⟨ref, href, hid⟩
    rw [← ClassRef.id?_eq_some_iff.mp hid]
    exact href
  · intro link
    exact ⟨.linked b, link, rfl⟩

/-- The chain takes its names at the class and at each of its superclasses. -/
theorem mem_superclasses_iff (closed : s.Closed) : a ∈ id :: s.superclasses id ↔
    ReflTransGen (fun a b => s.superclassRef? a = some (.linked b)) id a := by
  have links : (fun a b => s.superclass? a = some b) =
      fun a b => s.superclassRef? a = some (.linked b) :=
    funext fun _ => funext fun _ => propext superclass?_eq_some_iff
  have within : ∀ a b, s.superclass? a = some b → b ∈ s.ids :=
    fun a b link => closed a b (extends_of_superclass? link)
  have distinct : s.ids.Nodup := List.nodup_range
  rw [List.mem_cons, superclasses, Walk.mem_trail_iff distinct within, links,
    Relation.reflTransGen_iff_eq_or_transGen]
  constructor
  · rintro (same | ⟨_, path⟩)
    · exact .inl same
    · exact .inr path
  · rintro (same | path)
    · exact .inl same
    · by_cases same : a = id
      · exact .inl same
      · exact .inr ⟨same, path⟩

theorem mem_superclassChain_iff (closed : s.Closed) :
    name ∈ s.superclassChain id ↔ s.HasSuperclass id name := by
  simp only [superclassChain, List.mem_filterMap, Option.map_eq_some_iff,
    mem_superclasses_iff closed, HasSuperclass]
  constructor
  · rintro ⟨a, path, ref, link, named⟩
    exact ⟨a, ref, path, link, named⟩
  · rintro ⟨a, ref, path, link, named⟩
    exact ⟨a, path, ref, link, named⟩

theorem isSubtypeOf_iff_hasSupertype (wf : s.WellFormed) :
    s.isSubtypeOf id name = true ↔ s.nameOf id = name ∨ s.HasSupertype id name := by
  rw [isSubtypeOf, Bool.or_eq_true, beq_iff_eq, List.contains_iff_mem]
  constructor
  · rintro (same | above)
    · exact .inl same
    · right
      rcases (mem_supertypeNames_iff wf.closed).mp above with ⟨a, apart, path, named⟩ | ⟨a, path, link⟩
      · -- The class was met by a last link, which is the reference that bears its name.
        rcases ReflTransGen.cases_tail path with rfl | ⟨c, before, link⟩
        · exact absurd rfl apart
        · exact ⟨c, .linked a, before, link, named⟩
      · exact ⟨a, .named name, path, link, rfl⟩
  · rintro (same | ⟨a, ref, path, link, rfl⟩)
    · exact .inl same
    · rcases nameOfRef_mem_supertypeNames wf.closed path link with above | rfl
      · exact .inr above
      · exact .inl rfl

end ApiCompat.Snapshot
