import ApiCompat.Proofs.Snapshot.Nesting
import ApiCompat.Proofs.Snapshot.Resolution

/-! Snapshots that grow. A grown snapshot declares more classes, and its classes more methods and
fields, while all that was declared keeps its number. Linking then turns more names into links,
and the hierarchy above a class can only become larger: a name that was external may be declared
now, and what is above it comes in addition. The scope of a class stays as it was. -/
namespace ApiCompat

open Relation (ReflTransGen TransGen)

/-- The class with these methods and fields after its own. -/
def ClassDecl.extend (methods : List Method) (fields : List Field) (c : ClassDecl) : ClassDecl :=
  { c with methods := c.methods ++ methods, fields := c.fields ++ fields }

namespace Snapshot

section Resolve

variable {s : Snapshot}

theorem nameOf_resolve (s : Snapshot) (id : ClassId) : s.resolve.nameOf id = s.nameOf id := by
  unfold nameOf
  rw [class?_resolve]
  cases s.class? id <;> rfl

theorem nameOfRef_resolve (s : Snapshot) (ref : ClassRef) :
    s.resolve.nameOfRef (ref.link s.find?) = s.nameOfRef ref := by
  cases ref with
  | linked id => exact nameOf_resolve s id
  | named name =>
    cases found : s.find? name with
    | none => simp only [ClassRef.link, found, nameOfRef]
    | some id =>
      simp only [ClassRef.link, found, nameOfRef]
      exact (nameOf_resolve s id).trans (nameOf_of_find? found)

theorem superclassRef?_resolve (s : Snapshot) (id : ClassId) :
    s.resolve.superclassRef? id = (s.superclassRef? id).map (ClassRef.link s.find?) := by
  unfold superclassRef?
  rw [class?_resolve]
  cases s.class? id <;> rfl

theorem Closed.resolve (closed : s.Closed) : s.resolve.Closed := by
  intro a b link
  rw [Extends, supertypeRefs_resolve] at link
  obtain ⟨ref, href, hlink⟩ := List.mem_map.mp link
  rw [ids_resolve]
  rcases link_eq_linked hlink with rfl | declared
  · exact closed a b href
  · exact declared

theorem typeScope_resolve (s : Snapshot) (id : ClassId) : s.resolve.typeScope id = s.typeScope id := by
  have own : s.resolve.typeParametersOf = s.typeParametersOf := by
    funext a
    unfold typeParametersOf
    rw [class?_resolve]
    cases s.class? a <;> rfl
  rw [typeScope, enclosing, funext (outer?_resolve s), ids_resolve, own]
  rfl

theorem derivedKind?_isInterface (s : Snapshot) (id : ClassId) (kind : ClassKind) :
    ((s.derivedKind? id kind).getD kind).isInterface = kind.isInterface := by
  cases derived : s.derivedKind? id kind with
  | none => rfl
  | some other =>
    rcases derivedKind?_cases derived with ⟨rfl, rfl | rfl | rfl⟩ | ⟨rfl, rfl⟩ <;> rfl

end Resolve

/-- The second snapshot has what the first one has, and perhaps more: other classes, and these
methods and fields in the classes of the first one. -/
structure Growth (methods : ClassId → List Method) (fields : ClassId → List Field)
    (s t : Snapshot) : Prop where
  find : ∀ name id, s.find? name = some id → t.find? name = some id
  classes : ∀ id c, s.class? id = some c → t.class? id = some (c.extend (methods id) (fields id))
  closed : t.Closed

namespace Growth

variable {methods : ClassId → List Method} {fields : ClassId → List Field} {s t : Snapshot}
  {id : ClassId}

theorem mem_ids (g : Growth methods fields s t) (h : id ∈ s.ids) : id ∈ t.ids := by
  obtain ⟨c, hc⟩ := exists_class?_of_mem_ids h
  exact mem_ids_of_class? (g.classes id c hc)

theorem nameOf (g : Growth methods fields s t) (h : id ∈ s.ids) : t.nameOf id = s.nameOf id := by
  obtain ⟨c, hc⟩ := exists_class?_of_mem_ids h
  rw [nameOf_of_class? hc, nameOf_of_class? (g.classes id c hc)]
  rfl

theorem mem_supertypeRefs (g : Growth methods fields s t) {ref : ClassRef}
    (h : ref ∈ s.supertypeRefs id) : ref ∈ t.supertypeRefs id := by
  obtain ⟨c, hc, href⟩ := mem_supertypeRefs_iff.mp h
  exact mem_supertypeRefs_iff.mpr ⟨_, g.classes id c hc, href⟩

theorem superclassRef? (g : Growth methods fields s t) {ref : ClassRef}
    (h : s.superclassRef? id = some ref) : t.superclassRef? id = some ref := by
  obtain ⟨c, hc, href⟩ := Option.bind_eq_some_iff.mp h
  rw [Snapshot.superclassRef?, g.classes id c hc]
  exact href

theorem link (g : Growth methods fields s t) {ref : ClassRef}
    (h : ref.link s.find? = .linked id) : ref.link t.find? = .linked id := by
  cases ref with
  | linked other => exact h
  | named name =>
    simp only [ClassRef.link] at h
    split at h
    · rename_i other found
      cases h
      rw [ClassRef.link, g.find name id found]
    · cases h

theorem nameOfRef (g : Growth methods fields s t) (closed : s.Closed) {ref : ClassRef}
    (h : ref ∈ s.supertypeRefs id) : t.nameOfRef ref = s.nameOfRef ref := by
  cases ref with
  | named name => rfl
  | linked other => exact g.nameOf (closed id other h)

theorem extends_resolve (g : Growth methods fields s t) {a b : ClassId}
    (h : s.resolve.Extends a b) : t.resolve.Extends a b := by
  rw [Extends, supertypeRefs_resolve] at h ⊢
  obtain ⟨ref, href, hlink⟩ := List.mem_map.mp h
  exact List.mem_map.mpr ⟨ref, g.mem_supertypeRefs href, g.link hlink⟩

theorem reaches_resolve (g : Growth methods fields s t) {a b : ClassId}
    (h : ReflTransGen s.resolve.Extends a b) : ReflTransGen t.resolve.Extends a b :=
  ReflTransGen.mono (fun _ _ link => g.extends_resolve link) _ _ h

theorem ancestors_subset (g : Growth methods fields s t) (closed : s.Closed) (id : ClassId) :
    s.resolve.ancestors id ⊆ t.resolve.ancestors id := by
  intro a h
  obtain ⟨apart, path⟩ := (mem_ancestors_iff closed.resolve).mp h
  exact (mem_ancestors_iff g.closed.resolve).mpr ⟨apart, g.reaches_resolve path⟩

/-- A supertype name stays one, also when the class of that name is declared now. -/
theorem supertypeNames_subset (g : Growth methods fields s t) (closed : s.Closed)
    (declared : id ∈ s.ids) : s.resolve.supertypeNames id ⊆ t.resolve.supertypeNames id := by
  intro name h
  rcases (mem_supertypeNames_iff closed.resolve).mp h with ⟨a, apart, path, rfl⟩ | ⟨a, path, href⟩
  · have inside : a ∈ s.ids := by
      rcases ReflTransGen.cases_tail path with rfl | ⟨b, _, link⟩
      · exact absurd rfl apart
      · exact ids_resolve s ▸ closed.resolve b a link
    have name : t.resolve.nameOf a = s.resolve.nameOf a := by
      rw [nameOf_resolve, nameOf_resolve, g.nameOf inside]
    exact (mem_supertypeNames_iff g.closed.resolve).mpr
      (.inl ⟨a, apart, g.reaches_resolve path, name⟩)
  · -- An external name is still one, or else it is the name of a class that came.
    rw [supertypeRefs_resolve] at href
    obtain ⟨ref, href, unlinked⟩ := List.mem_map.mp href
    obtain ⟨rfl, undeclared⟩ := link_eq_named unlinked
    have grown : (ClassRef.named name).link t.find? ∈ t.resolve.supertypeRefs a := by
      rw [supertypeRefs_resolve]
      exact List.mem_map_of_mem (g.mem_supertypeRefs href)
    refine (mem_supertypeNames_iff g.closed.resolve).mpr ?_
    cases found : t.find? name with
    | none =>
      simp only [ClassRef.link, found] at grown
      exact .inr ⟨a, g.reaches_resolve path, grown⟩
    | some b =>
      simp only [ClassRef.link, found] at grown
      have named : t.nameOf b = name := nameOf_of_find? found
      refine .inl ⟨b, ?_, (g.reaches_resolve path).tail grown, (nameOf_resolve t b).trans named⟩
      -- The class itself was declared before, so it is not the one that its name refers to now.
      rintro rfl
      obtain ⟨c, hc⟩ := exists_class?_of_mem_ids declared
      rw [g.nameOf declared, nameOf_of_class? hc] at named
      exact find?_eq_none_iff.mp undeclared c (mem_classes_of_class? hc) named

theorem superclass?_resolve (g : Growth methods fields s t) {a b : ClassId}
    (h : s.resolve.superclass? a = some b) : t.resolve.superclass? a = some b := by
  rw [Snapshot.superclass?, superclassRef?_resolve] at h ⊢
  obtain ⟨ref, href, hid⟩ := Option.bind_eq_some_iff.mp h
  obtain ⟨before, hbefore, rfl⟩ := Option.map_eq_some_iff.mp href
  have linked : before.link s.find? = .linked b := ClassRef.id?_eq_some_iff.mp hid
  rw [g.superclassRef? hbefore, Option.map_some, Option.bind_some, g.link linked]
  rfl

theorem superclasses_subset (g : Growth methods fields s t) (closed : s.Closed) (id : ClassId) :
    s.resolve.superclasses id ⊆ t.resolve.superclasses id := by
  intro a h
  have within {u : Snapshot} (closed : u.Closed) : ∀ a b, u.superclass? a = some b → b ∈ u.ids :=
    fun a b link => closed a b (extends_of_superclass? link)
  obtain ⟨apart, path⟩ := (Walk.mem_trail_iff List.nodup_range (within closed.resolve)).mp h
  have longer := TransGen.mono (fun _ _ link => g.superclass?_resolve link) _ _ path
  exact (Walk.mem_trail_iff List.nodup_range (within g.closed.resolve)).mpr ⟨apart, longer⟩

theorem superclassChain_subset (g : Growth methods fields s t) (closed : s.Closed) (id : ClassId) :
    s.resolve.superclassChain id ⊆ t.resolve.superclassChain id := by
  intro name h
  obtain ⟨a, ha, named⟩ := List.mem_filterMap.mp h
  refine List.mem_filterMap.mpr ⟨a, ?_, ?_⟩
  · rcases List.mem_cons.mp ha with rfl | above
    · exact List.mem_cons_self
    · exact List.mem_cons_of_mem _ (g.superclasses_subset closed id above)
  · rw [superclassRef?_resolve, Option.map_map] at named ⊢
    obtain ⟨ref, href, rfl⟩ := Option.map_eq_some_iff.mp named
    rw [g.superclassRef? href, Option.map_some, Function.comp_apply, Function.comp_apply, nameOfRef_resolve, nameOfRef_resolve,
      g.nameOfRef closed (superclassRef_mem href)]

/-- The variables in force inside a class that was declared before are the same. -/
theorem typeScope (g : Growth methods fields s t) (nested : s.Nested) (declared : id ∈ s.ids) :
    t.typeScope id = s.typeScope id := by
  have own : ∀ a ∈ s.ids, t.typeParametersOf a = s.typeParametersOf a := by
    intro a ha
    obtain ⟨c, hc⟩ := exists_class?_of_mem_ids ha
    rw [typeParametersOf, typeParametersOf, hc, g.classes a c hc]
    rfl
  have outer : ∀ a ∈ s.ids, t.outer? a = s.outer? a := by
    intro a ha
    obtain ⟨c, hc⟩ := exists_class?_of_mem_ids ha
    rw [outer?, outer?, hc, g.classes a c hc]
    rfl
  exact typeScope_congr nested declared g.mem_ids outer own

end Growth

section Additions

variable {s t : Snapshot} {id : ClassId} {c : ClassDecl} {methods : List Method}
  {fields : List Field}

theorem mem_packageNames_addPackage {name other : String} {position : Option Position} :
    other ∈ (s.addPackage name position).packages.map (·.name) ↔
      other ∈ s.packages.map (·.name) ∨ other = name := by
  unfold addPackage
  split
  · rename_i present
    have mem := package?_isSome_iff.mp present
    exact ⟨.inl, fun h => h.elim (fun h => h) fun same => same ▸ mem⟩
  · rw [List.map_append, List.mem_append, List.map_singleton, List.mem_singleton]

theorem find?_append_class (appended : t.classes = s.classes ++ [c]) (name : String) :
    t.find? name =
      (s.find? name).or (if c.qualifiedName = name then some s.classes.length else none) := by
  rw [find?, appended, List.findIdx?_append, find?]
  by_cases same : c.qualifiedName = name <;> simp [same]

/-- A class whose supertypes are given by name may come in addition. -/
theorem Growth.of_append (closed : s.Closed) (appended : t.classes = s.classes ++ [c])
    (named : ∀ ref ∈ c.supertypes, ref.id? = none) :
    Growth (fun _ => []) (fun _ => []) s t where
  find := by
    intro name id found
    rw [find?_append_class appended, found]
    rfl
  classes := by
    intro id d hd
    have kept : t.class? id = some d := by
      rw [class?, appended, List.getElem?_append_left (Snapshot.mem_ids.mp (mem_ids_of_class? hd))]
      exact hd
    rw [kept, ClassDecl.extend, List.append_nil, List.append_nil]
  closed := by
    intro a b link
    obtain ⟨d, hd, href⟩ := mem_supertypeRefs_iff.mp link
    have bound : s.classes.length ≤ t.classes.length := by
      rw [appended, List.length_append]
      exact Nat.le_add_right _ _
    rw [class?, appended, List.getElem?_append] at hd
    split at hd
    · have inside := closed a b (mem_supertypeRefs_iff.mpr ⟨d, hd, href⟩)
      exact Snapshot.mem_ids.mpr (Nat.lt_of_lt_of_le (Snapshot.mem_ids.mp inside) bound)
    · cases List.mem_singleton.mp (List.mem_of_getElem? hd)
      cases named _ href

theorem class?_extend (s : Snapshot) (id other : ClassId) :
    (s.update id (ClassDecl.extend methods fields)).class? other = (s.class? other).map
      (ClassDecl.extend (if other = id then methods else []) (if other = id then fields else [])) := by
  rw [update, class?, List.getElem?_modify]
  refine Option.map_congr fun c _ => ?_
  by_cases here : other = id
  · rw [if_pos here.symm, if_pos here, if_pos here]
  · rw [if_neg (Ne.symm here), if_neg here, if_neg here, ClassDecl.extend, List.append_nil,
      List.append_nil]

theorem find?_extend (s : Snapshot) (id : ClassId) (name : String) :
    (s.update id (ClassDecl.extend methods fields)).find? name = s.find? name :=
  find?_congr (names_of_class? (class?_extend s id) fun _ _ => rfl) name

theorem Growth.of_extend (closed : s.Closed) (id : ClassId) :
    Growth (fun other => if other = id then methods else [])
      (fun other => if other = id then fields else [])
      s (s.update id (ClassDecl.extend methods fields)) where
  find := by
    intro name other found
    rw [find?_extend, found]
  classes := by
    intro other c hc
    rw [class?_extend, hc]
    rfl
  closed := by
    intro a b link
    obtain ⟨d, hd, href⟩ := mem_supertypeRefs_iff.mp link
    rw [class?_extend] at hd
    obtain ⟨c, hc, rfl⟩ := Option.map_eq_some_iff.mp hd
    have inside := closed a b (mem_supertypeRefs_iff.mpr ⟨c, hc, href⟩)
    rw [Snapshot.mem_ids, update, List.length_modify]
    exact Snapshot.mem_ids.mp inside

end Additions

end Snapshot

end ApiCompat
