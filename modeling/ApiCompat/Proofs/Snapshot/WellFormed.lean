import ApiCompat.Snapshot.Linking
import Mathlib.Data.List.Nodup

/-! Well-formed snapshots. Names identify packages and classes, every class is listed once, in
one package, every linked supertype is a declared class, and what a declaration lists as its
type parameters are variables. Each operation that builds or resolves a snapshot preserves
this, so finding a class by its own name gives the class. -/
namespace ApiCompat

/-- The type parameters that a class and its methods and constructors declare. -/
def ClassDecl.declaredParameters (c : ClassDecl) : List Signature :=
  c.typeParameters ++ c.callables.flatMap (·.typeParameters)

theorem ClassDecl.declaredParameters_link (find : String → Option ClassId) (c : ClassDecl) :
    (c.link find).declaredParameters = c.declaredParameters := by
  simp [declaredParameters, callables, link, Method.link, Callable.link, Function.comp_def,
    List.flatMap_map]

theorem ClassRef.id?_eq_some_iff {ref : ClassRef} {id : ClassId} :
    ref.id? = some id ↔ ref = .linked id := by
  cases ref <;> simp [id?]

theorem ClassDecl.supertypes_link (find : String → Option ClassId) (c : ClassDecl) :
    (c.link find).supertypes = c.supertypes.map (ClassRef.link find) := by
  simp only [supertypes, link, List.map_append]
  cases c.superclass <;> rfl

theorem findIdx?_beq_eq_some_iff {names : List String} (distinct : names.Nodup) {name : String}
    {i : Nat} : names.findIdx? (· == name) = some i ↔ names[i]? = some name := by
  rw [List.findIdx?_eq_some_iff_getElem, List.getElem?_eq_some_iff]
  constructor
  · rintro ⟨hi, same, _⟩
    exact ⟨hi, by simpa using same⟩
  · rintro ⟨hi, rfl⟩
    refine ⟨hi, beq_self_eq_true _, ?_⟩
    -- An earlier place of the same name would make the names repeat.
    intro j hj same
    have repeated : j = i := distinct.getElem_inj_iff.mp (by simpa using same)
    exact absurd repeated (Nat.ne_of_lt hj)

namespace Snapshot

structure WellFormed (s : Snapshot) : Prop where
  packageNames : (s.packages.map (·.name)).Nodup
  classNames : (s.classes.map (·.qualifiedName)).Nodup
  listing : (s.packages.flatMap (·.classes)).Perm s.ids
  supertypes : ∀ c ∈ s.classes, ∀ id, ClassRef.linked id ∈ c.supertypes → id ∈ s.ids
  parameters : ∀ c ∈ s.classes, ∀ p ∈ c.declaredParameters, p.kind = .typeVariable

theorem mem_ids {s : Snapshot} {id : ClassId} : id ∈ s.ids ↔ id < s.classes.length :=
  List.mem_range

theorem mem_ids_of_class? {s : Snapshot} {id : ClassId} {c : ClassDecl}
    (h : s.class? id = some c) : id ∈ s.ids :=
  mem_ids.mpr (List.getElem?_eq_some_iff.mp h).1

theorem exists_class?_of_mem_ids {s : Snapshot} {id : ClassId} (h : id ∈ s.ids) :
    ∃ c, s.class? id = some c :=
  ⟨_, List.getElem?_eq_getElem (mem_ids.mp h)⟩

theorem mem_classes_of_class? {s : Snapshot} {id : ClassId} {c : ClassDecl}
    (h : s.class? id = some c) : c ∈ s.classes :=
  List.mem_of_getElem? h

theorem nameOf_of_class? {s : Snapshot} {id : ClassId} {c : ClassDecl}
    (h : s.class? id = some c) : s.nameOf id = c.qualifiedName := by
  simp only [nameOf, h]

theorem class?_of_find? {s : Snapshot} {name : String} {id : ClassId}
    (h : s.find? name = some id) : ∃ c, s.class? id = some c ∧ c.qualifiedName = name := by
  obtain ⟨hid, hname, _⟩ := List.findIdx?_eq_some_iff_getElem.mp h
  exact ⟨s.classes[id], List.getElem?_eq_getElem hid, by simpa using hname⟩

theorem nameOf_of_find? {s : Snapshot} {name : String} {id : ClassId}
    (h : s.find? name = some id) : s.nameOf id = name := by
  obtain ⟨c, hc, hname⟩ := class?_of_find? h
  rw [nameOf_of_class? hc, hname]

theorem find?_eq_none_iff {s : Snapshot} {name : String} :
    s.find? name = none ↔ ∀ c ∈ s.classes, c.qualifiedName ≠ name := by
  simp only [find?, List.findIdx?_eq_none_iff, beq_eq_false_iff_ne]

theorem find?_ne_none {s : Snapshot} {id : ClassId} {c : ClassDecl} (h : s.class? id = some c) :
    s.find? c.qualifiedName ≠ none :=
  fun absent => find?_eq_none_iff.mp absent c (mem_classes_of_class? h) rfl

theorem find?_eq_findIdx? (s : Snapshot) (name : String) :
    s.find? name = (s.classes.map (·.qualifiedName)).findIdx? (· == name) := by
  rw [List.findIdx?_map]
  rfl

theorem find?_congr {s t : Snapshot}
    (names : s.classes.map (·.qualifiedName) = t.classes.map (·.qualifiedName)) (name : String) :
    s.find? name = t.find? name := by
  rw [find?_eq_findIdx?, find?_eq_findIdx?, names]

theorem package?_isSome_iff {s : Snapshot} {name : String} :
    (s.package? name).isSome = true ↔ name ∈ s.packages.map (·.name) := by
  simp [package?]

theorem mem_supertypeRefs_iff {s : Snapshot} {id : ClassId} {ref : ClassRef} :
    ref ∈ s.supertypeRefs id ↔ ∃ c, s.class? id = some c ∧ ref ∈ c.supertypes := by
  unfold supertypeRefs
  cases h : s.class? id <;> simp

theorem nodup_names_append {α : Type} {name : α → String} {list : List α} {a : α}
    (distinct : (list.map name).Nodup) (fresh : ∀ b ∈ list, name b ≠ name a) :
    ((list ++ [a]).map name).Nodup := by
  have absent : name a ∉ list.map name := by
    intro present
    obtain ⟨b, hb, same⟩ := List.mem_map.mp present
    exact fresh b hb same
  rw [List.map_append, List.map_singleton, ← List.concat_eq_append]
  exact distinct.concat absent

namespace WellFormed

theorem find?_qualifiedName {s : Snapshot} (wf : s.WellFormed) {id : ClassId} {c : ClassDecl}
    (h : s.class? id = some c) : s.find? c.qualifiedName = some id := by
  rw [find?_eq_findIdx?, findIdx?_beq_eq_some_iff wf.classNames, List.getElem?_map]
  exact congrArg (Option.map _) h

theorem exists_package {s : Snapshot} (wf : s.WellFormed) {id : ClassId} (h : id ∈ s.ids) :
    ∃ p ∈ s.packages, id ∈ p.classes :=
  List.mem_flatMap.mp (wf.listing.mem_iff.mpr h)

theorem supertypeRef_mem_ids {s : Snapshot} (wf : s.WellFormed) {id target : ClassId}
    (h : ClassRef.linked target ∈ s.supertypeRefs id) : target ∈ s.ids := by
  obtain ⟨c, hc, hmem⟩ := mem_supertypeRefs_iff.mp h
  exact wf.supertypes c (mem_classes_of_class? hc) target hmem

theorem empty : WellFormed .empty where
  packageNames := List.nodup_nil
  classNames := List.nodup_nil
  listing := List.Perm.nil
  supertypes := by intro c hc; cases hc
  parameters := by intro c hc; cases hc

theorem addPackage {s : Snapshot} (wf : s.WellFormed) (name : String)
    (position : Option Position) : (s.addPackage name position).WellFormed := by
  unfold Snapshot.addPackage
  split
  · exact wf
  · rename_i absent
    have fresh : ∀ p ∈ s.packages, p.name ≠ name := by
      simpa [package?] using absent
    refine ⟨?_, wf.classNames, ?_, wf.supertypes, wf.parameters⟩
    · exact nodup_names_append wf.packageNames fresh
    · have unlisted : (s.packages ++ [Package.mk name position []]).flatMap Package.classes =
          s.packages.flatMap Package.classes := by simp
      exact unlisted ▸ wf.listing

end WellFormed

/-- What is read off the entries of a list is kept when one of them is changed in other parts. -/
theorem map_modify {α β : Type} {f : α → β} {change : α → α} (kept : ∀ a, f (change a) = f a)
    (list : List α) (place : Nat) : (list.modify place change).map f = list.map f := by
  refine List.ext_getElem? fun i => ?_
  simp only [List.getElem?_map, List.getElem?_modify, Option.map_eq_map, Option.map_map]
  refine Option.map_congr fun a _ => ?_
  by_cases here : place = i <;> simp [here, kept]

theorem map_update {α : Type} (s : Snapshot) (id : ClassId) {change : ClassDecl → ClassDecl}
    {f : ClassDecl → α} (kept : ∀ c, f (change c) = f c) :
    (s.update id change).classes.map f = s.classes.map f :=
  map_modify kept s.classes id

/-- A class enters the list of the one package that bears its package's name. -/
theorem listing_enter (packages : List Package) (name : String) (id : ClassId)
    (names : (packages.map (·.name)).Nodup) (present : ∃ p ∈ packages, p.name = name) :
    ((packages.map fun p => if p.name = name then { p with classes := p.classes ++ [id] }
      else p).flatMap (·.classes)).Perm (packages.flatMap (·.classes) ++ [id]) := by
  induction packages with
  | nil => obtain ⟨p, hp, _⟩ := present; cases hp
  | cons p rest ih =>
    rw [List.map_cons, List.nodup_cons] at names
    rw [List.map_cons, List.flatMap_cons, List.flatMap_cons]
    by_cases here : p.name = name
    · have others : (rest.map fun q => if q.name = name then
          { q with classes := q.classes ++ [id] } else q) = rest := by
        refine (List.map_congr_left fun q hq => if_neg ?_).trans (List.map_id rest)
        intro same
        exact names.1 (List.mem_map.mpr ⟨q, hq, same.trans here.symm⟩)
      rw [others, if_pos here, List.append_assoc, List.append_assoc]
      exact List.Perm.append_left _ List.perm_append_comm
    · obtain ⟨q, hq, hname⟩ := present
      have inside : q ∈ rest := by
        rcases List.mem_cons.mp hq with rfl | hrest
        · exact absurd hname here
        · exact hrest
      rw [if_neg here, List.append_assoc]
      exact List.Perm.append_left _ (ih names.2 ⟨q, inside, hname⟩)

theorem classes_addPackage (s : Snapshot) (name : String) (position : Option Position) :
    (s.addPackage name position).classes = s.classes := by
  unfold addPackage
  split <;> rfl

theorem classes_addClass? {s t : Snapshot} {c : ClassDecl} {id : ClassId}
    (added : s.addClass? c = some (id, t)) :
    id = s.classes.length ∧ t.classes = s.classes ++ [c] := by
  unfold addClass? at added
  split at added
  · cases added
  · cases added
    exact ⟨rfl, rfl⟩

/-- What is read off packages, apart from their classes, is kept when a class comes. -/
theorem map_packages_addClass? {α : Type} {s t : Snapshot} {c : ClassDecl} {id : ClassId}
    {f : Package → α} (kept : ∀ (p : Package) classes, f { p with classes := classes } = f p)
    (added : s.addClass? c = some (id, t)) : t.packages.map f = s.packages.map f := by
  unfold addClass? at added
  split at added
  · cases added
  · cases added
    rw [List.map_map]
    refine List.map_congr_left fun p _ => ?_
    rw [Function.comp_apply]
    split
    · exact kept p _
    · rfl

theorem packageNames_addClass? {s t : Snapshot} {c : ClassDecl} {id : ClassId}
    (added : s.addClass? c = some (id, t)) :
    t.packages.map (·.name) = s.packages.map (·.name) :=
  map_packages_addClass? (fun _ _ => rfl) added

namespace WellFormed

theorem addClass? {s t : Snapshot} (wf : s.WellFormed) {c : ClassDecl} {id : ClassId}
    (added : s.addClass? c = some (id, t)) (inside : ∃ p ∈ s.packages, p.name = c.package)
    (named : ∀ ref ∈ c.supertypes, ref.id? = none)
    (parameters : ∀ p ∈ c.declaredParameters, p.kind = .typeVariable) : t.WellFormed := by
  have packageNames := packageNames_addClass? added
  unfold Snapshot.addClass? at added
  split at added
  · cases added
  · rename_i absent
    cases added
    have fresh : ∀ d ∈ s.classes, d.qualifiedName ≠ c.qualifiedName :=
      find?_eq_none_iff.mp (by simpa using absent)
    constructor
    · exact packageNames ▸ wf.packageNames
    · exact nodup_names_append wf.classNames fresh
    · have counted : List.range (s.classes ++ [c]).length = s.ids ++ [s.classes.length] := by
        rw [List.length_append, List.length_singleton, List.range_succ]
        rfl
      rw [ids, counted]
      exact (listing_enter _ _ _ wf.packageNames inside).trans (wf.listing.append_right _)
    · intro d hd target htarget
      rw [mem_ids, List.length_append, List.length_singleton]
      rcases List.mem_append.mp hd with old | new
      · exact Nat.lt_succ_of_lt (mem_ids.mp (wf.supertypes d old target htarget))
      · rw [List.mem_singleton.mp new] at htarget
        cases named _ htarget
    · intro d hd
      rcases List.mem_append.mp hd with old | new
      · exact wf.parameters d old
      · exact List.mem_singleton.mp new ▸ parameters

theorem update {s : Snapshot} (wf : s.WellFormed) (id : ClassId)
    {change : ClassDecl → ClassDecl} (name : ∀ c, (change c).qualifiedName = c.qualifiedName)
    (links : ∀ c, ∀ target, .linked target ∈ (change c).supertypes → .linked target ∈ c.supertypes)
    (parameters : ∀ c, ∀ p ∈ (change c).declaredParameters,
      p ∈ c.declaredParameters ∨ p.kind = .typeVariable) :
    (s.update id change).WellFormed := by
  have names := map_update s id name
  have sameIds : (s.update id change).ids = s.ids := by
    simp only [ids, Snapshot.update, List.length_modify]
  have origin : ∀ c ∈ (s.update id change).classes, ∃ d ∈ s.classes, c = d ∨ c = change d := by
    intro c hc
    obtain ⟨i, hi⟩ := List.mem_iff_getElem?.mp hc
    rw [Snapshot.update, List.getElem?_modify] at hi
    obtain ⟨d, hd, rfl⟩ := Option.map_eq_some_iff.mp hi
    refine ⟨d, List.mem_of_getElem? hd, ?_⟩
    by_cases h : id = i
    · exact .inr (if_pos h)
    · exact .inl (if_neg h)
  refine ⟨wf.packageNames, names ▸ wf.classNames, sameIds ▸ wf.listing, ?_, ?_⟩
  · intro c hc target htarget
    rw [sameIds]
    obtain ⟨d, hd, rfl | rfl⟩ := origin c hc
    · exact wf.supertypes c hd target htarget
    · exact wf.supertypes d hd target (links d target htarget)
  · intro c hc p hp
    obtain ⟨d, hd, rfl | rfl⟩ := origin c hc
    · exact wf.parameters c hd p hp
    · rcases parameters d p hp with old | new
      · exact wf.parameters d hd p old
      · exact new

end WellFormed

theorem link_eq_linked {s : Snapshot} {ref : ClassRef} {id : ClassId}
    (h : ref.link s.find? = .linked id) : ref = .linked id ∨ id ∈ s.ids := by
  cases ref with
  | linked target => exact .inl h
  | named name =>
    simp only [ClassRef.link] at h
    split at h
    · rename_i target found
      cases h
      obtain ⟨c, hc, _⟩ := class?_of_find? found
      exact .inr (mem_ids_of_class? hc)
    · cases h

theorem link_eq_named {find : String → Option ClassId} {ref : ClassRef} {name : String}
    (h : ref.link find = .named name) : ref = .named name ∧ find name = none := by
  cases ref with
  | linked target => cases h
  | named other =>
    simp only [ClassRef.link] at h
    split at h
    · cases h
    · rename_i absent
      cases h
      exact ⟨rfl, absent⟩

theorem class?_linkNames (s : Snapshot) (id : ClassId) :
    s.linkNames.class? id = (s.class? id).map (ClassDecl.link s.find?) :=
  List.getElem?_map

theorem class?_deriveKinds (s : Snapshot) (id : ClassId) :
    s.deriveKinds.class? id = (s.class? id).map fun c =>
      { c with kind := (s.derivedKind? id c.kind).getD c.kind } :=
  List.getElem?_mapIdx

/-- What resolving makes of a class: its links are made, and its kind is perhaps another one. -/
def resolveClass (s : Snapshot) (id : ClassId) (c : ClassDecl) : ClassDecl :=
  { c.link s.find? with kind := (s.linkNames.derivedKind? id c.kind).getD c.kind }

theorem class?_resolve (s : Snapshot) (id : ClassId) :
    s.resolve.class? id = (s.class? id).map (s.resolveClass id) := by
  rw [resolve, class?_deriveKinds, class?_linkNames, Option.map_map]
  rfl

theorem ids_linkNames (s : Snapshot) : s.linkNames.ids = s.ids := by
  rw [linkNames, ids, List.length_map, ids]

theorem ids_deriveKinds (s : Snapshot) : s.deriveKinds.ids = s.ids := by
  rw [deriveKinds, ids, List.length_mapIdx, ids]

theorem ids_resolve (s : Snapshot) : s.resolve.ids = s.ids :=
  (ids_deriveKinds s.linkNames).trans (ids_linkNames s)

theorem supertypeRefs_resolve (s : Snapshot) (id : ClassId) :
    s.resolve.supertypeRefs id = (s.supertypeRefs id).map (ClassRef.link s.find?) := by
  unfold supertypeRefs
  rw [class?_resolve]
  cases s.class? id with
  | none => rfl
  | some c => exact ClassDecl.supertypes_link s.find? c

/-- What is read off classes changed in place, where it can be told from the class before. -/
theorem map_of_class? {α : Type} {s t : Snapshot} {change : ClassId → ClassDecl → ClassDecl}
    (classes : ∀ id, t.class? id = (s.class? id).map (change id)) {f g : ClassDecl → α}
    (same : ∀ id c, f (change id c) = g c) : t.classes.map f = s.classes.map g := by
  refine List.ext_getElem? fun i => ?_
  rw [List.getElem?_map, List.getElem?_map]
  change (t.class? i).map _ = (s.class? i).map _
  rw [classes, Option.map_map]
  exact Option.map_congr fun c _ => same i c

theorem names_of_class? {s t : Snapshot} {change : ClassId → ClassDecl → ClassDecl}
    (classes : ∀ id, t.class? id = (s.class? id).map (change id))
    (name : ∀ id c, (change id c).qualifiedName = c.qualifiedName) :
    t.classes.map (·.qualifiedName) = s.classes.map (·.qualifiedName) :=
  map_of_class? classes name

theorem find?_linkNames (s : Snapshot) (name : String) : s.linkNames.find? name = s.find? name :=
  find?_congr (names_of_class? (class?_linkNames s) fun _ _ => rfl) name

theorem find?_deriveKinds (s : Snapshot) (name : String) :
    s.deriveKinds.find? name = s.find? name :=
  find?_congr (names_of_class? (class?_deriveKinds s) fun _ _ => rfl) name

theorem find?_resolve (s : Snapshot) (name : String) : s.resolve.find? name = s.find? name :=
  (find?_deriveKinds s.linkNames name).trans (find?_linkNames s name)

/-- Changing classes in place keeps well-formedness if it keeps names and type parameters and
links to declared classes only. -/
theorem WellFormed.of_class? {s t : Snapshot} (wf : s.WellFormed) (packages : t.packages = s.packages)
    {change : ClassId → ClassDecl → ClassDecl}
    (classes : ∀ id, t.class? id = (s.class? id).map (change id))
    (name : ∀ id c, (change id c).qualifiedName = c.qualifiedName)
    (links : ∀ id, ∀ c ∈ s.classes, ∀ target, .linked target ∈ (change id c).supertypes →
      target ∈ s.ids)
    (parameters : ∀ id c, (change id c).declaredParameters = c.declaredParameters) :
    t.WellFormed := by
  have names := names_of_class? classes name
  have sameIds : t.ids = s.ids := by
    have length := congrArg List.length names
    rw [List.length_map, List.length_map] at length
    rw [ids, length, ids]
  have origin : ∀ d ∈ t.classes, ∃ id, ∃ c ∈ s.classes, change id c = d := by
    intro d hd
    obtain ⟨i, hi⟩ := List.mem_iff_getElem?.mp hd
    change t.class? i = some d at hi
    rw [classes] at hi
    obtain ⟨c, hc, changed⟩ := Option.map_eq_some_iff.mp hi
    exact ⟨i, c, mem_classes_of_class? hc, changed⟩
  refine ⟨packages ▸ wf.packageNames, names ▸ wf.classNames, ?_, ?_, ?_⟩
  · rw [packages, sameIds]
    exact wf.listing
  · intro d hd target htarget
    obtain ⟨id, c, hc, rfl⟩ := origin d hd
    rw [sameIds]
    exact links id c hc target htarget
  · intro d hd p hp
    obtain ⟨id, c, hc, rfl⟩ := origin d hd
    rw [parameters] at hp
    exact wf.parameters c hc p hp

theorem WellFormed.linkNames {s : Snapshot} (wf : s.WellFormed) : s.linkNames.WellFormed := by
  refine wf.of_class? rfl (class?_linkNames s) (fun _ _ => rfl) ?_
    fun _ c => ClassDecl.declaredParameters_link s.find? c
  intro _ c hc target htarget
  rw [ClassDecl.supertypes_link] at htarget
  obtain ⟨before, hmem, hlink⟩ := List.mem_map.mp htarget
  rcases link_eq_linked hlink with rfl | declared
  · exact wf.supertypes c hc target hmem
  · exact declared

theorem WellFormed.deriveKinds {s : Snapshot} (wf : s.WellFormed) : s.deriveKinds.WellFormed :=
  wf.of_class? rfl (class?_deriveKinds s) (fun _ _ => rfl) (fun _ => wf.supertypes) fun _ _ => rfl

theorem WellFormed.resolve {s : Snapshot} (wf : s.WellFormed) : s.resolve.WellFormed :=
  wf.linkNames.deriveKinds

end Snapshot

end ApiCompat
