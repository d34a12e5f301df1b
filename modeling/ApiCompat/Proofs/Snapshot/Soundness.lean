import ApiCompat.Proofs.Snapshot.Mentions
import ApiCompat.Proofs.Snapshot.Nesting
import ApiCompat.Snapshot.Catalog

/-! Sound snapshots. Names identify packages and classes, every class is listed once and in order, and
every class that is mentioned exists. Loading provides this; declaring packages and unlinked
classes, linking, and edits by name preserve it. -/
namespace ApiCompat

namespace Edit

theorem supertypes_apply (e : Edit) (c : ClassDecl) {id : ClassId}
    (linked : .linked id ∈ (e.apply c).supertypes) : .linked id ∈ c.supertypes := by
  have named (name : Option String) : ClassRef.linked id ∉ (name.map ClassRef.named).toList := by
    cases name <;> simp
  cases e with
  | superclass name =>
    rcases List.mem_append.mp linked with superclass | interface
    · exact absurd superclass (named name)
    · exact List.mem_append_right _ interface
  | newInterface name =>
    simpa [apply, ClassDecl.supertypes] using linked
  | interface place name =>
    rcases List.mem_append.mp linked with superclass | interface
    · exact List.mem_append_left _ superclass
    · rcases List.mem_or_eq_of_mem_set interface with old | new
      · exact List.mem_append_right _ old
      · cases new
  | _ => exact linked

theorem map_callables_apply {α : Type} {f : Callable → α}
    (blind : ∀ (k : Callable) modifiers, f { k with modifiers := modifiers } = f k)
    (e : Edit) (c : ClassDecl) : (e.apply c).callables.map f = c.callables.map f := by
  simp only [ClassDecl.callables, List.map_append, List.map_map]
  cases e with
  | methodVisibility place v =>
    congr 1
    exact Snapshot.map_modify (fun m => blind m.toCallable _) c.methods place
  | constructorVisibility place v =>
    congr 1
    exact Snapshot.map_modify (fun k => blind k _) c.constructors place
  | _ => rfl

theorem returnTypes_apply (e : Edit) (c : ClassDecl) :
    (e.apply c).methods.map (·.returnType) = c.methods.map (·.returnType) := by
  cases e with
  | methodVisibility place v =>
    refine Snapshot.map_modify (fun m => ?_) c.methods place
    rfl
  | _ => rfl

theorem fieldTypes_apply (e : Edit) (c : ClassDecl) :
    (e.apply c).fields.map (·.type) = c.fields.map (·.type) := by
  cases e with
  | fieldVisibility place v =>
    refine Snapshot.map_modify (fun f => ?_) c.fields place
    rfl
  | _ => rfl

theorem qualifiedName_apply (e : Edit) (c : ClassDecl) :
    (e.apply c).qualifiedName = c.qualifiedName := by
  cases e <;> rfl

theorem thrownRefs_apply (e : Edit) (c : ClassDecl) : (e.apply c).thrownRefs = c.thrownRefs := by
  rw [ClassDecl.thrownRefs, List.flatMap_def, map_callables_apply (fun _ _ => rfl), ← List.flatMap_def]
  rfl

theorem types_apply (e : Edit) (c : ClassDecl) : (e.apply c).types = c.types := by
  have own : (e.apply c).typeParameters = c.typeParameters := by
    cases e <;> rfl
  simp only [ClassDecl.types, ClassDecl.declaredParameters, ClassDecl.memberTypes, List.flatMap_def]
  rw [own, returnTypes_apply, fieldTypes_apply, map_callables_apply (fun _ _ => rfl),
    map_callables_apply (fun _ _ => rfl)]

theorem linksIn_apply {good : ClassId → Prop} {c : ClassDecl} (h : c.LinksIn good) (e : Edit) :
    (e.apply c).LinksIn good where
  refs := by
    intro id linked
    rw [ClassDecl.refs, thrownRefs_apply] at linked
    refine h.refs id ?_
    rcases List.mem_append.mp linked with supertype | thrown
    · exact List.mem_append_left _ (e.supertypes_apply c supertype)
    · exact List.mem_append_right _ thrown
  types := by
    rw [types_apply]
    exact h.types

end Edit

namespace Snapshot

/-- Names identify packages and classes, every class is listed once, in the order of the numbers,
and every class that is mentioned exists. -/
structure Sound (s : Snapshot) : Prop where
  packageNames : (s.packages.map (·.name)).Nodup
  classNames : (s.classes.map (·.qualifiedName)).Nodup
  listing : (s.packages.flatMap (·.classes)).Perm s.ids
  ordered : ∀ p ∈ s.packages, p.classes.Pairwise (· < ·)
  mentions : ∀ c ∈ s.classes, c.MentionsIn (· ∈ s.ids)

/-- The snapshot with a class more, listed in the package at a place. -/
def declare (s : Snapshot) (place : Nat) (c : ClassDecl) : Snapshot where
  packages := s.packages.modify place fun p => { p with classes := p.classes ++ [s.classes.length] }
  classes := s.classes ++ [c]

theorem packageNames_declare (s : Snapshot) (place : Nat) (c : ClassDecl) :
    (s.declare place c).packages.map (·.name) = s.packages.map (·.name) := by
  refine map_modify (fun p => ?_) s.packages place
  rfl

/-- Of packages with distinct names, the one at a place is known by its name. -/
theorem declare_eq_of_package {s : Snapshot} (distinct : (s.packages.map (·.name)).Nodup)
    {place : Nat} {p : Package} (there : s.packages[place]? = some p) {c : ClassDecl}
    (home : p.name = c.package) : s.declare place c =
      ⟨s.packages.map fun q => if q.name = c.package then
        { q with classes := q.classes ++ [s.classes.length] } else q, s.classes ++ [c]⟩ := by
  rw [declare]
  congr 1
  refine List.ext_getElem? fun i => ?_
  rw [List.getElem?_modify, List.getElem?_map]
  refine Option.map_congr fun q hq => ?_
  have named : (s.packages.map (·.name))[place]? = some c.package := by
    rw [List.getElem?_map, there, Option.map_some, home]
  have other : (s.packages.map (·.name))[i]? = some q.name := by
    rw [List.getElem?_map, hq, Option.map_some]
  rw [← findIdx?_beq_eq_some_iff distinct] at named other
  by_cases here : place = i
  · subst here
    cases there.symm.trans hq
    simp [home]
  · have apart : q.name ≠ c.package := by
      intro same
      rw [same] at other
      exact here (Option.some.inj (named.symm.trans other))
    simp [here, apart]

theorem listing_modify (packages : List Package) {place : Nat} (there : place < packages.length)
    (id : ClassId) : ((packages.modify place fun p => { p with classes := p.classes ++ [id] }).flatMap
      (·.classes)).Perm (packages.flatMap (·.classes) ++ [id]) := by
  induction packages generalizing place with
  | nil => cases there
  | cons p rest ih =>
    cases place with
    | zero =>
      simp only [List.modify_zero_cons, List.flatMap_cons, List.append_assoc]
      exact List.Perm.append_left _ List.perm_append_comm
    | succ place =>
      simp only [List.modify_succ_cons, List.flatMap_cons, List.append_assoc]
      exact List.Perm.append_left _ (ih (Nat.lt_of_succ_lt_succ there))

namespace Sound

variable {s t : Snapshot}

theorem empty : Sound .empty where
  packageNames := List.nodup_nil
  classNames := List.nodup_nil
  listing := List.Perm.nil
  ordered := by intro p hp; cases hp
  mentions := by intro c hc; cases hc

theorem of_load {document : List UInt8} (loaded : Snapshot.load document = .ok s) : s.Sound where
  packageNames := (WellFormed.of_load loaded).packageNames
  classNames := (WellFormed.of_load loaded).classNames
  listing := (WellFormed.of_load loaded).listing
  ordered := by
    obtain ⟨⟨forest, spelled⟩, described⟩ := described_of_load loaded
    intro p hp
    rw [(described forest spelled).listing p hp]
    exact List.pairwise_lt_range.filter _
  mentions := by
    intro c hc
    refine ⟨(unlinked_of_load loaded c hc).mono fun _ impossible => impossible.elim, ?_⟩
    intro outer around
    obtain ⟨id, hid⟩ := List.mem_iff_getElem?.mp hc
    refine Nested.of_load loaded id outer ?_
    change (s.classes[id]?).bind _ = _
    rw [hid]
    exact around

theorem addPackage (sound : s.Sound) (name : String) (position : Option Position) :
    (s.addPackage name position).Sound := by
  unfold Snapshot.addPackage
  split
  · exact sound
  · rename_i absent
    have fresh : ∀ p ∈ s.packages, p.name ≠ name := by
      simpa [package?] using absent
    refine ⟨nodup_names_append sound.packageNames fresh, sound.classNames, ?_, ?_, sound.mentions⟩
    · have unlisted : (s.packages ++ [Package.mk name position []]).flatMap Package.classes =
          s.packages.flatMap Package.classes := by simp
      exact unlisted ▸ sound.listing
    · intro p hp
      rcases List.mem_append.mp hp with old | new
      · exact sound.ordered p old
      · rw [List.mem_singleton.mp new]
        exact List.Pairwise.nil

theorem declare (sound : s.Sound) {place : Nat} (there : place < s.packages.length) {c : ClassDecl}
    (fresh : ∀ d ∈ s.classes, d.qualifiedName ≠ c.qualifiedName)
    (mentions : c.MentionsIn (· ∈ s.ids)) : (s.declare place c).Sound := by
  have counted : (s.declare place c).ids = s.ids ++ [s.classes.length] := by
    simp only [ids, Snapshot.declare, List.length_append, List.length_singleton, List.range_succ]
  constructor
  · exact packageNames_declare s place c ▸ sound.packageNames
  · exact nodup_names_append sound.classNames fresh
  · rw [counted]
    exact (listing_modify s.packages there _).trans (sound.listing.append_right _)
  · intro p hp
    obtain ⟨i, hi⟩ := List.mem_iff_getElem?.mp hp
    simp only [Snapshot.declare, List.getElem?_modify] at hi
    obtain ⟨q, hq, rfl⟩ := Option.map_eq_some_iff.mp hi
    have inside := List.mem_of_getElem? hq
    by_cases here : place = i
    · rw [if_pos here]
      refine List.pairwise_append.mpr ⟨sound.ordered q inside, List.pairwise_singleton _ _, ?_⟩
      -- The new number is above all those that are listed.
      intro a ha b hb
      rw [List.mem_singleton.mp hb]
      exact mem_ids.mp (sound.listing.mem_iff.mp (List.mem_flatMap.mpr ⟨q, inside, ha⟩))
    · rw [if_neg here]
      exact sound.ordered q inside
  · intro d hd
    have grown : ∀ id, id ∈ s.ids → id ∈ (s.declare place c).ids := by
      intro id declared
      rw [counted]
      exact List.mem_append_left _ declared
    rcases List.mem_append.mp hd with old | new
    · exact (sound.mentions d old).mono grown
    · rw [List.mem_singleton.mp new]
      exact mentions.mono grown

/-- Changing classes in place keeps a snapshot sound if names are kept and mentioned classes exist. -/
theorem of_class? (sound : s.Sound) (packages : t.packages = s.packages)
    {change : ClassId → ClassDecl → ClassDecl}
    (classes : ∀ id, t.class? id = (s.class? id).map (change id))
    (name : ∀ id c, (change id c).qualifiedName = c.qualifiedName)
    (mentions : ∀ id, ∀ c ∈ s.classes, (change id c).MentionsIn (· ∈ s.ids)) : t.Sound := by
  have names := names_of_class? classes name
  have sameIds : t.ids = s.ids := by
    have length := congrArg List.length names
    rw [List.length_map, List.length_map] at length
    rw [ids, length, ids]
  refine ⟨packages ▸ sound.packageNames, names ▸ sound.classNames, ?_, packages ▸ sound.ordered, ?_⟩
  · rw [packages, sameIds]
    exact sound.listing
  · intro d hd
    obtain ⟨id, hid⟩ := List.mem_iff_getElem?.mp hd
    change t.class? id = some d at hid
    rw [classes] at hid
    obtain ⟨c, hc, rfl⟩ := Option.map_eq_some_iff.mp hid
    rw [sameIds]
    exact mentions id c (mem_classes_of_class? hc)

theorem resolve (sound : s.Sound) : s.resolve.Sound := by
  refine sound.of_class? rfl (class?_resolve s) (fun _ _ => rfl) ?_
  intro id c hc
  have kept := sound.mentions c hc
  have found : ∀ name target, s.find? name = some target → target ∈ s.ids := by
    intro name target found
    obtain ⟨d, hd, _⟩ := class?_of_find? found
    exact mem_ids_of_class? hd
  have linked := kept.toLinksIn.link found
  exact ⟨⟨linked.refs, linked.types⟩, kept.outer⟩

theorem edit (sound : s.Sound) (id : ClassId) {e : Edit}
    (declared : ∀ outer, e = .outer (some outer) → outer ∈ s.ids) : (s.update id e.apply).Sound := by
  let change (i : ClassId) (c : ClassDecl) : ClassDecl := if id = i then e.apply c else c
  have changed : ∀ i, (s.update id e.apply).class? i = (s.class? i).map (change i) := by
    intro i
    rw [update, class?, List.getElem?_modify]
    refine Option.map_congr fun c _ => ?_
    by_cases here : id = i <;> simp [change, here]
  refine sound.of_class? rfl changed ?_ ?_
  · intro i c
    dsimp only [change]
    split
    · exact e.qualifiedName_apply c
    · rfl
  · intro i c hc
    have kept := sound.mentions c hc
    dsimp only [change]
    split
    · refine ⟨e.linksIn_apply kept.toLinksIn, fun outer around => ?_⟩
      cases e with
      | outer id => exact declared outer (congrArg Edit.outer around)
      | _ => exact kept.outer outer around
    · exact kept

end Sound

end Snapshot

end ApiCompat
