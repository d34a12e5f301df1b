import ApiCompat.Proofs.Compatibility.Answering
import ApiCompat.Proofs.Compatibility.SupertypeSoundness
import ApiCompat.Proofs.Snapshot.Growth

/-! Additions break nothing. A new class, and a new method or field that the old class does not have,
may change how names are linked, of what kind classes are, what they inherit and where their
superclass chains end; but the class that an old one finds again answers for it as well as before,
so there are no more errors than there were. -/
namespace ApiCompat.Compatibility

open Snapshot (Growth)

/-- The second place holds the class of the first one, with more methods and fields. -/
structure Place.Grown (methods : List Method) (fields : List Field) (p q : Place) : Prop where
  isInterface : q.decl.isInterface = p.decl.isInterface
  modifiers : q.decl.modifiers = p.decl.modifiers
  scope : q.scope = p.scope
  constructors : q.decl.constructors.map Callable.unlink = p.decl.constructors.map Callable.unlink
  methods : q.decl.methods.map Method.unlink = (p.decl.methods ++ methods).map Method.unlink
  fields : q.decl.fields.map Field.unlink = (p.decl.fields ++ fields).map Field.unlink

section Lookups

theorem constructor?_unlink (p : Place) (key : String) :
    (p.constructor? key).map Callable.unlink =
      (p.decl.constructors.map Callable.unlink).reverse.find? fun k =>
        k.key p.scope.unlink == key := by
  rw [← List.map_reverse, List.find?_map, Place.constructor?]
  congr 2
  funext k
  exact congrArg (· == key) Callable.key_unlink.symm

theorem method?_unlink (p : Place) (key : String) :
    (p.method? key).map Method.unlink =
      (p.decl.methods.map Method.unlink).reverse.find? fun m => m.key p.scope.unlink == key := by
  rw [← List.map_reverse, List.find?_map, Place.method?]
  congr 2
  funext m
  exact congrArg (· == key) (@Callable.key_unlink p.scope m.toCallable).symm

theorem field?_unlink (c : ClassDecl) (name : String) :
    (c.field? name).map Field.unlink = (c.fields.map Field.unlink).find? (·.name == name) := by
  rw [List.find?_map]
  rfl

namespace Place.Grown

variable {methods : List Method} {fields : List Field} {p q : Place}

theorem constructor? (g : p.Grown methods fields q) (key : String) :
    (q.constructor? key).map Callable.unlink = (p.constructor? key).map Callable.unlink := by
  rw [constructor?_unlink, constructor?_unlink, g.constructors, g.scope]

/-- The last method of a key is among those that came, or else it is the one from before. -/
theorem method? (g : p.Grown methods fields q) (key : String) :
    (q.method? key).map Method.unlink =
      ((methods.map Method.unlink).reverse.find? fun m => m.key p.scope.unlink == key).or
        ((p.method? key).map Method.unlink) := by
  rw [method?_unlink, method?_unlink, g.methods, g.scope, List.map_append, List.reverse_append,
    List.find?_append]

/-- The first field of a name is the one from before, or else it is among those that came. -/
theorem field? (g : p.Grown methods fields q) (name : String) :
    (q.decl.field? name).map Field.unlink = ((p.decl.field? name).map Field.unlink).or
      ((fields.map Field.unlink).find? (·.name == name)) := by
  rw [field?_unlink, field?_unlink, g.fields, List.map_append, List.find?_append]

theorem method?_of_fresh (g : p.Grown methods fields q) {key : String}
    (fresh : ∀ m ∈ methods, key ≠ m.key p.scope) :
    (q.method? key).map Method.unlink = (p.method? key).map Method.unlink := by
  have none : ((methods.map Method.unlink).reverse.find? fun m =>
      m.key p.scope.unlink == key) = none := by
    refine List.find?_eq_none.mpr fun m hm same => ?_
    obtain ⟨n, hn, rfl⟩ := List.mem_map.mp (List.mem_reverse.mp hm)
    have unlinked : n.unlink.key p.scope.unlink = n.key p.scope := Callable.key_unlink
    rw [beq_iff_eq, unlinked] at same
    exact fresh n hn same.symm
  rw [g.method?, none, Option.none_or]

theorem field?_of_fresh (g : p.Grown methods fields q) {name : String}
    (fresh : ∀ f ∈ fields, name ≠ f.name) :
    (q.decl.field? name).map Field.unlink = (p.decl.field? name).map Field.unlink := by
  have none : (fields.map Field.unlink).find? (·.name == name) = none := by
    refine List.find?_eq_none.mpr fun f hf same => ?_
    obtain ⟨x, hx, rfl⟩ := List.mem_map.mp hf
    rw [beq_iff_eq] at same
    exact fresh x hx same.symm
  rw [g.field?, none, Option.or_none]

theorem any_unlink_method (found : Option Method) :
    (found.map Method.unlink).any (·.modifiers.visibility.exported) =
      found.any (·.modifiers.visibility.exported) := by
  cases found <;> rfl

theorem any_unlink_field (found : Option Field) :
    (found.map Field.unlink).any (·.modifiers.visibility.exported) =
      found.any (·.modifiers.visibility.exported) := by
  cases found <;> rfl

/-- What clients could inherit they still inherit, if clients can use what came. -/
theorem exportedMethod (g : p.Grown methods fields q)
    (exported : ∀ m ∈ methods, m.modifiers.visibility.exported = true) {key : String}
    (h : (p.method? key).any (·.modifiers.visibility.exported) = true) :
    (q.method? key).any (·.modifiers.visibility.exported) = true := by
  rw [← any_unlink_method, g.method?]
  cases came : (methods.map Method.unlink).reverse.find? (fun m => m.key p.scope.unlink == key) with
  | none => rwa [Option.none_or, any_unlink_method]
  | some m =>
    have among := List.mem_reverse.mp (List.mem_of_find?_eq_some came)
    obtain ⟨n, hn, rfl⟩ := List.mem_map.mp among
    exact exported n hn

theorem exportedField (g : p.Grown methods fields q) {name : String}
    (h : (p.decl.field? name).any (·.modifiers.visibility.exported) = true) :
    (q.decl.field? name).any (·.modifiers.visibility.exported) = true := by
  rw [← any_unlink_field, g.field?]
  obtain ⟨f, found, exported⟩ := Option.any_eq_true _ _ |>.mp h
  rw [found]
  exact exported

end Place.Grown

end Lookups

section Growing

variable {methods : ClassId → List Method} {fields : ClassId → List Field} {s t : Snapshot}

theorem grown (g : Growth methods fields s t) (nested : s.Nested) {id : ClassId} {c : ClassDecl}
    (hc : s.class? id = some c) : Place.Grown (methods id) (fields id)
      ⟨s.resolve, id, s.resolveClass id c⟩
      ⟨t.resolve, id, t.resolveClass id (c.extend (methods id) (fields id))⟩ := by
  have scope : t.resolve.typeScope id = s.resolve.typeScope id := by
    rw [Snapshot.typeScope_resolve, Snapshot.typeScope_resolve]
    exact g.typeScope nested (Snapshot.mem_ids_of_class? hc)
  have constructorsBefore := map_map_eq_map (Callable.unlink_link s.find?) c.constructors
  have constructorsAfter := map_map_eq_map (Callable.unlink_link t.find?) c.constructors
  have methodsBefore := map_map_eq_map (Method.unlink_link s.find?) c.methods
  have methodsAfter := map_map_eq_map (Method.unlink_link t.find?) (c.methods ++ methods id)
  have fieldsBefore := map_map_eq_map (Field.unlink_link s.find?) c.fields
  have fieldsAfter := map_map_eq_map (Field.unlink_link t.find?) (c.fields ++ fields id)
  constructor
  · exact (Snapshot.derivedKind?_isInterface _ _ _).trans
      (Snapshot.derivedKind?_isInterface _ _ _).symm
  · rfl
  · exact scope
  · exact constructorsAfter.trans constructorsBefore.symm
  · change ((c.methods ++ methods id).map (Method.link t.find?)).map Method.unlink =
      (c.methods.map (Method.link s.find?) ++ methods id).map Method.unlink
    rw [methodsAfter, List.map_append, List.map_append, methodsBefore]
  · change ((c.fields ++ fields id).map (Field.link t.find?)).map Field.unlink =
      (c.fields.map (Field.link s.find?) ++ fields id).map Field.unlink
    rw [fieldsAfter, List.map_append, List.map_append, fieldsBefore]

theorem exists_ancestor_grown (g : Growth methods fields s t) (closed : s.Closed)
    (nested : s.Nested) {id : ClassId} {before after : ClassDecl} {p : Place}
    (h : p ∈ Place.ancestors ⟨s.resolve, id, before⟩) :
    ∃ q ∈ Place.ancestors ⟨t.resolve, id, after⟩, p.Grown (methods p.id) (fields p.id) q := by
  obtain ⟨above, habove, hplace⟩ := List.mem_filterMap.mp h
  rw [Place.of?, Snapshot.class?_resolve, Option.map_map] at hplace
  obtain ⟨c, hc, rfl⟩ := Option.map_eq_some_iff.mp hplace
  refine ⟨_, List.mem_filterMap.mpr ⟨above, g.ancestors_subset closed id habove, ?_⟩,
    grown g nested hc⟩
  rw [Place.of?, Snapshot.class?_resolve, g.classes above c hc]
  rfl

theorem inheritsExportedMethod_grown (g : Growth methods fields s t) (closed : s.Closed)
    (nested : s.Nested)
    (exported : ∀ id, ∀ m ∈ methods id, m.modifiers.visibility.exported = true) {id : ClassId}
    {before after : ClassDecl} {key : String}
    (h : Place.inheritsExportedMethod ⟨s.resolve, id, before⟩ key = true) :
    Place.inheritsExportedMethod ⟨t.resolve, id, after⟩ key = true := by
  obtain ⟨p, hp, found⟩ := List.any_eq_true.mp h
  obtain ⟨q, hq, grown⟩ := exists_ancestor_grown g closed nested hp
  exact List.any_eq_true.mpr ⟨q, hq, grown.exportedMethod (exported p.id) found⟩

theorem inheritsExportedField_grown (g : Growth methods fields s t) (closed : s.Closed)
    (nested : s.Nested) {id : ClassId} {before after : ClassDecl} {name : String}
    (h : Place.inheritsExportedField ⟨s.resolve, id, before⟩ name = true) :
    Place.inheritsExportedField ⟨t.resolve, id, after⟩ name = true := by
  obtain ⟨p, hp, found⟩ := List.any_eq_true.mp h
  obtain ⟨q, hq, grown⟩ := exists_ancestor_grown g closed nested hp
  exact List.any_eq_true.mpr ⟨q, hq, grown.exportedField found⟩

theorem isExported_grown (g : Growth methods fields s t) {id : ClassId} (declared : id ∈ s.ids) :
    isExported t.resolve id = isExported s.resolve id := by
  obtain ⟨c, hc⟩ := Snapshot.exists_class?_of_mem_ids declared
  rw [isExported, isExported, Snapshot.class?_resolve, Snapshot.class?_resolve, hc,
    g.classes id c hc]
  rfl

end Growing

/-- Growth that an old snapshot has no claim on: it declares none of the new classes and packages,
and its classes none of the members that come to the classes of their names. Clients can use
the methods that come, and need not implement them. -/
structure Additive (methods : ClassId → List Method) (fields : ClassId → List Field)
    (old s t : Snapshot) : Prop extends Growth methods fields s t where
  declared : ∀ name, old.find? name ≠ none → t.find? name = s.find? name
  packages : ∀ p ∈ old.packages, (t.package? p.name).isSome = (s.package? p.name).isSome
  exported : ∀ id, ∀ m ∈ methods id, m.modifiers.visibility.exported = true
  optional : ∀ id c, s.class? id = some c →
    ∀ m ∈ methods id, m.mustBeImplemented c.isInterface = false
  freshMethods : ∀ id c, s.class? id = some c → ∀ id' a, old.class? id' = some a →
    a.qualifiedName = c.qualifiedName → ∀ m ∈ a.methods, ∀ n ∈ methods id,
      m.key (old.typeScope id') ≠ n.key (s.typeScope id)
  freshFields : ∀ id c, s.class? id = some c → ∀ id' a, old.class? id' = some a →
    a.qualifiedName = c.qualifiedName → ∀ x ∈ a.fields, ∀ y ∈ fields id, x.name ≠ y.name

namespace Additive

variable {methods : ClassId → List Method} {fields : ClassId → List Field} {old s t : Snapshot}

theorem answersAsWell (g : Additive methods fields old s t) (closed : s.Closed)
    (nested : s.Nested) {id id' : ClassId} {a c : ClassDecl} (ha : old.class? id' = some a)
    (hc : s.class? id = some c) (same : a.qualifiedName = c.qualifiedName) :
    AnswersAsWell ⟨old.resolve, id', old.resolveClass id' a⟩
      ⟨s.resolve, id, s.resolveClass id c⟩
      ⟨t.resolve, id, t.resolveClass id (c.extend (methods id) (fields id))⟩ := by
  have grown := grown g.toGrowth nested hc
  constructor
  · exact grown.isInterface
  · exact grown.modifiers
  · exact congrArg Scope.unlink grown.scope
  · exact grown.constructor?
  · intro m hm
    obtain ⟨before, hbefore, rfl⟩ := List.mem_map.mp hm
    refine grown.method?_of_fresh fun n hn => ?_
    have linked : (before.link old.find?).key (old.typeScope id') =
        before.key (old.typeScope id') :=
      Callable.key_eq_of_unlink (Callable.unlink_link old.find? before.toCallable) rfl
    rw [Place.scope, Place.scope, Snapshot.typeScope_resolve, Snapshot.typeScope_resolve, linked]
    exact g.freshMethods id c hc id' a ha same before hbefore n hn
  · intro x hx
    obtain ⟨before, hbefore, rfl⟩ := List.mem_map.mp hx
    refine grown.field?_of_fresh fun y hy => ?_
    exact g.freshFields id c hc id' a ha same before hbefore y hy
  · refine ⟨methods id, grown.methods, fun m hm => ?_⟩
    have shape : (s.resolveClass id c).isInterface = c.isInterface :=
      Snapshot.derivedKind?_isInterface s.linkNames id c.kind
    rw [shape]
    exact g.optional id c hc m hm
  · exact fun key => inheritsExportedMethod_grown g.toGrowth closed nested g.exported
  · exact fun name => inheritsExportedField_grown g.toGrowth closed nested
  · exact g.superclassChain_subset closed id
  · exact g.supertypeNames_subset closed (Snapshot.mem_ids_of_class? hc)

theorem find?_resolve (g : Additive methods fields old s t) {name : String}
    (declared : old.find? name ≠ none) : t.resolve.find? name = s.resolve.find? name := by
  rw [Snapshot.find?_resolve, Snapshot.find?_resolve]
  exact g.declared name declared

theorem isObligation_eq (g : Additive methods fields old s t) (id : ClassId) :
    isObligation old.resolve t.resolve id = isObligation old.resolve s.resolve id := by
  have same : ∀ outer ∈ old.resolve.enclosing id,
      ((t.resolve.find? (old.resolve.nameOf outer)).any fun found => !isExported t.resolve found) =
        (s.resolve.find? (old.resolve.nameOf outer)).any fun found =>
          !isExported s.resolve found := by
    intro outer houter
    -- Only names that the old snapshot declares are looked up, and those are found as before.
    have inside : outer ∈ old.ids := by
      rw [← Snapshot.ids_resolve]
      exact List.mem_of_mem_erase (Walk.trail_sound houter).1
    obtain ⟨c, hc⟩ := Snapshot.exists_class?_of_mem_ids inside
    have declared : old.find? (old.resolve.nameOf outer) ≠ none := by
      rw [Snapshot.nameOf_resolve, Snapshot.nameOf_of_class? hc]
      exact Snapshot.find?_ne_none hc
    rw [g.find?_resolve declared]
    cases found : s.resolve.find? (old.resolve.nameOf outer) with
    | none => rw [Option.any_none, Option.any_none]
    | some id' =>
      rw [Snapshot.find?_resolve] at found
      obtain ⟨d, hd, _⟩ := Snapshot.class?_of_find? found
      have exported := isExported_grown g.toGrowth (Snapshot.mem_ids_of_class? hd)
      exact congrArg (!·) exported
  have withdrawn : outerWithdrawn old.resolve t.resolve id =
      outerWithdrawn old.resolve s.resolve id := by
    rw [Bool.eq_iff_iff, outerWithdrawn, List.any_eq_true, outerWithdrawn, List.any_eq_true]
    exact exists_congr fun outer => and_congr_right fun houter => by rw [same outer houter]
  rw [Compatibility.isObligation, withdrawn, Compatibility.isObligation]

theorem obligationFindings_le (g : Additive methods fields old s t) (closed : s.Closed)
    (nested : s.Nested) {id : ClassId} {a : ClassDecl} (ha : old.class? id = some a) :
    errorCount (obligationFindings t.resolve ⟨old.resolve, id, old.resolveClass id a⟩) ≤
      errorCount (obligationFindings s.resolve ⟨old.resolve, id, old.resolveClass id a⟩) := by
  have declared : old.find? a.qualifiedName ≠ none := Snapshot.find?_ne_none ha
  have name : (old.resolveClass id a).qualifiedName = a.qualifiedName := rfl
  simp only [obligationFindings, counterpart?, name, g.find?_resolve declared]
  cases found : s.resolve.find? a.qualifiedName with
  | none => exact Nat.le_refl _
  | some id' =>
    rw [Snapshot.find?_resolve] at found
    obtain ⟨c, hc, hname⟩ := Snapshot.class?_of_find? found
    simp only [Option.bind_some, Place.of?, Snapshot.class?_resolve, hc, g.classes id' c hc,
      Option.map_some]
    exact (g.answersAsWell closed nested ha hc hname.symm).compareClass_le

theorem packageFindings_le (g : Additive methods fields old s t) (closed : s.Closed)
    (nested : s.Nested) {p : Package} (hp : p ∈ old.packages) :
    errorCount (packageFindings old.resolve t.resolve p) ≤
      errorCount (packageFindings old.resolve s.resolve p) := by
  have present : (t.resolve.package? p.name).isSome = (s.resolve.package? p.name).isSome :=
    g.packages p hp
  have owed : obligations old.resolve t.resolve p = obligations old.resolve s.resolve p := by
    rw [obligations, funext g.isObligation_eq, obligations]
  have hidden (list : List Place) :
      errorCount (list.flatMap (addedClass old.resolve)) = 0 := by
    refine errorCount_flatMap_eq_zero fun place _ => ?_
    rw [addedClass, errorCount_finding]
    rfl
  have compared : errorCount ((obligations old.resolve s.resolve p).flatMap
      (obligationFindings t.resolve)) ≤ errorCount ((obligations old.resolve s.resolve p).flatMap
        (obligationFindings s.resolve)) := by
    refine errorCount_flatMap_le fun place hplace => ?_
    obtain ⟨id, _, d, hd, _, rfl⟩ := mem_obligations_iff.mp hplace
    rw [Snapshot.class?_resolve] at hd
    obtain ⟨a, ha, rfl⟩ := Option.map_eq_some_iff.mp hd
    exact g.obligationFindings_le closed nested ha
  unfold packageFindings
  cases after : t.resolve.package? p.name with
  | none =>
    rw [after] at present
    rw [Option.isSome_eq_false_iff.mp present.symm |> Option.isNone_iff_eq_none.mp]
  | some q =>
    rw [after] at present
    obtain ⟨r, before⟩ := Option.isSome_iff_exists.mp present.symm
    simp only [before, errorCount_append, hidden, owed, Nat.add_zero]
    exact compared

theorem errors_le (g : Additive methods fields old s t) (closed : s.Closed) (nested : s.Nested) :
    (check .default old.resolve t.resolve).errors ≤
      (check .default old.resolve s.resolve).errors := by
  have hidden (list : List Package) :
      errorCount (list.flatMap (addedPackage old.resolve)) = 0 := by
    refine errorCount_flatMap_eq_zero fun q _ => ?_
    rw [addedPackage, errorCount_finding]
    rfl
  rw [errors_check_default, errors_check_default, compare, compare, errorCount_append,
    errorCount_append, hidden, hidden, Nat.add_zero, Nat.add_zero]
  exact errorCount_flatMap_le fun p hp => g.packageFindings_le closed nested hp

end Additive

/-- What may be added to a new snapshot without touching what the old one declares. -/
inductive Addition (old new : Snapshot) : Snapshot → Prop where
  /-- A class of a new name, in a package that is there or that the old snapshot does not have. -/
  | declare {c : ClassDecl} {position : Option Position} {id : ClassId} {extended : Snapshot} :
      old.find? c.qualifiedName = none →
      (new.package? c.package).isSome = true ∨ old.package? c.package = none →
      (∀ ref ∈ c.supertypes, ref.id? = none) →
      (new.addPackage c.package position).addClass? c = some (id, extended) →
      Addition old new extended
  /-- A method that clients can use and need not implement, with a key that is new to the class. -/
  | method {id : ClassId} {c : ClassDecl} {m : Method} : new.class? id = some c →
      m.modifiers.visibility.exported = true → m.mustBeImplemented c.isInterface = false →
      (∀ id' a, old.class? id' = some a → a.qualifiedName = c.qualifiedName →
        ∀ n ∈ a.methods, n.key (old.typeScope id') ≠ m.key (new.typeScope id)) →
      Addition old new (new.update id (ClassDecl.extend [m] []))
  /-- A field with a name that is new to the class. -/
  | field {id : ClassId} {c : ClassDecl} {f : Field} : new.class? id = some c →
      (∀ id' a, old.class? id' = some a → a.qualifiedName = c.qualifiedName →
        ∀ x ∈ a.fields, x.name ≠ f.name) →
      Addition old new (new.update id (ClassDecl.extend [] [f]))

theorem Additive.of_declare {old new extended : Snapshot} {c : ClassDecl}
    {position : Option Position} {id : ClassId} (closed : new.Closed)
    (unknown : old.find? c.qualifiedName = none)
    (package : (new.package? c.package).isSome = true ∨ old.package? c.package = none)
    (named : ∀ ref ∈ c.supertypes, ref.id? = none)
    (added : (new.addPackage c.package position).addClass? c = some (id, extended)) :
    Additive (fun _ => []) (fun _ => []) old new extended := by
  have appended : extended.classes = new.classes ++ [c] := by
    rw [(Snapshot.classes_addClass? added).2, Snapshot.classes_addPackage]
  refine { Growth.of_append closed appended named with
    declared := ?_, packages := ?_, exported := ?_, optional := ?_, freshMethods := ?_
    freshFields := ?_ }
  · intro name known
    have other : c.qualifiedName ≠ name := by
      rintro rfl
      exact known unknown
    rw [Snapshot.find?_append_class appended, if_neg other, Option.or_none]
  · intro p hp
    rw [Bool.eq_iff_iff, Snapshot.package?_isSome_iff, Snapshot.packageNames_addClass? added,
      Snapshot.mem_packageNames_addPackage, Snapshot.package?_isSome_iff]
    refine ⟨fun h => h.elim (fun h => h) fun same => ?_, .inl⟩
    rcases package with present | absent
    · rw [same]
      exact Snapshot.package?_isSome_iff.mp present
    · -- The package of the class is new to the old snapshot, so it is not the one looked at.
      have declared : (old.package? c.package).isSome = true :=
        Snapshot.package?_isSome_iff.mpr (List.mem_map.mpr ⟨p, hp, same⟩)
      rw [absent] at declared
      cases declared
  · intro _ _ impossible
    cases impossible
  · intro _ _ _ _ impossible
    cases impossible
  · intro _ _ _ _ _ _ _ _ _ _ impossible
    cases impossible
  · intro _ _ _ _ _ _ _ _ _ _ impossible
    cases impossible

theorem Additive.of_extend {old new : Snapshot} {id : ClassId} {c : ClassDecl}
    {methods : List Method} {fields : List Field} (closed : new.Closed)
    (hc : new.class? id = some c)
    (exported : ∀ m ∈ methods, m.modifiers.visibility.exported = true)
    (optional : ∀ m ∈ methods, m.mustBeImplemented c.isInterface = false)
    (freshMethods : ∀ id' a, old.class? id' = some a → a.qualifiedName = c.qualifiedName →
      ∀ m ∈ a.methods, ∀ n ∈ methods, m.key (old.typeScope id') ≠ n.key (new.typeScope id))
    (freshFields : ∀ id' a, old.class? id' = some a → a.qualifiedName = c.qualifiedName →
      ∀ x ∈ a.fields, ∀ y ∈ fields, x.name ≠ y.name) :
    Additive (fun other => if other = id then methods else [])
      (fun other => if other = id then fields else []) old new
      (new.update id (ClassDecl.extend methods fields)) := by
  have here {α : Type} {other : ClassId} {list : List α} {a : α}
      (h : a ∈ if other = id then list else []) : other = id ∧ a ∈ list := by
    split at h
    · rename_i same
      exact ⟨same, h⟩
    · cases h
  refine { Growth.of_extend closed id with
    declared := ?_, packages := ?_, exported := ?_, optional := ?_, freshMethods := ?_
    freshFields := ?_ }
  · exact fun name _ => Snapshot.find?_extend new id name
  · exact fun _ _ => rfl
  · exact fun other m hm => exported m (here hm).2
  · intro other d hd m hm
    obtain ⟨rfl, among⟩ := here hm
    cases hc.symm.trans hd
    exact optional m among
  · intro other d hd id' a ha same m hm n hn
    obtain ⟨rfl, among⟩ := here hn
    cases hc.symm.trans hd
    exact freshMethods id' a ha same m hm n among
  · intro other d hd id' a ha same x hx y hy
    obtain ⟨rfl, among⟩ := here hy
    cases hc.symm.trans hd
    exact freshFields id' a ha same x hx y among

/-- An addition to the new snapshot adds no errors. -/
theorem addition_adds_no_errors {old new extended : Snapshot} (hn : new.WellFormed)
    (nested : new.Nested) (addition : Addition old new extended) :
    (check .default old.resolve extended.resolve).errors ≤
      (check .default old.resolve new.resolve).errors := by
  have closed := hn.closed
  cases addition with
  | declare unknown package named added =>
    exact (Additive.of_declare closed unknown package named added).errors_le closed nested
  | method hc exported optional fresh =>
    refine (Additive.of_extend closed hc ?_ ?_ ?_ ?_).errors_le closed nested
    · exact List.forall_mem_singleton.mpr exported
    · exact List.forall_mem_singleton.mpr optional
    · intro id' a ha same n hn
      exact List.forall_mem_singleton.mpr (fresh id' a ha same n hn)
    · intro _ _ _ _ _ _ _ impossible
      cases impossible
  | field hc fresh =>
    refine (Additive.of_extend closed hc ?_ ?_ ?_ ?_).errors_le closed nested
    · intro _ impossible
      cases impossible
    · intro _ impossible
      cases impossible
    · intro _ _ _ _ _ _ _ impossible
      cases impossible
    · intro id' a ha same x hx
      exact List.forall_mem_singleton.mpr (fresh id' a ha same x hx)

section Examples

def publicClass (name : String) (superclass : Option String) (methods : List Method) : ClassDecl :=
  { heading "p" name .plain .everywhere superclass [] with methods := methods }

def belowUndeclared (methods : List Method) : Snapshot :=
  onePackage "p" [publicClass "Derived" (some "p.Base") methods]

def belowDeclared (methods : List Method) : Snapshot :=
  onePackage "p" [publicClass "Derived" (some "p.Base") [], publicClass "Base" none methods]

theorem wellFormed_belowUndeclared : (belowUndeclared []).WellFormed := by
  refine wellFormed_onePackage (by simp) ?_ ?_
  · simp [publicClass, heading, ClassDecl.bare, ClassDecl.supertypes]
  · simp [publicClass, heading, ClassDecl.bare, ClassDecl.declaredParameters, ClassDecl.callables]

theorem nested_belowUndeclared : (belowUndeclared []).Nested := by
  rw [Snapshot.nested_iff]
  simp [belowUndeclared, onePackage, Snapshot.outers, publicClass, heading, ClassDecl.bare]

/-- The error for a removed method goes when the superclass that declares it is added. -/
theorem superclass_adds_no_errors :
    (check .default (belowUndeclared [publicMethod "run"]).resolve
        (belowDeclared [publicMethod "run"]).resolve).errors ≤
      (check .default (belowUndeclared [publicMethod "run"]).resolve
        (belowUndeclared []).resolve).errors ∧
    (check .default (belowUndeclared [publicMethod "run"]).resolve
      (belowDeclared [publicMethod "run"]).resolve).errors = 0 ∧
    (check .default (belowUndeclared [publicMethod "run"]).resolve
      (belowUndeclared []).resolve).errors = 1 := by
  have addition : Addition (belowUndeclared [publicMethod "run"]) (belowUndeclared [])
      (belowDeclared [publicMethod "run"]) := by
    have unknown : (belowUndeclared [publicMethod "run"]).find? "p.Base" = none := by
      decide +kernel
    have added : ((belowUndeclared []).addPackage "p" none).addClass?
        (publicClass "Base" none [publicMethod "run"]) =
          some (1, belowDeclared [publicMethod "run"]) := rfl
    refine .declare unknown (.inl rfl) ?_ added
    intro ref impossible
    cases impossible
  have le := addition_adds_no_errors wellFormed_belowUndeclared nested_belowUndeclared addition
  exact ⟨le, by decide +kernel, by decide +kernel⟩

end Examples

end ApiCompat.Compatibility
