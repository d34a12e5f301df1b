import ApiCompat.Proofs.Compatibility.Session
import ApiCompat.Proofs.Compatibility.SupertypeSoundness
import ApiCompat.Proofs.Diagnostic.Recording
import ApiCompat.Proofs.Snapshot.Reordering

/-! The order of declarations does not matter. Both snapshots may list their packages, classes and
interfaces in other orders. Members of corresponding classes give the same findings in the same
order; the findings on interfaces, classes and packages come in another order, and the counts are
the same. -/
namespace ApiCompat.Compatibility

open Snapshot (Reordering)

/-- The second place holds the class of the first one, listed in another order. -/
structure Place.Reordered (σ : Equiv.Perm ClassId) (p q : Place) : Prop where
  snapshots : Reordering σ p.snapshot q.snapshot
  closed : p.snapshot.Closed
  id : q.id = σ p.id
  interfaces : q.decl.interfaces.Perm (p.decl.interfaces.map (ClassRef.renumber σ))
  decl : q.decl = p.decl.reorder σ q.decl.interfaces

namespace Place.Reordered

variable {σ : Equiv.Perm ClassId} {p q : Place}

theorem of?_cases {s t : Snapshot} (r : Reordering σ s t) (closed : s.Closed) (id : ClassId) :
    (Place.of? s id = none ∧ Place.of? t (σ id) = none) ∨ ∃ p q, Place.of? s id = some p ∧
      Place.of? t (σ id) = some q ∧ p.Reordered σ q := by
  unfold Place.of?
  rcases r.class?_cases id with ⟨before, after⟩ | ⟨c, interfaces, before, perm, after⟩
  · rw [before, after]
    exact .inl ⟨rfl, rfl⟩
  · rw [before, after]
    exact .inr ⟨_, _, rfl, rfl, r, closed, rfl, perm, rfl⟩

theorem qualifiedName (r : p.Reordered σ q) : q.decl.qualifiedName = p.decl.qualifiedName :=
  (congrArg ClassDecl.qualifiedName r.decl :)

theorem kind (r : p.Reordered σ q) : q.decl.kind = p.decl.kind :=
  (congrArg ClassDecl.kind r.decl :)

theorem isInterface (r : p.Reordered σ q) : q.decl.isInterface = p.decl.isInterface :=
  (congrArg ClassDecl.isInterface r.decl :)

theorem modifiers (r : p.Reordered σ q) : q.decl.modifiers = p.decl.modifiers :=
  (congrArg ClassDecl.modifiers r.decl :)

theorem exported (r : p.Reordered σ q) : q.decl.exported = p.decl.exported :=
  (congrArg ClassDecl.exported r.decl :)

theorem deprecated (r : p.Reordered σ q) : q.decl.deprecated = p.decl.deprecated :=
  (congrArg ClassDecl.deprecated r.decl :)

theorem position (r : p.Reordered σ q) : q.decl.position = p.decl.position :=
  (congrArg ClassDecl.position r.decl :)

theorem superclass (r : p.Reordered σ q) :
    q.decl.superclass = p.decl.superclass.map (ClassRef.renumber σ) :=
  (congrArg ClassDecl.superclass r.decl :)

theorem methods (r : p.Reordered σ q) : q.decl.methods = p.decl.methods.map (Method.renumber σ) :=
  (congrArg ClassDecl.methods r.decl :)

theorem constructors (r : p.Reordered σ q) :
    q.decl.constructors = p.decl.constructors.map (Callable.renumber σ) :=
  (congrArg ClassDecl.constructors r.decl :)

theorem fields (r : p.Reordered σ q) : q.decl.fields = p.decl.fields.map (Field.renumber σ) :=
  (congrArg ClassDecl.fields r.decl :)

theorem hasExportedConstructor (r : p.Reordered σ q) :
    q.decl.hasExportedConstructor = p.decl.hasExportedConstructor := by
  rw [ClassDecl.hasExportedConstructor, r.constructors, List.any_map]
  rfl

theorem scope (r : p.Reordered σ q) : q.scope.unlink = p.scope.unlink := by
  rw [Place.scope, r.id]
  exact r.snapshots.typeScope p.id

theorem key (r : p.Reordered σ q) (c : Callable) : (c.renumber σ).key q.scope = c.key p.scope :=
  Callable.key_eq_of_unlink (Callable.unlink_renumber σ c) r.scope

theorem returnType (r : p.Reordered σ q) (m : Method) :
    (m.renumber σ).returnType.canonical ((m.renumber σ).scope q.scope) =
      m.returnType.canonical (m.scope p.scope) :=
  Method.returnType_eq_of_unlink (Method.unlink_renumber σ m) r.scope

theorem fieldType (r : p.Reordered σ q) (f : Field) :
    (f.renumber σ).type.canonical q.scope = f.type.canonical p.scope :=
  Signature.canonical_eq_of_unlink (Signature.unlink_renumber σ f.type) r.scope

theorem constructor? (r : p.Reordered σ q) (key : String) :
    q.constructor? key = (p.constructor? key).map (Callable.renumber σ) := by
  rw [Place.constructor?, r.constructors, ← List.map_reverse, List.find?_map, Place.constructor?]
  congr 2
  funext c
  exact congrArg (· == key) (r.key c)

theorem method? (r : p.Reordered σ q) (key : String) :
    q.method? key = (p.method? key).map (Method.renumber σ) := by
  rw [Place.method?, r.methods, ← List.map_reverse, List.find?_map, Place.method?]
  congr 2
  funext m
  exact congrArg (· == key) (r.key m.toCallable)

theorem field? (r : p.Reordered σ q) (name : String) :
    q.decl.field? name = (p.decl.field? name).map (Field.renumber σ) := by
  rw [ClassDecl.field?, r.fields, List.find?_map, ClassDecl.field?]
  rfl

/-- What holds of some ancestor holds of some ancestor in the other order. -/
theorem any_ancestors (r : p.Reordered σ q) {f g : Place → Bool}
    (same : ∀ a b, a.Reordered σ b → g b = f a) : q.ancestors.any g = p.ancestors.any f := by
  have places : ∀ id, (∃ b, Place.of? q.snapshot (σ id) = some b ∧ g b = true) ↔
      ∃ a, Place.of? p.snapshot id = some a ∧ f a = true := by
    intro id
    rcases of?_cases r.snapshots r.closed id with ⟨before, after⟩ | ⟨a, b, before, after, related⟩
    · simp [before, after]
    · simp [before, after, same a b related]
  rw [Bool.eq_iff_iff, List.any_eq_true, List.any_eq_true]
  simp only [Place.ancestors, List.mem_filterMap, r.id]
  constructor
  · rintro ⟨b, ⟨id', hid, hb⟩, holds⟩
    obtain ⟨id, rfl⟩ := σ.surjective id'
    obtain ⟨a, ha, holds⟩ := (places id).mp ⟨b, hb, holds⟩
    exact ⟨a, ⟨id, (r.snapshots.mem_ancestors r.closed).mp hid, ha⟩, holds⟩
  · rintro ⟨a, ⟨id, hid, ha⟩, holds⟩
    obtain ⟨b, hb, holds⟩ := (places id).mpr ⟨a, ha, holds⟩
    exact ⟨b, ⟨σ id, (r.snapshots.mem_ancestors r.closed).mpr hid, hb⟩, holds⟩

theorem inheritsMethod (r : p.Reordered σ q) (key : String) :
    q.inheritsMethod key = p.inheritsMethod key := by
  refine r.any_ancestors fun a b related => ?_
  rw [related.method?, Option.isSome_map]

theorem inheritsExportedMethod (r : p.Reordered σ q) (key : String) :
    q.inheritsExportedMethod key = p.inheritsExportedMethod key := by
  refine r.any_ancestors fun a b related => ?_
  rw [related.method?, Option.any_map]
  rfl

theorem inheritsField (r : p.Reordered σ q) (name : String) :
    q.inheritsField name = p.inheritsField name := by
  refine r.any_ancestors fun a b related => ?_
  rw [related.field?, Option.isSome_map]

theorem inheritsExportedField (r : p.Reordered σ q) (name : String) :
    q.inheritsExportedField name = p.inheritsExportedField name := by
  refine r.any_ancestors fun a b related => ?_
  rw [related.field?, Option.any_map]
  rfl

end Place.Reordered

section Members

variable {σ τ : Equiv.Perm ClassId} {old old' new new' : Place}

theorem isUnchecked_renumber {s t : Snapshot} (r : Reordering σ s t) (ref : ClassRef) :
    isUnchecked t (ref.renumber σ) = isUnchecked s ref := by
  cases ref with
  | named name => rfl
  | linked id =>
    have kinds : (t.class? (σ id)).any (·.kind == .error) =
        (s.class? id).any (·.kind == .error) := by
      rcases r.class?_cases id with ⟨before, after⟩ | ⟨c, interfaces, before, _, after⟩
      · rw [before, after]
      · rw [before, after]
        rfl
    simp only [ClassRef.renumber, isUnchecked, kinds, r.nameOf, r.superclassChain]

theorem isSubtypeOf_renumber {s t : Snapshot} (r : Reordering σ s t) (closed : s.Closed)
    (id : ClassId) (name : String) : t.isSubtypeOf (σ id) name = s.isSubtypeOf id name := by
  rw [Snapshot.isSubtypeOf, r.nameOf, r.contains_supertypeNames closed, Snapshot.isSubtypeOf]

section Callables

variable {o o' n n' : Snapshot}

theorem wasThrown_renumber (ro : Reordering σ o o') (rn : Reordering τ n n') (closed : n.Closed)
    (oldThrown : List ClassRef) (thrown : ClassRef) :
    wasThrown o' n' (oldThrown.map (ClassRef.renumber σ)) (thrown.renumber τ) =
      wasThrown o n oldThrown thrown := by
  have below : ∀ name, (thrown.renumber τ).id?.any (fun id => n'.isSubtypeOf id name) =
      thrown.id?.any fun id => n.isSubtypeOf id name := by
    intro name
    rw [ClassRef.id?_renumber, Option.any_map]
    exact congrArg thrown.id?.any (funext fun id => isSubtypeOf_renumber rn closed id name)
  rw [wasThrown, List.any_map, wasThrown]
  refine congrArg oldThrown.any (funext fun ref => ?_)
  rw [Function.comp_apply, ro.nameOfRef, rn.nameOfRef, below]

theorem addedThrows_renumber (ro : Reordering σ o o') (rn : Reordering τ n n')
    (closed : n.Closed) (a b : Callable) :
    addedThrows o' n' (a.renumber σ) (b.renumber τ) =
      (addedThrows o n a b).map (ClassRef.renumber τ) := by
  change (b.exceptions.map (ClassRef.renumber τ)).filter _ = _
  rw [List.filter_map, addedThrows]
  refine congrArg (List.map _) (List.filter_congr fun ref _ => ?_)
  rw [Function.comp_apply, isUnchecked_renumber rn]
  exact congrArg (fun known => !isUnchecked n ref && !known)
    (wasThrown_renumber ro rn closed a.exceptions ref)

theorem compareCallable_renumber (ro : Reordering σ o o') (rn : Reordering τ n n')
    (closed : n.Closed) (label : String) (a b : Callable) :
    compareCallable o' n' label (a.renumber σ) (b.renumber τ) = compareCallable o n label a b := by
  rw [compareCallable, addedThrows_renumber ro rn closed, List.map_map]
  have names : ∀ ref, n'.nameOfRef (ref.renumber τ) = n.nameOfRef ref := rn.nameOfRef
  simp only [Function.comp_def, names]
  rfl

end Callables

theorem methodLabel_reordered (ro : old.Reordered σ old') (m : Method) :
    methodLabel old'.decl (m.renumber σ) = methodLabel old.decl m := by
  have parameters : (m.renumber σ).parameterText = m.parameterText :=
    Callable.parameterText_eq_of_unlink (Callable.unlink_renumber σ m.toCallable)
  rw [methodLabel, ro.qualifiedName, parameters]
  rfl

theorem constructorLabel_reordered (ro : old.Reordered σ old') (k : Constructor) :
    constructorLabel old'.decl (k.renumber σ) = constructorLabel old.decl k := by
  rw [constructorLabel, ro.qualifiedName,
    Callable.parameterText_eq_of_unlink (Callable.unlink_renumber σ k)]
  rfl

theorem fieldLabel_reordered (ro : old.Reordered σ old') (f : Field) :
    fieldLabel old'.decl (f.renumber σ) = fieldLabel old.decl f := by
  rw [fieldLabel, ro.qualifiedName]
  rfl

theorem typeText_renumber (a b : Signature) :
    typeText (a.renumber σ) (b.renumber τ) = typeText a b := by
  rw [typeText, Signature.displayName_eq_of_unlink (Signature.unlink_renumber σ a),
    Signature.displayName_eq_of_unlink (Signature.unlink_renumber τ b)]
  rfl

theorem compareMethod_reordered (ro : old.Reordered σ old') (rn : new.Reordered τ new')
    (a b : Method) :
    compareMethod old' new' (a.renumber σ) (b.renumber τ) = compareMethod old new a b := by
  have types : typeText (a.renumber σ).returnType (b.renumber τ).returnType =
      typeText a.returnType b.returnType := typeText_renumber a.returnType b.returnType
  have madeFinal : methodBecameFinal old'.decl (a.renumber σ) (b.renumber τ) =
      methodBecameFinal old.decl a b := by
    rw [methodBecameFinal, ro.modifiers]
    rfl
  have callables : ∀ label, compareCallable old'.snapshot new'.snapshot label
      (a.renumber σ).toCallable (b.renumber τ).toCallable =
        compareCallable old.snapshot new.snapshot label a.toCallable b.toCallable :=
    fun label => compareCallable_renumber ro.snapshots rn.snapshots rn.closed label _ _
  simp only [compareMethod, methodLabel_reordered ro, ro.returnType, rn.returnType, types,
    madeFinal, callables, ro.isInterface, rn.isInterface, rn.position]
  rfl

theorem compareField_reordered (ro : old.Reordered σ old') (rn : new.Reordered τ new')
    (a b : Field) :
    compareField old' new' (a.renumber σ) (b.renumber τ) = compareField old new a b := by
  have types : typeText (a.renumber σ).type (b.renumber τ).type = typeText a.type b.type :=
    typeText_renumber a.type b.type
  simp only [compareField, fieldLabel_reordered ro, ro.fieldType, rn.fieldType, types, rn.position]
  rfl

theorem constructorFindings_reordered (ro : old.Reordered σ old') (rn : new.Reordered τ new')
    (a : Constructor) :
    constructorFindings old' new' (a.renumber σ) = constructorFindings old new a := by
  unfold constructorFindings
  rw [ro.key, rn.constructor?, constructorLabel_reordered ro]
  cases new.constructor? (a.key old.scope) with
  | some b => exact compareCallable_renumber ro.snapshots rn.snapshots rn.closed _ a b
  | none =>
    rw [ro.position]
    rfl

theorem addedConstructor_reordered (ro : old.Reordered σ old') (rn : new.Reordered τ new')
    (b : Constructor) : addedConstructor old' new' (b.renumber τ) = addedConstructor old new b := by
  rw [addedConstructor, rn.key, ro.constructor?, Option.isNone_map, rn.position,
    constructorLabel_reordered rn]
  rfl

theorem methodFindings_reordered (ro : old.Reordered σ old') (rn : new.Reordered τ new')
    (a : Method) : methodFindings old' new' (a.renumber σ) = methodFindings old new a := by
  have key : (a.renumber σ).key old'.scope = a.key old.scope := ro.key a.toCallable
  unfold methodFindings
  simp only [key, rn.method?, rn.inheritsExportedMethod, methodLabel_reordered ro, ro.position]
  cases new.method? (a.key old.scope) with
  | some b => exact compareMethod_reordered ro rn a b
  | none => rfl

theorem addedMethod_reordered (ro : old.Reordered σ old') (rn : new.Reordered τ new')
    (b : Method) : addedMethod old' new' (b.renumber τ) = addedMethod old new b := by
  have key : (b.renumber τ).key new'.scope = b.key new.scope := rn.key b.toCallable
  have demanded : isAddedAbstract new'.decl old'.decl (b.renumber τ) =
      isAddedAbstract new.decl old.decl b := by
    rw [isAddedAbstract, rn.isInterface, ro.isInterface, ro.hasExportedConstructor]
    rfl
  simp only [addedMethod, key, ro.method?, Option.isSome_map, ro.inheritsMethod, demanded,
    methodLabel_reordered rn, rn.position, ro.kind]
  rfl

theorem fieldFindings_reordered (ro : old.Reordered σ old') (rn : new.Reordered τ new')
    (a : Field) : fieldFindings old' new' (a.renumber σ) = fieldFindings old new a := by
  have name : (a.renumber σ).name = a.name := rfl
  unfold fieldFindings
  simp only [name, rn.field?, rn.inheritsExportedField, fieldLabel_reordered ro, ro.position]
  cases new.decl.field? a.name with
  | some b => exact compareField_reordered ro rn a b
  | none => rfl

theorem addedField_reordered (ro : old.Reordered σ old') (rn : new.Reordered τ new')
    (b : Field) : addedField old' new' (b.renumber τ) = addedField old new b := by
  have name : (b.renumber τ).name = b.name := rfl
  simp only [addedField, name, ro.field?, Option.isNone_map, ro.inheritsField,
    fieldLabel_reordered rn, rn.position]
  rfl

theorem exportedConstructors_reordered (ro : old.Reordered σ old') :
    exportedConstructors old'.decl = (exportedConstructors old.decl).map (Callable.renumber σ) := by
  rw [exportedConstructors, ro.constructors, List.filter_map]
  rfl

theorem exportedMethods_reordered (ro : old.Reordered σ old') :
    exportedMethods old'.decl = (exportedMethods old.decl).map (Method.renumber σ) := by
  rw [exportedMethods, ro.methods, List.filter_map]
  rfl

theorem exportedFields_reordered (ro : old.Reordered σ old') :
    exportedFields old'.decl = (exportedFields old.decl).map (Field.renumber σ) := by
  rw [exportedFields, ro.fields, List.filter_map]
  rfl

theorem memberFindings_reordered (ro : old.Reordered σ old') (rn : new.Reordered τ new') :
    memberFindings old' new' = memberFindings old new := by
  simp only [memberFindings, exportedConstructors_reordered ro, exportedConstructors_reordered rn,
    exportedMethods_reordered ro, exportedMethods_reordered rn, exportedFields_reordered ro,
    exportedFields_reordered rn, List.flatMap_map, constructorFindings_reordered ro rn,
    addedConstructor_reordered ro rn, methodFindings_reordered ro rn, addedMethod_reordered ro rn,
    fieldFindings_reordered ro rn, addedField_reordered ro rn]

end Members

section Classes

variable {σ τ : Equiv.Perm ClassId} {old old' new new' : Place}

theorem standingFindings_reordered (ro : old.Reordered σ old') (rn : new.Reordered τ new') :
    standingFindings old'.decl new'.decl = standingFindings old.decl new.decl := by
  simp only [standingFindings, ro.kind, rn.kind, ro.qualifiedName, ro.modifiers, rn.modifiers,
    rn.position]

theorem modifierFindings_reordered (ro : old.Reordered σ old') (rn : new.Reordered τ new') :
    modifierFindings old'.decl new'.decl = modifierFindings old.decl new.decl := by
  simp only [modifierFindings, classBecameAbstract, instantiable, ro.isInterface,
    ro.hasExportedConstructor, ro.qualifiedName, ro.modifiers, rn.modifiers, ro.deprecated,
    rn.deprecated, rn.position]

theorem interfaceNames_reordered (r : old.Reordered σ old') :
    (old'.decl.interfaces.map old'.snapshot.nameOfRef).Perm
      (old.decl.interfaces.map old.snapshot.nameOfRef) := by
  have names := map_map_eq_map r.snapshots.nameOfRef old.decl.interfaces
  exact (r.interfaces.map _).trans (.of_eq names)

theorem contains_supertypeNames_reordered (r : old.Reordered σ old') (name : String) :
    (old'.snapshot.supertypeNames old'.id).contains name =
      (old.snapshot.supertypeNames old.id).contains name := by
  rw [r.id]
  exact r.snapshots.contains_supertypeNames r.closed old.id name

theorem supertypeFindings_reordered (ro : old.Reordered σ old') (rn : new.Reordered τ new') :
    (supertypeFindings old' new').Perm (supertypeFindings old new) := by
  have chain : new'.snapshot.superclassChain new'.id = new.snapshot.superclassChain new.id := by
    rw [rn.id]
    exact rn.snapshots.superclassChain new.id
  have direct : old'.decl.superclass.map old'.snapshot.nameOfRef =
      old.decl.superclass.map old.snapshot.nameOfRef := by
    rw [ro.superclass, Option.map_map]
    exact Option.map_congr fun ref _ => ro.snapshots.nameOfRef ref
  simp only [supertypeFindings, chain, direct, ro.isInterface, ro.qualifiedName, rn.position,
    contains_supertypeNames_reordered ro, contains_supertypeNames_reordered rn]
  refine List.Perm.append (List.Perm.append_left _ ?_) ?_
  · exact (interfaceNames_reordered ro).flatMap_right _
  · exact (interfaceNames_reordered rn).flatMap_right _

theorem compareClass_reordered (ro : old.Reordered σ old') (rn : new.Reordered τ new') :
    (compareClass old' new').Perm (compareClass old new) := by
  rw [compareClass, standingFindings_reordered ro rn, modifierFindings_reordered ro rn,
    memberFindings_reordered ro rn, rn.exported, compareClass]
  refine List.Perm.append_left _ ?_
  split
  · exact ((supertypeFindings_reordered ro rn).append_left _).append_right _
  · exact .nil

theorem classCount_reordered (ro : old.Reordered σ old') (rn : new.Reordered τ new') :
    Session.classCount old' new' = Session.classCount old new := by
  have members : memberCount old'.decl = memberCount old.decl := by
    simp only [memberCount, exportedConstructors_reordered ro, exportedMethods_reordered ro,
      exportedFields_reordered ro, List.length_map]
  rw [Session.classCount, rn.exported, members, Session.classCount]

end Classes

section Snapshots

variable {σ τ : Equiv.Perm ClassId} {old old' new new' : Snapshot}

theorem isExported_reordered (r : Reordering σ old old') (id : ClassId) :
    isExported old' (σ id) = isExported old id := by
  unfold isExported
  rcases r.class?_cases id with ⟨before, after⟩ | ⟨c, interfaces, before, _, after⟩
  · rw [before, after]
  · rw [before, after]
    rfl

theorem enclosedByUnexported_reordered (r : Reordering σ old old') (id : ClassId) :
    enclosedByUnexported old' (σ id) = enclosedByUnexported old id := by
  rw [enclosedByUnexported, r.enclosing, List.any_map, enclosedByUnexported]
  refine congrArg (old.enclosing id).any (funext fun outer => ?_)
  rw [Function.comp_apply, isExported_reordered r]

theorem isObligation_reordered (ro : Reordering σ old old') (rn : Reordering τ new new')
    (hn : new.WellFormed) (id : ClassId) :
    isObligation old' new' (σ id) = isObligation old new id := by
  have withdrawn : outerWithdrawn old' new' (σ id) = outerWithdrawn old new id := by
    rw [outerWithdrawn, ro.enclosing, List.any_map, outerWithdrawn]
    refine congrArg (old.enclosing id).any (funext fun outer => ?_)
    rw [Function.comp_apply, ro.nameOf, rn.find? hn, Option.any_map]
    refine congrArg (new.find? (old.nameOf outer)).any (funext fun found => ?_)
    exact congrArg (!·) (isExported_reordered rn found)
  rw [isObligation, isExported_reordered ro, enclosedByUnexported_reordered ro, withdrawn,
    isObligation]

theorem counterpart?_cases (r : Reordering τ new new') (hn : new.WellFormed) {c c' : ClassDecl}
    (same : c'.qualifiedName = c.qualifiedName) :
    (counterpart? new c = none ∧ counterpart? new' c' = none) ∨ ∃ q q',
      counterpart? new c = some q ∧ counterpart? new' c' = some q' ∧ q.Reordered τ q' := by
  unfold counterpart?
  rw [same, r.find? hn]
  cases new.find? c.qualifiedName with
  | none => exact .inl ⟨rfl, rfl⟩
  | some id => exact Place.Reordered.of?_cases r hn.closed id

theorem obligationFindings_reordered (rn : Reordering τ new new') (hn : new.WellFormed)
    {p p' : Place} (r : p.Reordered σ p') :
    (obligationFindings new' p').Perm (obligationFindings new p) := by
  unfold obligationFindings
  rcases counterpart?_cases rn hn r.qualifiedName with ⟨before, after⟩ | ⟨q, q', before, after, rq⟩
  · rw [before, after, removedClass, r.modifiers, r.kind, r.qualifiedName, r.position]
    rfl
  · rw [before, after]
    exact compareClass_reordered r rq

theorem obligationCount_reordered (rn : Reordering τ new new') (hn : new.WellFormed)
    {p p' : Place} (r : p.Reordered σ p') :
    Session.obligationCount new' p' = Session.obligationCount new p := by
  unfold Session.obligationCount
  rcases counterpart?_cases rn hn r.qualifiedName with ⟨before, after⟩ | ⟨q, q', before, after, rq⟩
  · rw [before, after]
  · rw [before, after]
    exact classCount_reordered r rq

theorem addedClass_reordered (ro : Reordering σ old old') (ho : old.WellFormed) {q q' : Place}
    (r : q.Reordered τ q') : addedClass old' q' = addedClass old q := by
  rw [addedClass, r.exported, r.id, enclosedByUnexported_reordered r.snapshots, r.qualifiedName,
    ro.find? ho, Option.isNone_map, r.position, r.kind, addedClass]

theorem places_reordered {s t : Snapshot} (r : Reordering σ s t) (closed : s.Closed)
    {ids ids' : List ClassId} (perm : ids'.Perm (ids.map σ)) : ∃ places : List Place,
      (ids'.filterMap (Place.of? t)).Perm places ∧
        List.Forall₂ (Place.Reordered σ) (ids.filterMap (Place.of? s)) places := by
  refine ⟨(ids.map σ).filterMap (Place.of? t), perm.filterMap _, ?_⟩
  clear perm
  induction ids with
  | nil => exact .nil
  | cons id rest ih =>
    rw [List.map_cons, List.filterMap_cons, List.filterMap_cons]
    rcases Place.Reordered.of?_cases r closed id with ⟨before, after⟩ | ⟨p, q, before, after, rpq⟩
    · rw [before, after]
      exact ih
    · rw [before, after]
      exact .cons rpq ih

theorem obligations_reordered (ro : Reordering σ old old') (rn : Reordering τ new new')
    (ho : old.WellFormed) (hn : new.WellFormed) {p p' : Package}
    (perm : p'.classes.Perm (p.classes.map σ)) : ∃ places : List Place,
      (obligations old' new' p').Perm places ∧
        List.Forall₂ (Place.Reordered σ) (obligations old new p) places := by
  refine places_reordered ro ho.closed ?_
  refine (perm.filter _).trans (.of_eq ?_)
  rw [List.filter_map]
  exact congrArg (List.map σ) (List.filter_congr fun id _ => isObligation_reordered ro rn hn id)

/-- What corresponding places give, together, is the same up to order. -/
theorem flatMap_perm_of_forall₂ {places places' : List Place} {f g : Place → List Finding}
    (related : List.Forall₂ (Place.Reordered σ) places places')
    (same : ∀ p q, p.Reordered σ q → (g q).Perm (f p)) :
    (places'.flatMap g).Perm (places.flatMap f) := by
  induction related with
  | nil => exact .nil
  | cons first _ ih =>
    rw [List.flatMap_cons, List.flatMap_cons]
    exact (same _ _ first).append ih

theorem map_eq_of_forall₂ {β : Type} {places places' : List Place} {f g : Place → β}
    (related : List.Forall₂ (Place.Reordered σ) places places')
    (same : ∀ p q, p.Reordered σ q → g q = f p) : places'.map g = places.map f := by
  induction related with
  | nil => rfl
  | cons first _ ih => rw [List.map_cons, List.map_cons, same _ _ first, ih]

theorem packageFindings_reordered (ro : Reordering σ old old') (rn : Reordering τ new new')
    (ho : old.WellFormed) (hn : new.WellFormed) {p p' : Package} (name : p'.name = p.name)
    (position : p'.position = p.position) (perm : p'.classes.Perm (p.classes.map σ)) :
    (packageFindings old' new' p').Perm (packageFindings old new p) := by
  obtain ⟨listing, listed, packages⟩ := rn.packages
  unfold packageFindings
  rw [name, position, Snapshot.package?_relist hn packages]
  cases found : new.package? p.name with
  | none => exact .refl _
  | some q =>
    obtain ⟨places, places', related⟩ := obligations_reordered ro rn ho hn perm
    have hq : q ∈ new.packages := List.mem_of_find?_eq_some found
    obtain ⟨added, added', relatedAdded⟩ := places_reordered rn hn.closed (listed q hq)
    refine List.Perm.append ?_ ?_
    · exact (places'.flatMap_right _).trans (flatMap_perm_of_forall₂ related
        fun _ _ r => obligationFindings_reordered rn hn r)
    · exact (added'.flatMap_right _).trans (flatMap_perm_of_forall₂ relatedAdded
        fun _ _ r => .of_eq (addedClass_reordered ro ho r))

theorem packageCount_reordered (ro : Reordering σ old old') (rn : Reordering τ new new')
    (ho : old.WellFormed) (hn : new.WellFormed) {p p' : Package} (name : p'.name = p.name)
    (perm : p'.classes.Perm (p.classes.map σ)) :
    Session.packageCount old' new' p' = Session.packageCount old new p := by
  obtain ⟨listing, _, packages⟩ := rn.packages
  obtain ⟨places, places', related⟩ := obligations_reordered ro rn ho hn perm
  have counted := map_eq_of_forall₂ related fun _ _ r => obligationCount_reordered rn hn r
  rw [Session.packageCount, name, Snapshot.package?_relist hn packages, Option.isSome_map,
    (places'.map _).sum_eq, counted, Session.packageCount]

theorem compare_reordered (ro : Reordering σ old old') (rn : Reordering τ new new')
    (ho : old.WellFormed) (hn : new.WellFormed) : (compare old' new').Perm (compare old new) := by
  obtain ⟨oldListing, oldListed, oldPackages⟩ := ro.packages
  obtain ⟨newListing, _, newPackages⟩ := rn.packages
  refine List.Perm.append ?_ ?_
  · refine (oldPackages.flatMap_right _).trans ?_
    rw [List.flatMap_map]
    refine List.Perm.flatMap_left _ fun p hp => ?_
    exact packageFindings_reordered ro rn ho hn rfl rfl (oldListed p hp)
  · refine (newPackages.flatMap_right _).trans ?_
    rw [List.flatMap_map]
    refine List.Perm.flatMap_left _ fun q _ => .of_eq ?_
    rw [addedPackage, Snapshot.package?_relist ho oldPackages, Option.isNone_map]
    rfl

theorem tally_reordered (ro : Reordering σ old old') (rn : Reordering τ new new')
    (ho : old.WellFormed) (hn : new.WellFormed) : tally old' new' = tally old new := by
  obtain ⟨listing, listed, packages⟩ := ro.packages
  rw [Session.tally_eq_sum, (packages.map _).sum_eq, List.map_map, Session.tally_eq_sum]
  refine congrArg List.sum (List.map_congr_left fun p hp => ?_)
  exact packageCount_reordered ro rn ho hn rfl (listed p hp)

/-- Two snapshots, each listed in another order, give the same diagnostics up to their order, hide
as many, agree on whether there is an error, and count the same. -/
theorem order_independent (ho : old.WellFormed) (hn : new.WellFormed) (ro : Reordering σ old old')
    (rn : Reordering τ new new') (table : SeverityTable) :
    (check table old'.resolve new'.resolve).kept.Perm
        (check table old.resolve new.resolve).kept ∧
      (check table old'.resolve new'.resolve).suppressed =
        (check table old.resolve new.resolve).suppressed ∧
      (check table old'.resolve new'.resolve).hadError =
        (check table old.resolve new.resolve).hadError ∧
      tally old'.resolve new'.resolve = tally old.resolve new.resolve := by
  have ro' := ro.resolve ho
  have rn' := rn.resolve hn
  have perm := compare_reordered ro' rn' ho.resolve hn.resolve
  refine ⟨?_, ?_, ?_, tally_reordered ro' rn' ho.resolve hn.resolve⟩
  · rw [check, check, Log.kept_recordAll, Log.kept_recordAll]
    exact (perm.filterMap _).append_left _
  · rw [check, check, Log.suppressed_recordAll, Log.suppressed_recordAll]
    exact congrArg _ (perm.countP_eq _)
  · rw [check, check, Log.hadError_recordAll, Log.hadError_recordAll]
    refine congrArg _ (Bool.eq_iff_iff.mpr ?_)
    rw [List.any_eq_true, List.any_eq_true]
    exact exists_congr fun f => and_congr_left fun _ => perm.mem_iff

end Snapshots

section Examples

/-- A class with these interfaces below a class of another package. -/
def derivedFirst (interfaces : List String) : Snapshot :=
  ⟨[⟨"p", none, [0, 1]⟩, ⟨"q", none, [2]⟩],
    [heading "p" "Derived" .plain .everywhere (some "q.Base") interfaces,
      heading "p" "Marker" .interface .everywhere none [],
      heading "q" "Base" .plain .everywhere none []]⟩

def derivedLast (interfaces : List String) : Snapshot :=
  ⟨[⟨"q", none, [0]⟩, ⟨"p", none, [1, 2]⟩],
    [heading "q" "Base" .plain .everywhere none [],
      heading "p" "Marker" .interface .everywhere none [],
      heading "p" "Derived" .plain .everywhere (some "q.Base") interfaces]⟩

theorem wellFormed_derivedFirst (interfaces : List String) :
    (derivedFirst interfaces).WellFormed where
  packageNames := by simp [derivedFirst]
  classNames := by simp [derivedFirst, heading, ClassDecl.bare]
  listing := by simp [derivedFirst, Snapshot.ids, List.range_succ]
  supertypes := by simp [derivedFirst, linked_not_mem_heading]
  parameters := by simp [derivedFirst, declaredParameters_heading]

theorem reordering_derived {interfaces interfaces' : List String}
    (perm : interfaces'.Perm interfaces) :
    Reordering (Equiv.swap 0 2) (derivedFirst interfaces) (derivedLast interfaces') where
  ids := by
    intro id
    change Equiv.swap 0 2 id ∈ List.range 3 ↔ id ∈ List.range 3
    match id with
    | 0 | 1 | 2 => decide
    | other + 3 =>
      have fixed : Equiv.swap 0 2 (other + 3) = other + 3 :=
        Equiv.swap_apply_of_ne_of_ne (Nat.succ_ne_zero _) (by simp)
      rw [fixed]
  classes := by
    intro id c hc
    match id with
    | 0 =>
      cases hc
      refine ⟨interfaces'.map .named, ?_, rfl⟩
      change (interfaces'.map ClassRef.named).Perm ((interfaces.map ClassRef.named).map _)
      rw [List.map_map]
      exact perm.map _
    | 1 | 2 =>
      cases hc
      exact ⟨[], .nil, rfl⟩
  packages := by
    refine ⟨fun p => if p.name = "p" then [1, 2] else [0], ?_, List.Perm.swap _ _ _⟩
    change ∀ p ∈ [Package.mk "p" none [0, 1], Package.mk "q" none [2]], _
    simp only [List.forall_mem_cons, List.not_mem_nil, false_imp_iff, implies_true, and_true]
    decide

theorem order_independent_derived :
    (check .default (derivedLast ["java.io.Closeable", "p.Marker"]).resolve
        (derivedLast []).resolve).kept.Perm
      (check .default (derivedFirst ["p.Marker", "java.io.Closeable"]).resolve
        (derivedFirst []).resolve).kept ∧
    (check .default (derivedFirst ["p.Marker", "java.io.Closeable"]).resolve
      (derivedFirst []).resolve).kept.length = 2 := by
  have perm := (order_independent (wellFormed_derivedFirst ["p.Marker", "java.io.Closeable"])
    (wellFormed_derivedFirst []) (reordering_derived (List.Perm.swap _ _ _))
    (reordering_derived .nil) .default).1
  exact ⟨perm, by decide +kernel⟩

end Examples

end ApiCompat.Compatibility
