import ApiCompat.Proofs.Compatibility.Contract
import ApiCompat.Proofs.Diagnostic.Recording
import ApiCompat.Proofs.Snapshot.WellFormed

/-! The verdict is exact. Each part of the comparison leaves no error exactly if its clause of
the contract holds; the parts follow the nesting of the comparison, from the single finding up
to two whole snapshots. -/
namespace ApiCompat.Compatibility

/-- A single finding of such a category is absent exactly if its condition fails. -/
theorem avoids_finding_iff {bad : Category → Prop} {holds : Bool} {category : Category}
    {location : Option Position} {message : String} :
    Avoids bad (finding holds category location message) ↔ (bad category → holds = false) := by
  cases holds with
  | false => simp [finding, Avoids.nil]
  | true => simp [finding, Avoids.singleton_iff]

theorem narrowed_eq_false_iff {v w : Visibility} : v.narrowed w = false ↔ v.rank ≤ w.rank := by
  simp [Visibility.narrowed]

theorem accessKept_iff {m n : Modifiers} : AccessKept m n ↔
    m.visibility.narrowed n.visibility = false ∧ staticChanged m n = false := by
  rw [narrowed_eq_false_iff, staticChanged, bne_eq_false_iff_eq]
  exact ⟨fun h => ⟨h.visibility, h.static⟩, fun h => ⟨h.1, h.2⟩⟩

theorem becameFinal_eq_false_iff {m n : Modifiers} :
    becameFinal m n = false ↔ (n.isFinal = true → m.isFinal = true) := by
  cases hm : m.isFinal <;> simp [becameFinal, hm]

section Members

variable {old new : Place}

theorem harmless_compareCallable_iff {before after : Snapshot} {label : String}
    {a b : Callable} :
    Harmless (compareCallable before after label a b) ↔ AccessKept a.modifiers b.modifiers := by
  simp only [compareCallable, Avoids.append_iff, avoids_finding_iff, Avoids.map_iff,
    Category.IsError, Category.defaultSeverity, accessKept_iff, reduceCtorEq, true_imp_iff,
    false_imp_iff, and_true, not_false_eq_true, implies_true]

theorem harmless_constructorFindings_iff {a : Constructor} :
    Harmless (constructorFindings old new a) ↔
      ∃ b, new.DeclaresConstructor (a.key old.scope) b ∧ AccessKept a.modifiers b.modifiers := by
  unfold constructorFindings
  cases found : new.constructor? (a.key old.scope) with
  | some b =>
    simp only [harmless_compareCallable_iff, ← Place.constructor?_eq_some_iff, found,
      Option.some.injEq, exists_eq_left']
  | none =>
    simp only [Avoids.singleton_iff, Category.IsError, Category.defaultSeverity,
      ← Place.constructor?_eq_some_iff, found, reduceCtorEq, false_and, exists_false,
      not_true_eq_false]

theorem methodBecameAbstract_eq_false_iff {a b : Method} {before after : Bool} :
    methodBecameAbstract a before b after = false ↔
      (b.mustBeImplemented after = true → a.mustBeImplemented before = true) := by
  cases h : a.mustBeImplemented before <;> simp [methodBecameAbstract, h]

theorem methodBecameFinal_eq_false_iff {c : ClassDecl} {a b : Method} :
    methodBecameFinal c a b = false ↔ (b.modifiers.isFinal = true →
      a.modifiers.isFinal = true ∨ c.modifiers.isFinal = true ∨ a.modifiers.isStatic = true) := by
  cases ha : a.modifiers.isFinal <;> cases hc : c.modifiers.isFinal <;>
    simp [methodBecameFinal, becameFinal, ha, hc]

theorem harmless_compareMethod_iff {a b : Method} :
    Harmless (compareMethod old new a b) ↔ MethodKept old new a b := by
  simp only [compareMethod, Avoids.append_iff, avoids_finding_iff,
    harmless_compareCallable_iff, Category.IsError, Category.defaultSeverity, reduceCtorEq,
    true_imp_iff, false_imp_iff, and_true, bne_eq_false_iff_eq,
    methodBecameAbstract_eq_false_iff, methodBecameFinal_eq_false_iff]
  constructor
  · rintro ⟨⟨⟨returnType, implemented⟩, overridable⟩, access⟩
    exact ⟨access, returnType, implemented, overridable⟩
  · rintro ⟨access, returnType, implemented, overridable⟩
    exact ⟨⟨⟨returnType, implemented⟩, overridable⟩, access⟩

theorem harmless_methodFindings_iff {a : Method} :
    Harmless (methodFindings old new a) ↔
      (∃ b, new.DeclaresMethod (a.key old.scope) b ∧ MethodKept old new a b) ∨
      (∀ b ∈ new.decl.methods, b.key new.scope ≠ a.key old.scope) ∧
        ∃ p ∈ new.ancestors, ∃ b, p.DeclaresMethod (a.key old.scope) b ∧
          b.modifiers.visibility.exported = true := by
  unfold methodFindings
  rw [← Place.method?_eq_none_iff, ← Place.inheritsExportedMethod_iff]
  cases found : new.method? (a.key old.scope) with
  | some b =>
    simp only [harmless_compareMethod_iff, ← Place.method?_eq_some_iff, found,
      Option.some.injEq, exists_eq_left', reduceCtorEq, false_and, or_false]
  | none =>
    simp only [avoids_finding_iff, Category.IsError, Category.defaultSeverity,
      ← Place.method?_eq_some_iff, found, reduceCtorEq, false_and, exists_false, false_or, true_and,
      true_imp_iff, Bool.not_eq_false']

theorem constantValueChanged_eq_false_iff {a b : Field} : constantValueChanged a b = false ↔
    ∀ x y, a.value = some x → b.value = some y →
      a.modifiers.isStatic = true → a.modifiers.isFinal = true →
      b.modifiers.isStatic = true → b.modifiers.isFinal = true → x = y := by
  unfold constantValueChanged isConstant
  cases ha : a.value with
  | none => simp
  | some x =>
    cases hb : b.value with
    | none => simp
    | some y => simp

theorem harmless_compareField_iff {a b : Field} :
    Harmless (compareField old new a b) ↔ FieldKept old new a b := by
  simp only [compareField, Avoids.append_iff, avoids_finding_iff, Category.IsError,
    Category.defaultSeverity, reduceCtorEq, true_imp_iff, false_imp_iff, and_true,
    bne_eq_false_iff_eq, becameFinal_eq_false_iff, constantValueChanged_eq_false_iff]
  constructor
  · rintro ⟨⟨⟨⟨type, visibility⟩, static⟩, assignable⟩, constant⟩
    exact ⟨accessKept_iff.mpr ⟨visibility, static⟩, type, assignable, constant⟩
  · rintro ⟨access, type, assignable, constant⟩
    obtain ⟨visibility, static⟩ := accessKept_iff.mp access
    exact ⟨⟨⟨⟨type, visibility⟩, static⟩, assignable⟩, constant⟩

theorem harmless_fieldFindings_iff {a : Field} :
    Harmless (fieldFindings old new a) ↔
      (∃ b, new.DeclaresField a.name b ∧ FieldKept old new a b) ∨
      (∀ b ∈ new.decl.fields, b.name ≠ a.name) ∧
        ∃ p ∈ new.ancestors, ∃ b, p.DeclaresField a.name b ∧
          b.modifiers.visibility.exported = true := by
  unfold fieldFindings
  rw [← Place.field?_eq_none_iff, ← Place.inheritsExportedField_iff]
  cases found : new.decl.field? a.name with
  | some b =>
    simp only [harmless_compareField_iff, ← Place.field?_eq_some_iff, found,
      Option.some.injEq, exists_eq_left', reduceCtorEq, false_and, or_false]
  | none =>
    simp only [avoids_finding_iff, Category.IsError, Category.defaultSeverity,
      ← Place.field?_eq_some_iff, found, reduceCtorEq, false_and, exists_false, false_or, true_and,
      true_imp_iff, Bool.not_eq_false']

theorem isAddedAbstract_iff {b : Method} : isAddedAbstract new.decl old.decl b = true ↔
    b.mustBeImplemented new.decl.isInterface = true ∧
      (old.decl.isInterface = true ∨ Creatable old.decl) := by
  simp only [isAddedAbstract, Bool.and_eq_true, Bool.or_eq_true, Creatable,
    ClassDecl.hasExportedConstructor, List.any_eq_true]
  cases old.decl.isInterface <;> simp

theorem harmless_addedMethod_iff {b : Method} :
    Harmless (addedMethod old new b) ↔
      (b.mustBeImplemented new.decl.isInterface = true →
        (old.decl.isInterface = true ∨ Creatable old.decl) →
        (∃ a ∈ old.decl.methods, a.key old.scope = b.key new.scope) ∨
        ∃ p ∈ old.ancestors, ∃ a ∈ p.decl.methods, a.key p.scope = b.key new.scope) := by
  have declared : (old.method? (b.key new.scope)).isSome = true ↔
      ∃ a ∈ old.decl.methods, a.key old.scope = b.key new.scope := by
    simp [Place.method?]
  rw [← declared, ← Place.inheritsMethod_iff, ← Bool.or_eq_true, ← and_imp,
    ← isAddedAbstract_iff]
  unfold addedMethod
  by_cases known : (old.method? (b.key new.scope)).isSome || old.inheritsMethod (b.key new.scope)
  · simp only [known, if_true, Avoids.nil, implies_true]
  · rw [if_neg known]
    by_cases demand : isAddedAbstract new.decl old.decl b = true
    · simp [demand, known, Avoids.singleton_iff, Category.IsError, Category.defaultSeverity]
    · simp [demand, Avoids.singleton_iff, Category.IsError, Category.defaultSeverity]

end Members

section Classes

variable {old new : Place}

theorem harmless_memberFindings_iff : Harmless (memberFindings old new) ↔
    (∀ a ∈ exportedConstructors old.decl, Harmless (constructorFindings old new a)) ∧
    (∀ a ∈ exportedMethods old.decl, Harmless (methodFindings old new a)) ∧
    (∀ b ∈ exportedMethods new.decl, Harmless (addedMethod old new b)) ∧
    (∀ a ∈ exportedFields old.decl, Harmless (fieldFindings old new a)) := by
  have hiddenConstructor : ∀ b, Harmless (addedConstructor old new b) := by
    intro b
    simp [addedConstructor, avoids_finding_iff, Category.IsError, Category.defaultSeverity]
  have hiddenField : ∀ b, Harmless (addedField old new b) := by
    intro b
    simp [addedField, avoids_finding_iff, Category.IsError, Category.defaultSeverity]
  simp only [memberFindings, Avoids.append_iff, Avoids.flatMap_iff, hiddenConstructor,
    hiddenField, implies_true, and_true, and_assoc]

theorem harmless_standingFindings_iff {a b : ClassDecl} : Harmless (standingFindings a b) ↔
    a.isInterface = b.isInterface ∧
      a.modifiers.visibility.rank ≤ b.modifiers.visibility.rank := by
  simp only [standingFindings, Avoids.append_iff, avoids_finding_iff, Category.IsError,
    Category.defaultSeverity, true_imp_iff, narrowed_eq_false_iff, kindIncompatible,
    bne_eq_false_iff_eq, ClassDecl.isInterface]

theorem harmless_modifierFindings_iff {a b : ClassDecl} : Harmless (modifierFindings a b) ↔
    a.modifiers.isStatic = b.modifiers.isStatic ∧
      (Creatable a → b.modifiers.isFinal = true → a.modifiers.isFinal = true) ∧
      (Creatable a → b.modifiers.isAbstract = true → a.modifiers.isAbstract = true) := by
  have final : (becameFinal a.modifiers b.modifiers && instantiable a) = false ↔
      (Creatable a → b.modifiers.isFinal = true → a.modifiers.isFinal = true) := by
    rw [← instantiable_iff, ← becameFinal_eq_false_iff]
    cases instantiable a <;> simp
  have abstract : (classBecameAbstract a b && instantiable a) = false ↔
      (Creatable a → b.modifiers.isAbstract = true → a.modifiers.isAbstract = true) := by
    rw [← instantiable_iff]
    -- A creatable class is no interface, so the rule's own test of that adds nothing.
    cases hi : a.isInterface <;> cases ha : a.modifiers.isAbstract <;>
      cases hk : a.hasExportedConstructor <;>
      simp [classBecameAbstract, instantiable, hi, ha, hk]
  simp only [modifierFindings, Avoids.append_iff, avoids_finding_iff,
    Category.IsError, Category.defaultSeverity, reduceCtorEq, true_imp_iff, false_imp_iff, and_true,
    staticChanged, bne_eq_false_iff_eq, final, abstract, and_assoc]

theorem harmless_supertypeFindings_iff : Harmless (supertypeFindings old new) ↔
    (∀ ref, old.decl.superclass = some ref → old.decl.isInterface = false →
      old.snapshot.nameOfRef ref ≠ Signature.rootClass →
      old.snapshot.nameOfRef ref ∈ new.snapshot.superclassChain new.id) ∧
    (∀ ref ∈ old.decl.interfaces,
      old.snapshot.nameOfRef ref ∈ new.snapshot.supertypeNames new.id) := by
  simp only [supertypeFindings, Avoids.append_iff, Avoids.flatMap_iff, avoids_finding_iff,
    Category.IsError, Category.defaultSeverity, reduceCtorEq, true_imp_iff, false_imp_iff,
    implies_true, and_true, List.forall_mem_map, Bool.not_eq_false', List.contains_iff_mem]
  cases old.decl.superclass with
  | none => simp
  | some ref => simp [Bool.and_eq_false_imp]

theorem harmless_compareClass_iff (exported : old.decl.exported = true) :
    Harmless (compareClass old new) ↔ ClassKept old new := by
  unfold compareClass
  simp only [Avoids.append_iff, harmless_standingFindings_iff]
  by_cases still : new.decl.exported = true
  · simp only [if_pos still, Avoids.append_iff, harmless_modifierFindings_iff,
      harmless_supertypeFindings_iff, harmless_memberFindings_iff]
    simp only [exportedConstructors, exportedMethods, exportedFields, List.mem_filter, and_imp,
      harmless_constructorFindings_iff, harmless_methodFindings_iff, harmless_addedMethod_iff,
      harmless_fieldFindings_iff]
    constructor
    · rintro ⟨⟨shape, visibility⟩, ⟨⟨static, extensible, concrete⟩, superclass, interfaces⟩,
        constructors, methods, demands, fields⟩
      exact ⟨shape, ⟨visibility, static⟩, extensible, concrete, superclass, interfaces,
        constructors, methods, demands, fields⟩
    · rintro ⟨shape, ⟨visibility, static⟩, extensible, concrete, superclass, interfaces,
        constructors, methods, demands, fields⟩
      exact ⟨⟨shape, visibility⟩, ⟨⟨static, extensible, concrete⟩, superclass, interfaces⟩,
        constructors, methods, demands, fields⟩
  · -- A class that left the API is narrower than before, which both sides exclude.
    have narrower : ¬old.decl.modifiers.visibility.rank ≤ new.decl.modifiers.visibility.rank := by
      rw [ClassDecl.exported, Visibility.exported_iff] at exported still
      omega
    constructor
    · rintro ⟨⟨_, visibility⟩, _⟩
      exact absurd visibility narrower
    · intro kept
      exact absurd kept.access.visibility narrower

end Classes

section Snapshots

variable {old new : Snapshot}

theorem exported_of_obligation {id : ClassId} {c : ClassDecl} (hc : old.class? id = some c)
    (owed : Obligation old new id) : c.exported = true := by
  simpa [isExported, hc] using owed.exported

theorem harmless_obligationFindings_iff (wf : new.WellFormed) {id : ClassId} {c : ClassDecl}
    (exported : c.exported = true) : Harmless (obligationFindings new ⟨old, id, c⟩) ↔
      ∃ id' d, new.class? id' = some d ∧ d.qualifiedName = c.qualifiedName ∧
        ClassKept ⟨old, id, c⟩ ⟨new, id', d⟩ := by
  unfold obligationFindings counterpart?
  constructor
  · intro harmless
    cases found : new.find? c.qualifiedName with
    | none =>
      simp [found, Avoids.singleton_iff, removedClass, Category.IsError,
        Category.defaultSeverity] at harmless
    | some id' =>
      obtain ⟨d, hd, hname⟩ := Snapshot.class?_of_find? found
      simp only [found, Option.bind_some, Place.of?, hd, Option.map_some] at harmless
      exact ⟨id', d, hd, hname, (harmless_compareClass_iff exported).mp harmless⟩
  · rintro ⟨id', d, hd, hname, kept⟩
    have found := wf.find?_qualifiedName hd
    rw [hname] at found
    simp only [found, Option.bind_some, Place.of?, hd, Option.map_some]
    exact (harmless_compareClass_iff exported).mpr kept

theorem mem_obligations_iff {p : Package} {place : Place} : place ∈ obligations old new p ↔
    ∃ id ∈ p.classes, ∃ c, old.class? id = some c ∧ Obligation old new id ∧
      place = ⟨old, id, c⟩ := by
  simp only [obligations, List.mem_filterMap, List.mem_filter, isObligation_iff, Place.of?,
    Option.map_eq_some_iff]
  constructor
  · rintro ⟨id, ⟨hid, owed⟩, c, hc, rfl⟩
    exact ⟨id, hid, c, hc, owed, rfl⟩
  · rintro ⟨id, hid, c, hc, owed, rfl⟩
    exact ⟨id, ⟨hid, owed⟩, c, hc, rfl⟩

theorem harmless_packageFindings_iff {p : Package} : Harmless (packageFindings old new p) ↔
    (∃ q ∈ new.packages, q.name = p.name) ∧
      ∀ place ∈ obligations old new p, Harmless (obligationFindings new place) := by
  have hidden : ∀ place, Harmless (addedClass old place) := by
    intro place
    simp [addedClass, avoids_finding_iff, Category.IsError, Category.defaultSeverity]
  have declared : (∃ q ∈ new.packages, q.name = p.name) ↔ (new.package? p.name).isSome = true := by
    simp [Snapshot.package?]
  rw [declared]
  unfold packageFindings
  cases new.package? p.name with
  | none => simp [Avoids.singleton_iff, Category.IsError, Category.defaultSeverity]
  | some q => simp [Avoids.append_iff, Avoids.flatMap_iff, hidden]

theorem harmless_compare_iff (ho : old.WellFormed) (hn : new.WellFormed) :
    Harmless (compare old new) ↔ Compatible old new := by
  have hidden : ∀ q, Harmless (addedPackage old q) := by
    intro q
    simp [addedPackage, avoids_finding_iff, Category.IsError, Category.defaultSeverity]
  simp only [compare, Avoids.append_iff, Avoids.flatMap_iff, hidden, implies_true, and_true,
    harmless_packageFindings_iff]
  constructor
  · intro harmless
    refine ⟨fun p hp => (harmless p hp).1, ?_⟩
    intro id c hc owed
    obtain ⟨p, hp, hid⟩ := ho.exists_package (Snapshot.mem_ids_of_class? hc)
    have kept := (harmless p hp).2 ⟨old, id, c⟩
      (mem_obligations_iff.mpr ⟨id, hid, c, hc, owed, rfl⟩)
    exact (harmless_obligationFindings_iff hn (exported_of_obligation hc owed)).mp kept
  · intro compatible p hp
    refine ⟨compatible.packages p hp, ?_⟩
    intro place hplace
    obtain ⟨id, _, c, hc, owed, rfl⟩ := mem_obligations_iff.mp hplace
    exact (harmless_obligationFindings_iff hn (exported_of_obligation hc owed)).mpr
      (compatible.classes id c hc owed)

/-- The comparison has no error exactly if the new snapshot keeps what the old one promised. -/
theorem hadError_eq_false_iff_compatible (ho : old.WellFormed) (hn : new.WellFormed) :
    (check .default old new).hadError = false ↔ Compatible old new := by
  rw [check, Log.hadError_default_iff]
  exact harmless_compare_iff ho hn

end Snapshots

def publicMethod (name : String) : Method where
  name := name
  modifiers := { Modifiers.none with visibility := .everywhere }
  deprecated := false
  position := none
  typeParameters := []
  parameters := []
  exceptions := []
  returnType := .ofName .primitive "void"

/-- A public class above another one, with methods of these names. -/
def twoClasses (upper lower : List String) : Snapshot :=
  let declared (name : String) : ClassDecl :=
    { ClassDecl.bare "p" name .plain with
      modifiers := { Modifiers.none with visibility := .everywhere } }
  { packages := [⟨"p", none, [0, 1]⟩]
    classes := [{ declared "Base" with methods := upper.map publicMethod },
      { declared "Derived" with
        superclass := some (.linked 0), methods := lower.map publicMethod }] }

theorem wellFormed_twoClasses (upper lower : List String) :
    (twoClasses upper lower).WellFormed where
  packageNames := by simp [twoClasses]
  classNames := by simp [twoClasses, ClassDecl.bare]
  listing := by simp [twoClasses, Snapshot.ids, List.range_succ]
  supertypes := by simp [twoClasses, ClassDecl.bare, ClassDecl.supertypes, Snapshot.ids]
  parameters := by
    simp [twoClasses, ClassDecl.bare, ClassDecl.declaredParameters, ClassDecl.callables,
      publicMethod]

/-- A method may move to a superclass, since it is inherited from there, and not back. -/
theorem compatible_pulledUp :
    (twoClasses [] ["run"]).WellFormed ∧ (twoClasses ["run"] []).WellFormed ∧
      Compatible (twoClasses [] ["run"]) (twoClasses ["run"] []) ∧
      ¬Compatible (twoClasses ["run"] []) (twoClasses [] ["run"]) := by
  have below := wellFormed_twoClasses [] ["run"]
  have above := wellFormed_twoClasses ["run"] []
  refine ⟨below, above, ?_, ?_⟩
  · exact (hadError_eq_false_iff_compatible below above).mp (by decide +kernel)
  · rw [← hadError_eq_false_iff_compatible above below]
    decide +kernel

end ApiCompat.Compatibility
