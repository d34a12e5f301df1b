import ApiCompat.Proofs.Compatibility.Severity
import ApiCompat.Proofs.Snapshot.Links

/-! Answering as well. Of two new classes, one answers for an old class as well as the other does if
it has the same head, the same answers for the members of the old one, a hierarchy that gives no
less, and no further method that must be implemented. Then its comparison has no more errors:
each part of it is looked at by its number of errors, in which no links and no texts occur. -/
namespace ApiCompat.Compatibility

def errorCount (findings : List Finding) : Nat :=
  findings.countP fun f => f.category.defaultSeverity == .error

section Counting

theorem errors_check_default (old new : Snapshot) :
    (check .default old new).errors = errorCount (compare old new) :=
  Log.errors_recordAll .default (compare old new)

theorem errorCount_append (first second : List Finding) :
    errorCount (first ++ second) = errorCount first + errorCount second :=
  List.countP_append

theorem errorCount_finding (holds : Bool) (category : Category) (location : Option Position)
    (message : String) : errorCount (finding holds category location message) =
      if category.defaultSeverity = .error then holds.toNat else 0 := by
  cases holds <;> by_cases h : category.defaultSeverity = .error <;> simp [errorCount, finding, h]

theorem errorCount_flatMap_le {α : Type} {list : List α} {f g : α → List Finding}
    (le : ∀ a ∈ list, errorCount (f a) ≤ errorCount (g a)) :
    errorCount (list.flatMap f) ≤ errorCount (list.flatMap g) := by
  induction list with
  | nil => exact Nat.le_refl _
  | cons a rest ih =>
    have first := le a List.mem_cons_self
    have others := ih fun b hb => le b (List.mem_cons_of_mem a hb)
    rw [List.flatMap_cons, List.flatMap_cons, errorCount_append, errorCount_append]
    omega

theorem errorCount_flatMap_eq_zero {α : Type} {list : List α} {f : α → List Finding}
    (none : ∀ a ∈ list, errorCount (f a) = 0) : errorCount (list.flatMap f) = 0 := by
  refine List.countP_eq_zero.mpr fun finding hfinding => ?_
  obtain ⟨a, ha, inside⟩ := List.mem_flatMap.mp hfinding
  exact List.countP_eq_zero.mp (none a ha) finding inside

/-- Parts with at most one error each have as many as there are parts with one. -/
theorem errorCount_flatMap_eq_countP {α : Type} {list : List α} {f : α → List Finding}
    {bad : α → Bool} (one : ∀ a, errorCount (f a) = (bad a).toNat) :
    errorCount (list.flatMap f) = list.countP bad := by
  induction list with
  | nil => rfl
  | cons a rest ih =>
    rw [List.flatMap_cons, errorCount_append, ih, one, List.countP_cons, Nat.add_comm]
    cases bad a <;> rfl

/-- A loss that is reported under some condition is reported no more often if there is less of it. -/
theorem toNat_loss_le (guard : Bool) {kept kept' : Bool} (h : kept = true → kept' = true) :
    (guard && !kept').toNat ≤ (guard && !kept).toNat := by
  cases kept with
  | true => rw [h rfl]
  | false => cases guard <;> cases kept' <;> decide

end Counting

/-- Of two new classes, the second one answers for the old class as well as the first one. -/
structure AnswersAsWell (old p q : Place) : Prop where
  isInterface : q.decl.isInterface = p.decl.isInterface
  modifiers : q.decl.modifiers = p.decl.modifiers
  scope : q.scope.unlink = p.scope.unlink
  constructor? : ∀ key,
    (q.constructor? key).map Callable.unlink = (p.constructor? key).map Callable.unlink
  method? : ∀ a ∈ old.decl.methods, (q.method? (a.key old.scope)).map Method.unlink =
    (p.method? (a.key old.scope)).map Method.unlink
  field? : ∀ a ∈ old.decl.fields,
    (q.decl.field? a.name).map Field.unlink = (p.decl.field? a.name).map Field.unlink
  methods : ∃ added : List Method,
    q.decl.methods.map Method.unlink = (p.decl.methods ++ added).map Method.unlink ∧
      ∀ m ∈ added, m.mustBeImplemented p.decl.isInterface = false
  inheritsExportedMethod : ∀ key,
    p.inheritsExportedMethod key = true → q.inheritsExportedMethod key = true
  inheritsExportedField : ∀ name,
    p.inheritsExportedField name = true → q.inheritsExportedField name = true
  superclassChain : p.snapshot.superclassChain p.id ⊆ q.snapshot.superclassChain q.id
  supertypeNames : p.snapshot.supertypeNames p.id ⊆ q.snapshot.supertypeNames q.id

section Members

variable {old p q : Place}

theorem errorCount_compareCallable (o n : Snapshot) (label : String) (a b : Callable) :
    errorCount (compareCallable o n label a b) =
      (a.modifiers.visibility.narrowed b.modifiers.visibility).toNat +
        (staticChanged a.modifiers b.modifiers).toNat := by
  have thrown (list : List ClassRef) (message : ClassRef → String) (location : Option Position) :
      errorCount (list.map fun ref => ⟨.changedThrows, message ref, location⟩) = 0 := by
    refine List.countP_eq_zero.mpr fun f hf => ?_
    obtain ⟨ref, _, rfl⟩ := List.mem_map.mp hf
    exact Bool.false_ne_true
  simp only [compareCallable, errorCount_append, errorCount_finding, thrown,
    Category.defaultSeverity, if_true, reduceCtorEq, if_false, Nat.add_zero]

theorem errorCount_compareMethod (a b : Method) : errorCount (compareMethod old p a b) =
    (a.returnType.canonical (a.scope old.scope) != b.returnType.canonical (b.scope p.scope)).toNat +
      (methodBecameAbstract a old.decl.isInterface b p.decl.isInterface).toNat +
      (methodBecameFinal old.decl a b).toNat +
      ((a.modifiers.visibility.narrowed b.modifiers.visibility).toNat +
        (staticChanged a.modifiers b.modifiers).toNat) := by
  simp only [compareMethod, errorCount_append, errorCount_finding, errorCount_compareCallable,
    Category.defaultSeverity, if_true, reduceCtorEq, if_false, Nat.add_zero]

theorem errorCount_compareField (a b : Field) : errorCount (compareField old p a b) =
    (a.type.canonical old.scope != b.type.canonical p.scope).toNat +
      (a.modifiers.visibility.narrowed b.modifiers.visibility).toNat +
      (staticChanged a.modifiers b.modifiers).toNat + (becameFinal a.modifiers b.modifiers).toNat +
      (constantValueChanged a b).toNat := by
  simp only [compareField, errorCount_append, errorCount_finding, Category.defaultSeverity,
    if_true, reduceCtorEq, if_false, Nat.add_zero]

/-- The method must be implemented by clients of the old class, and was not there before. -/
def demands (old : Place) (isInterface : Bool) (scope : Scope) (m : Method) : Bool :=
  !((old.method? (m.key scope)).isSome || old.inheritsMethod (m.key scope)) &&
    (m.mustBeImplemented isInterface &&
      (old.decl.isInterface || old.decl.hasExportedConstructor))

theorem errorCount_addedMethod (b : Method) :
    errorCount (addedMethod old p b) = (demands old p.decl.isInterface p.scope b).toNat := by
  unfold addedMethod demands isAddedAbstract
  by_cases known : (old.method? (b.key p.scope)).isSome || old.inheritsMethod (b.key p.scope)
  · simp [known, errorCount]
  · rw [if_neg known]
    split <;> rename_i demanded <;> simp [known, demanded, errorCount, Category.defaultSeverity]

/-- The errors for added methods, read off the methods without their links. -/
theorem errorCount_addedMethods (old p : Place) :
    errorCount ((exportedMethods p.decl).flatMap (addedMethod old p)) =
      (p.decl.methods.map Method.unlink).countP fun m =>
        demands old p.decl.isInterface p.scope.unlink m && m.modifiers.visibility.exported := by
  rw [errorCount_flatMap_eq_countP errorCount_addedMethod, exportedMethods, List.countP_filter,
    List.countP_map]
  refine List.countP_congr fun m _ => ?_
  have key : m.unlink.key p.scope.unlink = m.key p.scope := Callable.key_unlink
  have same : demands old p.decl.isInterface p.scope.unlink m.unlink =
      demands old p.decl.isInterface p.scope m := by
    rw [demands, key]
    rfl
  rw [Function.comp_apply, same]
  rfl

namespace AnswersAsWell

theorem compareMethod (h : AnswersAsWell old p q) (a : Method) {b b' : Method}
    (same : b'.unlink = b.unlink) :
    errorCount (compareMethod old q a b') = errorCount (compareMethod old p a b) := by
  have modifiers : b'.modifiers = b.modifiers :=
    (congrArg (fun m : Method => m.modifiers) same :)
  have final : methodBecameFinal old.decl a b' = methodBecameFinal old.decl a b := by
    rw [methodBecameFinal, modifiers, methodBecameFinal]
  have abstract : ∀ shape, b'.mustBeImplemented shape = b.mustBeImplemented shape := by
    intro shape
    rw [Method.mustBeImplemented, modifiers, Method.mustBeImplemented]
  rw [errorCount_compareMethod, errorCount_compareMethod,
    Method.returnType_eq_of_unlink same h.scope, h.isInterface, modifiers, final,
    methodBecameAbstract, abstract, methodBecameAbstract]

theorem compareField (h : AnswersAsWell old p q) (a : Field) {b b' : Field}
    (same : b'.unlink = b.unlink) :
    errorCount (compareField old q a b') = errorCount (compareField old p a b) := by
  have modifiers : b'.modifiers = b.modifiers :=
    (congrArg (fun f : Field => f.modifiers) same :)
  have value : b'.value = b.value := (congrArg Field.value same :)
  have type : b'.type.canonical q.scope = b.type.canonical p.scope :=
    Signature.canonical_eq_of_unlink (congrArg Field.type same) h.scope
  have constant : constantValueChanged a b' = constantValueChanged a b := by
    rw [constantValueChanged, value, isConstant, isConstant, modifiers]
    rfl
  rw [errorCount_compareField, errorCount_compareField, type, modifiers, constant]

theorem constructorFindings (h : AnswersAsWell old p q) (a : Constructor) :
    errorCount (constructorFindings old q a) = errorCount (constructorFindings old p a) := by
  have same := h.constructor? (a.key old.scope)
  unfold Compatibility.constructorFindings
  cases before : p.constructor? (a.key old.scope) with
  | none =>
    rw [before, Option.map_none, Option.map_eq_none_iff] at same
    rw [same]
  | some b =>
    rw [before, Option.map_some, Option.map_eq_some_iff] at same
    obtain ⟨b', after, same⟩ := same
    have modifiers : b'.modifiers = b.modifiers := (congrArg Callable.modifiers same :)
    simp only [after, errorCount_compareCallable, modifiers]

theorem methodFindings_le (h : AnswersAsWell old p q) {a : Method} (ha : a ∈ old.decl.methods) :
    errorCount (methodFindings old q a) ≤ errorCount (methodFindings old p a) := by
  have same := h.method? a ha
  unfold methodFindings
  cases before : p.method? (a.key old.scope) with
  | none =>
    rw [before, Option.map_none, Option.map_eq_none_iff] at same
    simp only [before, same, errorCount_finding, Category.defaultSeverity, if_true]
    exact toNat_loss_le true (h.inheritsExportedMethod _)
  | some b =>
    rw [before, Option.map_some, Option.map_eq_some_iff] at same
    obtain ⟨b', after, same⟩ := same
    simp only [before, after]
    exact (h.compareMethod a same).le

theorem fieldFindings_le (h : AnswersAsWell old p q) {a : Field} (ha : a ∈ old.decl.fields) :
    errorCount (fieldFindings old q a) ≤ errorCount (fieldFindings old p a) := by
  have same := h.field? a ha
  unfold fieldFindings
  cases before : p.decl.field? a.name with
  | none =>
    rw [before, Option.map_none, Option.map_eq_none_iff] at same
    simp only [same, errorCount_finding, Category.defaultSeverity, if_true]
    exact toNat_loss_le true (h.inheritsExportedField _)
  | some b =>
    rw [before, Option.map_some, Option.map_eq_some_iff] at same
    obtain ⟨b', after, same⟩ := same
    simp only [after]
    exact (h.compareField a same).le

/-- Methods that need no implementation demand nothing of clients. -/
theorem addedMethods (h : AnswersAsWell old p q) :
    errorCount ((exportedMethods q.decl).flatMap (addedMethod old q)) =
      errorCount ((exportedMethods p.decl).flatMap (addedMethod old p)) := by
  obtain ⟨added, methods, optional⟩ := h.methods
  have harmless : (added.map Method.unlink).countP (fun m =>
      demands old p.decl.isInterface p.scope.unlink m && m.modifiers.visibility.exported) = 0 := by
    refine List.countP_eq_zero.mpr fun m hm => ?_
    obtain ⟨n, hn, rfl⟩ := List.mem_map.mp hm
    have free : n.unlink.mustBeImplemented p.decl.isInterface = false := optional n hn
    simp [demands, free]
  rw [errorCount_addedMethods, errorCount_addedMethods, methods, h.isInterface, h.scope,
    List.map_append, List.countP_append, harmless, Nat.add_zero]

theorem memberFindings_le (h : AnswersAsWell old p q) :
    errorCount (memberFindings old q) ≤ errorCount (memberFindings old p) := by
  -- Constructors and fields that are new are no errors, of whichever class.
  have hiddenConstructors : ∀ r : Place, errorCount
      ((exportedConstructors r.decl).flatMap (addedConstructor old r)) = 0 := by
    intro r
    refine errorCount_flatMap_eq_zero fun b _ => ?_
    rw [addedConstructor, errorCount_finding]
    rfl
  have hiddenFields : ∀ r : Place,
      errorCount ((exportedFields r.decl).flatMap (addedField old r)) = 0 := by
    intro r
    refine errorCount_flatMap_eq_zero fun b _ => ?_
    rw [addedField, errorCount_finding]
    rfl
  have constructors : errorCount ((exportedConstructors old.decl).flatMap
      (Compatibility.constructorFindings old q)) ≤ errorCount
        ((exportedConstructors old.decl).flatMap (Compatibility.constructorFindings old p)) :=
    errorCount_flatMap_le fun a _ => (h.constructorFindings a).le
  have methods : errorCount ((exportedMethods old.decl).flatMap (methodFindings old q)) ≤
      errorCount ((exportedMethods old.decl).flatMap (methodFindings old p)) :=
    errorCount_flatMap_le fun a ha => h.methodFindings_le (List.mem_of_mem_filter ha)
  have fields : errorCount ((exportedFields old.decl).flatMap (fieldFindings old q)) ≤
      errorCount ((exportedFields old.decl).flatMap (fieldFindings old p)) :=
    errorCount_flatMap_le fun a ha => h.fieldFindings_le (List.mem_of_mem_filter ha)
  simp only [memberFindings, errorCount_append, hiddenConstructors, hiddenFields, h.addedMethods,
    Nat.add_zero]
  omega

theorem supertypeFindings_le (h : AnswersAsWell old p q) :
    errorCount (supertypeFindings old q) ≤ errorCount (supertypeFindings old p) := by
  have chain : ∀ name, (p.snapshot.superclassChain p.id).contains name = true →
      (q.snapshot.superclassChain q.id).contains name = true := by
    intro name
    rw [List.contains_iff_mem, List.contains_iff_mem]
    exact @h.superclassChain name
  have names : ∀ name, (p.snapshot.supertypeNames p.id).contains name = true →
      (q.snapshot.supertypeNames q.id).contains name = true := by
    intro name
    rw [List.contains_iff_mem, List.contains_iff_mem]
    exact @h.supertypeNames name
  simp only [supertypeFindings, errorCount_append]
  refine Nat.add_le_add (Nat.add_le_add ?_ ?_) ?_
  · simp only [errorCount_finding, Category.defaultSeverity, if_true]
    cases old.decl.superclass with
    | none => exact Nat.le_refl _
    | some ref => exact toNat_loss_le _ (chain _)
  · refine errorCount_flatMap_le fun i _ => ?_
    simp only [errorCount_finding, Category.defaultSeverity, if_true]
    exact toNat_loss_le true (names i)
  · refine (errorCount_flatMap_eq_zero ?_).le.trans (Nat.zero_le _)
    intro i _
    rw [errorCount_finding]
    rfl

theorem compareClass_le (h : AnswersAsWell old p q) :
    errorCount (compareClass old q) ≤ errorCount (compareClass old p) := by
  have standing : errorCount (standingFindings old.decl q.decl) =
      errorCount (standingFindings old.decl p.decl) := by
    have exchanged : kindIncompatible old.decl.kind q.decl.kind =
        kindIncompatible old.decl.kind p.decl.kind :=
      congrArg (old.decl.isInterface != ·) h.isInterface
    simp only [standingFindings, errorCount_append, errorCount_finding, exchanged, h.modifiers]
  have changed : errorCount (modifierFindings old.decl q.decl) =
      errorCount (modifierFindings old.decl p.decl) := by
    simp only [modifierFindings, errorCount_append, errorCount_finding, classBecameAbstract,
      h.modifiers, Category.defaultSeverity, reduceCtorEq, if_false]
  have exported : q.decl.exported = p.decl.exported :=
    congrArg (fun m : Modifiers => m.visibility.exported) h.modifiers
  have supertypes := h.supertypeFindings_le
  have members := h.memberFindings_le
  rw [compareClass, compareClass, errorCount_append, errorCount_append, standing, exported]
  split
  · simp only [errorCount_append]
    omega
  · exact Nat.le_refl _

end AnswersAsWell

end Members

end ApiCompat.Compatibility
