import ApiCompat.Compatibility.Comparison
import ApiCompat.Proofs.Diagnostic.Recording
import ApiCompat.Proofs.Snapshot.Renaming

/-! Renaming type variables does not change a comparison. Both snapshots may be renamed, each in
its own way: keys and canonical forms have no variables in them, and everything else that is
compared has none to begin with. So the same findings come in the same order, at the same
places; only the types that messages show are written with other names. -/
namespace ApiCompat

/-- What a finding is about, its text left out. -/
def Finding.outline (f : Finding) : Category × Option Position := (f.category, f.location)

namespace Compatibility

def outlines (findings : List Finding) : List (Category × Option Position) :=
  findings.map Finding.outline

@[simp] theorem outlines_append (first second : List Finding) :
    outlines (first ++ second) = outlines first ++ outlines second :=
  List.map_append

@[simp] theorem outlines_finding (holds : Bool) (category : Category)
    (location : Option Position) (message : String) :
    outlines (finding holds category location message) =
      if holds then [(category, location)] else [] := by
  cases holds <;> rfl

theorem outlines_flatMap {α : Type} {list : List α} {first second : α → List Finding}
    (same : ∀ a ∈ list, outlines (first a) = outlines (second a)) :
    outlines (list.flatMap first) = outlines (list.flatMap second) := by
  rw [outlines, outlines, List.map_flatMap, List.map_flatMap]
  exact List.flatMap_congr same

theorem outlines_flatMap_map {α β : Type} {list : List α} (g : α → β) {first : β → List Finding}
    {second : α → List Finding} (same : ∀ a ∈ list, outlines (first (g a)) = outlines (second a)) :
    outlines ((list.map g).flatMap first) = outlines (list.flatMap second) := by
  rw [List.flatMap_map]
  exact outlines_flatMap same

/-- Two logs that differ in texts only. -/
structure SameOutcome (first second : Log) : Prop where
  kept : first.kept.map (·.toFinding.outline) = second.kept.map (·.toFinding.outline)
  suppressed : first.suppressed = second.suppressed
  hadError : first.hadError = second.hadError

theorem outlines_kept (table : SeverityTable) (findings : List Finding) :
    ((Log.empty table).recordAll findings).kept.map (·.toFinding.outline) =
      (outlines findings).filter fun o => table.severity o.1 ≠ .hidden := by
  rw [Log.kept_recordAll, outlines]
  change (findings.filterMap table.diagnose?).map _ = _
  induction findings with
  | nil => rfl
  | cons f rest ih =>
    by_cases hidden : table.severity f.category = .hidden
    · simpa [SeverityTable.diagnose?, Finding.outline, hidden] using ih
    · simpa [SeverityTable.diagnose?, Finding.outline, hidden] using ih

/-- What is hidden and what is an error depends on categories only. -/
theorem sameOutcome_of_outlines {first second : List Finding}
    (same : outlines first = outlines second) (table : SeverityTable) :
    SameOutcome ((Log.empty table).recordAll first) ((Log.empty table).recordAll second) := by
  have hidden (findings : List Finding) : ((Log.empty table).recordAll findings).suppressed =
      (outlines findings).countP fun o => table.severity o.1 = .hidden := by
    rw [Log.suppressed_recordAll, outlines, List.countP_map]
    exact Nat.zero_add _
  have erroneous (findings : List Finding) : ((Log.empty table).recordAll findings).hadError =
      (outlines findings).any fun o => table.severity o.1 == .error := by
    rw [Log.hadError_recordAll, outlines, List.any_map]
    rfl
  constructor
  · rw [outlines_kept, outlines_kept, same]
  · rw [hidden, hidden, same]
  · rw [erroneous, erroneous, same]

namespace Place

def rename (name : ClassId → String → String) (p : Place) : Place :=
  ⟨p.snapshot.rename name, p.id, p.decl.rename (name p.id)⟩

theorem decl_rename (name : ClassId → String → String) (p : Place) :
    (p.rename name).decl = p.decl.rename (name p.id) := rfl

/-- The place is in a well-formed snapshot for which the renaming is one. -/
structure Renamable (name : ClassId → String → String) (p : Place) : Prop where
  wellFormed : p.snapshot.WellFormed
  isRenaming : p.snapshot.IsRenaming name
  declared : p.snapshot.class? p.id = some p.decl

variable {name : ClassId → String → String} {s : Snapshot} {p : Place}

theorem of?_rename (id : ClassId) :
    Place.of? (s.rename name) id = (Place.of? s id).map (Place.rename name) := by
  unfold of?
  rw [Snapshot.class?_rename, Option.map_map, Option.map_map]
  rfl

theorem renamable_of_of? (wf : s.WellFormed) (named : s.IsRenaming name) {id : ClassId}
    (h : Place.of? s id = some p) : p.Renamable name := by
  obtain ⟨c, hc, rfl⟩ := Option.map_eq_some_iff.mp h
  exact ⟨wf, named, hc⟩

theorem field?_rename (f : String → String) (c : ClassDecl) (field : String) :
    (c.rename f).field? field = (c.field? field).map (Field.rename f) :=
  List.find?_map

namespace Renamable

theorem scope_rename (h : p.Renamable name) :
    (p.rename name).scope = p.scope.rename (name p.id) :=
  Snapshot.typeScope_rename h.isRenaming p.id

theorem scope_declaresVariables (h : p.Renamable name) : p.scope.DeclaresVariables :=
  h.wellFormed.typeScope p.id

theorem callable_declaresVariables (h : p.Renamable name) {c : Callable}
    (hc : c ∈ p.decl.callables) : (c.scope p.scope).DeclaresVariables := by
  refine Scope.declaresVariables_push_iff.mpr ⟨?_, h.scope_declaresVariables⟩
  intro q hq
  refine h.wellFormed.parameters p.decl (Snapshot.mem_classes_of_class? h.declared) q ?_
  exact List.mem_append_right _ (List.mem_flatMap.mpr ⟨c, hc, hq⟩)

theorem key_rename (h : p.Renamable name) {c : Callable} (hc : c ∈ p.decl.callables) :
    (c.rename (name p.id)).key (p.rename name).scope = c.key p.scope := by
  rw [h.scope_rename]
  exact Callable.key_rename (h.isRenaming.apart p.id) (h.callable_declaresVariables hc)

theorem fieldType_rename (h : p.Renamable name) (x : Field) :
    (x.rename (name p.id)).type.canonical (p.rename name).scope = x.type.canonical p.scope := by
  rw [h.scope_rename]
  exact Signature.canonical_rename (h.isRenaming.apart p.id) h.scope_declaresVariables x.type

theorem methodKey_rename (h : p.Renamable name) {m : Method} (hm : m ∈ p.decl.methods) :
    (m.rename (name p.id)).key (p.rename name).scope = m.key p.scope :=
  h.key_rename (ClassDecl.method_mem_callables hm)

theorem returnType_rename (h : p.Renamable name) {m : Method} (hm : m ∈ p.decl.methods) :
    (m.rename (name p.id)).returnType.canonical
        ((m.rename (name p.id)).scope (p.rename name).scope) =
      m.returnType.canonical (m.scope p.scope) := by
  rw [h.scope_rename]
  exact Signature.canonical_rename (h.isRenaming.apart p.id)
    (h.callable_declaresVariables (ClassDecl.method_mem_callables hm)) m.returnType

theorem method?_rename (h : p.Renamable name) (key : String) :
    (p.rename name).method? key = (p.method? key).map (Method.rename (name p.id)) := by
  unfold method?
  change ((p.decl.methods.map (Method.rename (name p.id))).reverse).find? _ = _
  rw [← List.map_reverse, List.find?_map]
  congr 1
  refine List.find?_congr ?_
  intro m hm
  rw [Function.comp_apply, h.methodKey_rename (List.mem_reverse.mp hm)]

theorem constructor?_rename (h : p.Renamable name) (key : String) :
    (p.rename name).constructor? key = (p.constructor? key).map (Callable.rename (name p.id)) := by
  unfold constructor?
  change ((p.decl.constructors.map (Callable.rename (name p.id))).reverse).find? _ = _
  rw [← List.map_reverse, List.find?_map]
  congr 1
  refine List.find?_congr ?_
  intro c hc
  have inside := ClassDecl.constructor_mem_callables (List.mem_reverse.mp hc)
  rw [Function.comp_apply, h.key_rename inside]

theorem ancestors_rename (p : Place) :
    (p.rename name).ancestors = p.ancestors.map (Place.rename name) := by
  unfold ancestors
  change ((p.snapshot.rename name).ancestors p.id).filterMap _ = _
  rw [Snapshot.ancestors_rename, List.map_filterMap]
  exact List.filterMap_congr fun id _ => of?_rename id

theorem ancestor (h : p.Renamable name) {a : Place} (ha : a ∈ p.ancestors) :
    a.Renamable name := by
  obtain ⟨id, _, hid⟩ := List.mem_filterMap.mp ha
  exact renamable_of_of? h.wellFormed h.isRenaming hid

/-- A question to the ancestors has one answer, if each of them gives it. -/
theorem any_ancestors_rename (h : p.Renamable name) {ask ask' : Place → Bool}
    (same : ∀ a : Place, a.Renamable name → ask' (a.rename name) = ask a) :
    (p.rename name).ancestors.any ask' = p.ancestors.any ask := by
  rw [ancestors_rename, List.any_map, Bool.eq_iff_iff, List.any_eq_true, List.any_eq_true]
  refine exists_congr fun a => and_congr_right fun ha => ?_
  rw [Function.comp_apply, same a (h.ancestor ha)]

theorem inheritsMethod_rename (h : p.Renamable name) (key : String) :
    (p.rename name).inheritsMethod key = p.inheritsMethod key := by
  refine h.any_ancestors_rename ?_
  intro a ha
  rw [ha.method?_rename, Option.isSome_map]

theorem inheritsExportedMethod_rename (h : p.Renamable name) (key : String) :
    (p.rename name).inheritsExportedMethod key = p.inheritsExportedMethod key := by
  refine h.any_ancestors_rename ?_
  intro a ha
  rw [ha.method?_rename, Option.any_map]
  rfl

theorem inheritsField_rename (h : p.Renamable name) (field : String) :
    (p.rename name).inheritsField field = p.inheritsField field := by
  refine h.any_ancestors_rename ?_
  intro a _
  change ((a.decl.rename _).field? field).isSome = _
  rw [field?_rename, Option.isSome_map]

theorem inheritsExportedField_rename (h : p.Renamable name) (field : String) :
    (p.rename name).inheritsExportedField field = p.inheritsExportedField field := by
  refine h.any_ancestors_rename ?_
  intro a _
  change ((a.decl.rename _).field? field).any _ = _
  rw [field?_rename, Option.any_map]
  rfl

end Renamable

end Place

section Callables

variable {f g : String → String} {a b : ClassId → String → String} {old new : Snapshot}

theorem isUnchecked_rename (ref : ClassRef) :
    isUnchecked (new.rename b) ref = isUnchecked new ref := by
  cases ref with
  | named text => rfl
  | linked id =>
    rw [isUnchecked, isUnchecked, Snapshot.class?_rename, Snapshot.nameOf_rename,
      Snapshot.superclassChain_rename, Option.any_map]
    rfl

theorem wasThrown_rename (thrown : List ClassRef) (ref : ClassRef) :
    wasThrown (old.rename a) (new.rename b) thrown ref = wasThrown old new thrown ref := by
  simp only [wasThrown, Snapshot.nameOfRef_rename, Snapshot.isSubtypeOf_rename]

theorem addedThrows_rename (x y : Callable) :
    addedThrows (old.rename a) (new.rename b) (x.rename f) (y.rename g) =
      addedThrows old new x y := by
  simp only [addedThrows, isUnchecked_rename, wasThrown_rename]
  rfl

theorem outlines_compareCallable_rename (label label' : String) (x y : Callable) :
    outlines (compareCallable (old.rename a) (new.rename b) label' (x.rename f) (y.rename g)) =
      outlines (compareCallable old new label x y) := by
  simp only [compareCallable, outlines_append, outlines_finding, addedThrows_rename]
  simp only [outlines, List.map_map]
  rfl

end Callables

theorem hasExportedConstructor_rename (f : String → String) (c : ClassDecl) :
    (c.rename f).hasExportedConstructor = c.hasExportedConstructor :=
  List.any_map

theorem instantiable_rename (f : String → String) (c : ClassDecl) :
    instantiable (c.rename f) = instantiable c :=
  congrArg (!c.isInterface && ·) (hasExportedConstructor_rename f c)

section Members

variable {a b : ClassId → String → String} {old new : Place}

theorem outlines_compareMethod_rename (ho : old.Renamable a) (hn : new.Renamable b)
    {m n : Method} (hm : m ∈ old.decl.methods) (hm' : n ∈ new.decl.methods) :
    outlines (compareMethod (old.rename a) (new.rename b) (m.rename (a old.id))
      (n.rename (b new.id))) = outlines (compareMethod old new m n) := by
  simp only [compareMethod, outlines_append, outlines_finding, ho.returnType_rename hm,
    hn.returnType_rename hm']
  congr 1
  exact outlines_compareCallable_rename _ _ m.toCallable n.toCallable

theorem outlines_compareField_rename (ho : old.Renamable a) (hn : new.Renamable b)
    (x y : Field) :
    outlines (compareField (old.rename a) (new.rename b) (x.rename (a old.id))
      (y.rename (b new.id))) = outlines (compareField old new x y) := by
  simp only [compareField, outlines_append, outlines_finding, ho.fieldType_rename,
    hn.fieldType_rename]
  rfl

theorem outlines_constructorFindings_rename (ho : old.Renamable a) (hn : new.Renamable b)
    {x : Constructor} (hx : x ∈ old.decl.constructors) :
    outlines (constructorFindings (old.rename a) (new.rename b) (x.rename (a old.id))) =
      outlines (constructorFindings old new x) := by
  simp only [constructorFindings, ho.key_rename (ClassDecl.constructor_mem_callables hx),
    hn.constructor?_rename]
  cases new.constructor? (x.key old.scope) with
  | none => rfl
  | some y => exact outlines_compareCallable_rename _ _ x y

theorem outlines_addedConstructor_rename (ho : old.Renamable a) (hn : new.Renamable b)
    {y : Constructor} (hy : y ∈ new.decl.constructors) :
    outlines (addedConstructor (old.rename a) (new.rename b) (y.rename (b new.id))) =
      outlines (addedConstructor old new y) := by
  simp only [addedConstructor, hn.key_rename (ClassDecl.constructor_mem_callables hy),
    ho.constructor?_rename, outlines_finding, Option.isNone_map]
  rfl

theorem outlines_methodFindings_rename (ho : old.Renamable a) (hn : new.Renamable b)
    {m : Method} (hm : m ∈ old.decl.methods) :
    outlines (methodFindings (old.rename a) (new.rename b) (m.rename (a old.id))) =
      outlines (methodFindings old new m) := by
  simp only [methodFindings, ho.methodKey_rename hm, hn.method?_rename,
    hn.inheritsExportedMethod_rename]
  cases found : new.method? (m.key old.scope) with
  | none =>
    simp only [Option.map_none, outlines_finding]
    rfl
  | some n =>
    have declared := List.mem_reverse.mp (List.mem_of_find?_eq_some found)
    exact outlines_compareMethod_rename ho hn hm declared

theorem outlines_addedMethod_rename (ho : old.Renamable a) (hn : new.Renamable b)
    {n : Method} (hn' : n ∈ new.decl.methods) :
    outlines (addedMethod (old.rename a) (new.rename b) (n.rename (b new.id))) =
      outlines (addedMethod old new n) := by
  simp only [addedMethod, hn.methodKey_rename hn', ho.method?_rename, ho.inheritsMethod_rename,
    Option.isSome_map]
  have demanded : isAddedAbstract (new.rename b).decl (old.rename a).decl
      (n.rename (b new.id)) = isAddedAbstract new.decl old.decl n := by
    unfold isAddedAbstract
    change (_ && (_ || (old.decl.rename _).hasExportedConstructor)) = _
    rw [hasExportedConstructor_rename]
    rfl
  rw [demanded]
  split
  · rfl
  · split <;> rfl

theorem outlines_fieldFindings_rename (ho : old.Renamable a) (hn : new.Renamable b)
    (x : Field) :
    outlines (fieldFindings (old.rename a) (new.rename b) (x.rename (a old.id))) =
      outlines (fieldFindings old new x) := by
  have lookup : (new.rename b).decl.field? (x.rename (a old.id)).name =
      (new.decl.field? x.name).map (Field.rename (b new.id)) :=
    Place.field?_rename (b new.id) new.decl x.name
  simp only [fieldFindings, lookup, hn.inheritsExportedField_rename]
  cases new.decl.field? x.name with
  | none =>
    simp only [Option.map_none, outlines_finding]
    rfl
  | some y => exact outlines_compareField_rename ho hn x y

theorem outlines_addedField_rename (ho : old.Renamable a) (y : Field) :
    outlines (addedField (old.rename a) (new.rename b) (y.rename (b new.id))) =
      outlines (addedField old new y) := by
  have lookup : (old.rename a).decl.field? (y.rename (b new.id)).name =
      (old.decl.field? y.name).map (Field.rename (a old.id)) :=
    Place.field?_rename (a old.id) old.decl y.name
  simp only [addedField, lookup, ho.inheritsField_rename, outlines_finding, Option.isNone_map]
  rfl

theorem exportedConstructors_rename (f : String → String) (c : ClassDecl) :
    exportedConstructors (c.rename f) = (exportedConstructors c).map (Callable.rename f) :=
  List.filter_map

theorem exportedMethods_rename (f : String → String) (c : ClassDecl) :
    exportedMethods (c.rename f) = (exportedMethods c).map (Method.rename f) :=
  List.filter_map

theorem exportedFields_rename (f : String → String) (c : ClassDecl) :
    exportedFields (c.rename f) = (exportedFields c).map (Field.rename f) :=
  List.filter_map

theorem outlines_memberFindings_rename (ho : old.Renamable a) (hn : new.Renamable b) :
    outlines (memberFindings (old.rename a) (new.rename b)) =
      outlines (memberFindings old new) := by
  have shape (p q : Place) : outlines (memberFindings p q) =
      outlines ((exportedConstructors p.decl).flatMap (constructorFindings p q)) ++
      outlines ((exportedConstructors q.decl).flatMap (addedConstructor p q)) ++
      outlines ((exportedMethods p.decl).flatMap (methodFindings p q)) ++
      outlines ((exportedMethods q.decl).flatMap (addedMethod p q)) ++
      outlines ((exportedFields p.decl).flatMap (fieldFindings p q)) ++
      outlines ((exportedFields q.decl).flatMap (addedField p q)) := by
    simp only [memberFindings, outlines_append]
  rw [shape, shape]
  repeat' refine congrArg₂ (· ++ ·) ?_ ?_
  · rw [Place.decl_rename, exportedConstructors_rename]
    exact outlines_flatMap_map _ fun x hx =>
      outlines_constructorFindings_rename ho hn (List.mem_of_mem_filter hx)
  · rw [Place.decl_rename, exportedConstructors_rename]
    exact outlines_flatMap_map _ fun y hy =>
      outlines_addedConstructor_rename ho hn (List.mem_of_mem_filter hy)
  · rw [Place.decl_rename, exportedMethods_rename]
    exact outlines_flatMap_map _ fun m hm =>
      outlines_methodFindings_rename ho hn (List.mem_of_mem_filter hm)
  · rw [Place.decl_rename, exportedMethods_rename]
    exact outlines_flatMap_map _ fun n hn' =>
      outlines_addedMethod_rename ho hn (List.mem_of_mem_filter hn')
  · rw [Place.decl_rename, exportedFields_rename]
    exact outlines_flatMap_map _ fun x _ => outlines_fieldFindings_rename ho hn x
  · rw [Place.decl_rename, exportedFields_rename]
    exact outlines_flatMap_map _ fun y _ => outlines_addedField_rename ho y

theorem supertypeFindings_rename (old new : Place) :
    supertypeFindings (old.rename a) (new.rename b) = supertypeFindings old new := by
  simp only [supertypeFindings, Place.rename, ClassDecl.rename, Snapshot.superclassChain_rename,
    Snapshot.supertypeNames_rename, funext (Snapshot.nameOfRef_rename _ _)]
  rfl

theorem outlines_compareClass_rename (ho : old.Renamable a) (hn : new.Renamable b) :
    outlines (compareClass (old.rename a) (new.rename b)) = outlines (compareClass old new) := by
  have standing : standingFindings (old.rename a).decl (new.rename b).decl =
      standingFindings old.decl new.decl := rfl
  have modifiers : modifierFindings (old.rename a).decl (new.rename b).decl =
      modifierFindings old.decl new.decl := by
    simp only [modifierFindings, Place.decl_rename, instantiable_rename]
    rfl
  rw [compareClass, compareClass, standing, modifiers, supertypeFindings_rename]
  change outlines (_ ++ if new.decl.exported then _ else []) = _
  split
  · simp only [outlines_append, outlines_memberFindings_rename ho hn]
  · rfl

end Members

section Snapshots

variable {a b : ClassId → String → String} {old new : Snapshot}

theorem isExported_rename (s : Snapshot) (name : ClassId → String → String) (id : ClassId) :
    isExported (s.rename name) id = isExported s id := by
  rw [isExported, isExported, Snapshot.class?_rename, Option.any_map]
  rfl

theorem enclosedByUnexported_rename (s : Snapshot) (name : ClassId → String → String)
    (id : ClassId) : enclosedByUnexported (s.rename name) id = enclosedByUnexported s id := by
  simp only [enclosedByUnexported, Snapshot.enclosing_rename, isExported_rename]

theorem isObligation_rename (id : ClassId) :
    isObligation (old.rename a) (new.rename b) id = isObligation old new id := by
  simp only [isObligation, outerWithdrawn, isExported_rename, enclosedByUnexported_rename,
    Snapshot.enclosing_rename, Snapshot.find?_rename, Snapshot.nameOf_rename]

theorem counterpart?_rename (f : String → String) (c : ClassDecl) :
    counterpart? (new.rename b) (c.rename f) = (counterpart? new c).map (Place.rename b) := by
  unfold counterpart?
  change ((new.rename b).find? c.qualifiedName).bind _ = _
  rw [Snapshot.find?_rename, Option.map_bind]
  exact congrArg _ (funext Place.of?_rename)

theorem renamable_of_counterpart? (wf : new.WellFormed) (named : new.IsRenaming b)
    {c : ClassDecl} {q : Place} (h : counterpart? new c = some q) : q.Renamable b := by
  obtain ⟨id, _, hid⟩ := Option.bind_eq_some_iff.mp h
  exact Place.renamable_of_of? wf named hid

theorem places_rename (s : Snapshot) (name : ClassId → String → String) (ids : List ClassId) :
    ids.filterMap (Place.of? (s.rename name)) =
      (ids.filterMap (Place.of? s)).map (Place.rename name) := by
  rw [List.map_filterMap]
  exact List.filterMap_congr fun id _ => Place.of?_rename id

theorem obligations_rename (p : Package) :
    obligations (old.rename a) (new.rename b) p = (obligations old new p).map (Place.rename a) := by
  rw [obligations, obligations, funext isObligation_rename, places_rename]

theorem outlines_obligationFindings_rename (wf : new.WellFormed) (named : new.IsRenaming b)
    {p : Place} (hp : p.Renamable a) :
    outlines (obligationFindings (new.rename b) (p.rename a)) =
      outlines (obligationFindings new p) := by
  simp only [obligationFindings, Place.decl_rename, counterpart?_rename]
  cases found : counterpart? new p.decl with
  | none => rfl
  | some q => exact outlines_compareClass_rename hp (renamable_of_counterpart? wf named found)

theorem addedClass_rename (q : Place) :
    addedClass (old.rename a) (q.rename b) = addedClass old q := by
  simp only [addedClass, Place.rename, enclosedByUnexported_rename, Snapshot.find?_rename]
  rfl

theorem outlines_packageFindings_rename (ho : old.WellFormed) (hn : new.WellFormed)
    (ha : old.IsRenaming a) (hb : new.IsRenaming b) (p : Package) :
    outlines (packageFindings (old.rename a) (new.rename b) p) =
      outlines (packageFindings old new p) := by
  have found : (new.rename b).package? p.name = new.package? p.name := rfl
  rw [packageFindings, packageFindings, found]
  cases new.package? p.name with
  | none => rfl
  | some q =>
    simp only [outlines_append, obligations_rename, places_rename]
    refine congrArg₂ (· ++ ·) (outlines_flatMap_map _ ?_) (outlines_flatMap_map _ ?_)
    · intro place hplace
      obtain ⟨id, _, hid⟩ := List.mem_filterMap.mp hplace
      exact outlines_obligationFindings_rename hn hb (Place.renamable_of_of? ho ha hid)
    · intro place _
      rw [addedClass_rename]

/-- A comparison finds the same under new names, in the same order and at the same places. -/
theorem outlines_compare_rename (ho : old.WellFormed) (hn : new.WellFormed)
    (ha : old.IsRenaming a) (hb : new.IsRenaming b) :
    outlines (compare (old.rename a) (new.rename b)) = outlines (compare old new) := by
  rw [compare, compare, outlines_append, outlines_append]
  refine congrArg₂ (· ++ ·) ?_ rfl
  exact outlines_flatMap fun p _ => outlines_packageFindings_rename ho hn ha hb p

theorem comparedClasses_rename :
    comparedClasses (old.rename a) (new.rename b) =
      (comparedClasses old new).map (Prod.map (Place.rename a) (Place.rename b)) := by
  unfold comparedClasses
  rw [List.map_flatMap]
  refine List.flatMap_congr fun p _ => ?_
  rw [obligations_rename, List.filterMap_map, List.map_filterMap]
  refine List.filterMap_congr fun place _ => ?_
  rw [Function.comp_apply, Place.decl_rename, counterpart?_rename, Option.map_map, Option.map_map]
  rfl

theorem memberCount_rename (f : String → String) (c : ClassDecl) :
    memberCount (c.rename f) = memberCount c := by
  simp only [memberCount, exportedConstructors_rename, exportedMethods_rename,
    exportedFields_rename, List.length_map]

theorem tally_rename : tally (old.rename a) (new.rename b) = tally old new := by
  have packages : sharedPackages (old.rename a) (new.rename b) = sharedPackages old new := rfl
  have counted (pair : Place × Place) : memberCount (Prod.map (Place.rename a)
      (Place.rename b) pair).1.decl = memberCount pair.1.decl :=
    memberCount_rename (a pair.1.id) pair.1.decl
  simp only [tally, packages, comparedClasses_rename, List.length_map, List.filter_map,
    List.foldr_map, counted]
  rfl

/-- Renaming type variables does not change the outcome of a check. -/
theorem check_rename (ho : old.WellFormed) (hn : new.WellFormed) (ha : old.IsRenaming a)
    (hb : new.IsRenaming b) (table : SeverityTable) :
    SameOutcome (check table (old.rename a) (new.rename b)) (check table old new) ∧
      tally (old.rename a) (new.rename b) = tally old new :=
  ⟨sameOutcome_of_outlines (outlines_compare_rename ho hn ha hb) table, tally_rename⟩

end Snapshots

/-- A generic class around one that has fields of the variable's type. -/
def genericBox (fields : List String) : Snapshot :=
  let shown : Modifiers := { Modifiers.none with visibility := .everywhere }
  let exposed (name : String) : ClassDecl :=
    { ClassDecl.bare "p" name .plain with modifiers := shown }
  let parameter := Signature.ofName .typeVariable "T"
  { packages := [⟨"p", none, [0, 1]⟩]
    classes := [{ exposed "Box" with typeParameters := [parameter] },
      { exposed "Box.Cell" with
        outer := some 0, fields := fields.map (⟨·, shown, false, none, parameter, none⟩) }] }

theorem wellFormed_genericBox (fields : List String) : (genericBox fields).WellFormed where
  packageNames := by simp [genericBox]
  classNames := by simp [genericBox, ClassDecl.bare]
  listing := by simp [genericBox, Snapshot.ids, List.range_succ]
  supertypes := by simp [genericBox, ClassDecl.bare, ClassDecl.supertypes]
  parameters := by
    simp [genericBox, ClassDecl.bare, ClassDecl.declaredParameters, ClassDecl.callables,
      Signature.ofName]

/-- Removed fields are found, whatever the variable of their type is called. -/
theorem check_rename_genericBox :
    (check .default ((genericBox ["first", "second"]).rename fun _ name => "My" ++ name)
      ((genericBox []).rename fun _ name => name)).kept.map (·.toFinding.outline) =
        [(.removedField, none), (.removedField, none)] := by
  have prefixed : (genericBox ["first", "second"]).IsRenaming fun _ name => "My" ++ name :=
    ⟨fun _ _ _ same => by simpa using same, fun _ _ _ => rfl⟩
  have unchanged : (genericBox []).IsRenaming fun _ name => name :=
    ⟨fun _ => Function.injective_id, fun _ _ _ => rfl⟩
  refine (check_rename (wellFormed_genericBox _) (wellFormed_genericBox _) prefixed unchanged
    .default).1.kept.trans ?_
  decide +kernel

end Compatibility

end ApiCompat
