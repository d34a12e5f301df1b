import ApiCompat.Proofs.Compatibility.Withdrawal

/-! Findings of one category. Each part of a comparison speaks in few categories, so what is said in
one of them comes from few parts: those that compare classes as such, and fields, never speak of
what methods throw or of methods that implementers lack. -/
namespace ApiCompat.Compatibility

def ofCategory (category : Category) (findings : List Finding) : List Finding :=
  findings.filter (·.category = category)

abbrev Within (categories : List Category) (findings : List Finding) : Prop :=
  Avoids (· ∉ categories) findings

section Lists

variable {category : Category} {categories : List Category}

theorem ofCategory_append (first second : List Finding) :
    ofCategory category (first ++ second) =
      ofCategory category first ++ ofCategory category second :=
  List.filter_append first second

theorem ofCategory_flatMap {α : Type} (list : List α) (f : α → List Finding) :
    ofCategory category (list.flatMap f) = list.flatMap fun a => ofCategory category (f a) :=
  List.filter_flatMap

theorem ofCategory_finding (holds : Bool) (other : Category) (location : Option Position)
    (message : String) : ofCategory category (finding holds other location message) =
      if other = category then finding holds other location message else [] := by
  cases holds with
  | false => exact (ite_self []).symm
  | true => by_cases same : other = category <;> simp [ofCategory, finding, same]

theorem ofCategory_eq_nil {findings : List Finding} (within : Within categories findings)
    (other : category ∉ categories) : ofCategory category findings = [] := by
  refine List.filter_eq_nil_iff.mpr fun f hf same => ?_
  apply within f hf
  rw [of_decide_eq_true same]
  exact other

theorem flatMap_ofCategory_eq_nil {α : Type} {f : α → List Finding}
    (within : ∀ a, Within categories (f a)) (other : category ∉ categories) (list : List α) :
    (list.flatMap fun a => ofCategory category (f a)) = [] :=
  List.flatMap_eq_nil_iff.mpr fun a _ => ofCategory_eq_nil (within a) other

/-- Where most elements say nothing, only the others are gone through. -/
theorem flatMap_filter {α β : Type} (p : α → Bool) (f : α → List β) (list : List α) :
    (list.filter p).flatMap f = list.flatMap fun a => if p a then f a else [] := by
  induction list with
  | nil => rfl
  | cons a rest ih =>
    rw [List.filter_cons, List.flatMap_cons]
    by_cases holds : p a = true <;> simp [holds, ih]

end Lists

section Parts

variable {old new : Place}

def classCategories : List Category :=
  [.changedClass, .changedScope, .changedStatic, .changedFinal, .addedFinalUninstantiable,
    .removedFinal, .changedAbstract, .changedDeprecated, .changedSuperclass, .removedInterface,
    .addedInterface]

theorem within_standingFindings (a b : ClassDecl) :
    Within classCategories (standingFindings a b) := by
  simp [standingFindings, Avoids.append_iff, avoids_finding_iff, classCategories]

theorem within_modifierFindings (a b : ClassDecl) :
    Within classCategories (modifierFindings a b) := by
  simp [modifierFindings, Avoids.append_iff, avoids_finding_iff, classCategories]

theorem within_supertypeFindings : Within classCategories (supertypeFindings old new) := by
  simp [supertypeFindings, Avoids.append_iff, Avoids.flatMap_iff, avoids_finding_iff,
    classCategories]

def fieldCategories : List Category :=
  [.changedType, .changedScope, .changedStatic, .changedFinal, .removedFinal, .changedTransient,
    .changedVolatile, .changedValue, .changedDeprecated, .removedField, .addedField]

theorem within_fieldFindings (a : Field) : Within fieldCategories (fieldFindings old new a) := by
  unfold fieldFindings
  split <;> simp [compareField, Avoids.append_iff, avoids_finding_iff, fieldCategories]

theorem within_addedField (b : Field) : Within fieldCategories (addedField old new b) := by
  simp [addedField, avoids_finding_iff, fieldCategories]

/-- The categories in which an old method or constructor is spoken of. -/
def callableCategories : List Category :=
  [.changedType, .changedScope, .changedStatic, .changedFinal, .removedFinal, .changedAbstract,
    .changedNative, .changedSynchronized, .changedDeprecated, .changedThrows, .removedMethod]

theorem within_compareCallable (before after : Snapshot) (label : String) (a b : Callable) :
    Within callableCategories (compareCallable before after label a b) := by
  simp [compareCallable, Avoids.append_iff, Avoids.map_iff, avoids_finding_iff, callableCategories]

theorem within_constructorFindings (a : Constructor) :
    Within callableCategories (constructorFindings old new a) := by
  unfold constructorFindings
  split
  · exact within_compareCallable _ _ _ _ _
  · simp [Avoids.singleton_iff, callableCategories]

theorem within_methodFindings (a : Method) :
    Within callableCategories (methodFindings old new a) := by
  unfold methodFindings
  dsimp only
  split
  · refine Avoids.append_iff.mpr ⟨?_, within_compareCallable _ _ _ _ _⟩
    simp [Avoids.append_iff, avoids_finding_iff, callableCategories]
  · simp [avoids_finding_iff, callableCategories]

/-- The categories in which a new method or constructor is spoken of. -/
def additionCategories : List Category := [.addedMethod, .addedAbstractMethod]

theorem within_addedConstructor (b : Constructor) :
    Within [.addedMethod] (addedConstructor old new b) := by
  simp [addedConstructor, avoids_finding_iff]

theorem within_addedMethod (b : Method) : Within additionCategories (addedMethod old new b) := by
  unfold addedMethod
  dsimp only
  split
  · exact Avoids.nil
  · split <;> simp [Avoids.singleton_iff, additionCategories]

/-- What is said of the class as such and of its fields is left out in a category of methods. -/
theorem ofCategory_compareClass {category : Category} (ofClass : category ∉ classCategories)
    (ofField : category ∉ fieldCategories) (exported : new.decl.exported = true) :
    ofCategory category (compareClass old new) =
      (exportedConstructors old.decl).flatMap
          (fun a => ofCategory category (constructorFindings old new a)) ++
        (exportedConstructors new.decl).flatMap
          (fun b => ofCategory category (addedConstructor old new b)) ++
        (exportedMethods old.decl).flatMap
          (fun a => ofCategory category (methodFindings old new a)) ++
        (exportedMethods new.decl).flatMap
          (fun b => ofCategory category (addedMethod old new b)) := by
  simp only [compareClass, if_pos exported, memberFindings, ofCategory_append, ofCategory_flatMap,
    ofCategory_eq_nil (within_standingFindings _ _) ofClass,
    ofCategory_eq_nil (within_modifierFindings _ _) ofClass,
    ofCategory_eq_nil within_supertypeFindings ofClass,
    flatMap_ofCategory_eq_nil within_fieldFindings ofField,
    flatMap_ofCategory_eq_nil within_addedField ofField, List.nil_append, List.append_nil]

end Parts

/-- A run hands over what comparing an obligation with its counterpart gives, if the package of the
obligation is still there. -/
theorem ofCategory_onBehalfOf {old new : Snapshot} (ho : old.WellFormed) (hn : new.WellFormed)
    {id id' : ClassId} {c d : ClassDecl} (hc : old.class? id = some c)
    (owed : Obligation old new id) (hd : new.class? id' = some d)
    (same : d.qualifiedName = c.qualifiedName) (category : Category) (table : SeverityTable) :
    ∃ p ∈ old.packages, id ∈ p.classes ∧
      ofCategory category (onBehalfOf (.oldClass id) (Session.run table old new).handed) =
        if (new.package? p.name).isSome then
          ofCategory category (compareClass ⟨old, id, c⟩ ⟨new, id', d⟩)
        else [] := by
  obtain ⟨p, hp, listed⟩ := ho.exists_package (Snapshot.mem_ids_of_class? hc)
  have found :
      obligationFindings new ⟨old, id, c⟩ = compareClass ⟨old, id, c⟩ ⟨new, id', d⟩ := by
    simp only [obligationFindings, counterpart?_eq hn hd same]
  refine ⟨p, hp, listed, ?_⟩
  rw [Session.run_eq, onBehalfOf_obligation ho hc owed hp listed, found]
  exact apply_ite (ofCategory category) _ _ _

end ApiCompat.Compatibility
