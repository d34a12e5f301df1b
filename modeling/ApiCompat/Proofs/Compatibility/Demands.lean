import ApiCompat.Proofs.Compatibility.Categories

/-! New demands on implementers. A method that nobody had to provide before is reported if those who
implement or extend the old class have to provide it now. What was there before is looked up among
all methods of the old class, although only the exported ones are owed to clients. So a demand is
reported, once and in its turn, unless a method that clients could not use bears its key. -/
namespace ApiCompat.Compatibility

open Session (run)

section Demands

variable {old new : Place} {m : Method}

/-- A method that everyone who implements or extends the class has to provide from now on. -/
structure NewDemand (old new : Place) (m : Method) : Prop where
  exported : m.modifiers.visibility.exported = true
  demanded : m.mustBeImplemented new.decl.isInterface = true
  undeclared : ∀ a ∈ old.decl.methods, a.modifiers.visibility.exported = true →
    a.key old.scope ≠ m.key new.scope
  uninherited : ∀ p ∈ old.ancestors, ∀ a ∈ p.decl.methods, a.key p.scope ≠ m.key new.scope

/-- The old class has a method of the same key that is of no concern to clients. -/
def Shadowed (old new : Place) (m : Method) : Prop :=
  ∃ a ∈ old.decl.methods, a.modifiers.visibility.exported = false ∧
    a.key old.scope = m.key new.scope

instance : Decidable (NewDemand old new m) :=
  decidable_of_iff (m.modifiers.visibility.exported = true ∧
      m.mustBeImplemented new.decl.isInterface = true ∧
      (∀ a ∈ old.decl.methods, a.modifiers.visibility.exported = true →
        a.key old.scope ≠ m.key new.scope) ∧
      ∀ p ∈ old.ancestors, ∀ a ∈ p.decl.methods, a.key p.scope ≠ m.key new.scope)
    ⟨fun ⟨a, b, c, d⟩ => ⟨a, b, c, d⟩,
      fun h => ⟨h.exported, h.demanded, h.undeclared, h.uninherited⟩⟩

instance : Decidable (Shadowed old new m) :=
  inferInstanceAs (Decidable (∃ a ∈ old.decl.methods,
    a.modifiers.visibility.exported = false ∧ a.key old.scope = m.key new.scope))

def demandFinding (c d : ClassDecl) (m : Method) : Finding :=
  ⟨.addedAbstractMethod,
    "Added abstract method " ++ methodLabel d m ++ " to existing " ++ c.kind.text,
    m.position.or d.position⟩

/-- A key is unknown to the old class exactly if no method of it, exported or not, has that key. -/
theorem unknown_iff : ((old.method? (m.key new.scope)).isSome ||
      old.inheritsMethod (m.key new.scope)) = false ↔
    (∀ a ∈ old.decl.methods, a.modifiers.visibility.exported = true →
      a.key old.scope ≠ m.key new.scope) ∧
    (∀ p ∈ old.ancestors, ∀ a ∈ p.decl.methods, a.key p.scope ≠ m.key new.scope) ∧
    ¬Shadowed old new m := by
  rw [Bool.or_eq_false_iff, Option.isSome_eq_false_iff, Option.isNone_iff_eq_none,
    Place.method?_eq_none_iff, Bool.eq_false_iff, Ne, Place.inheritsMethod_iff]
  constructor
  · rintro ⟨absent, uninherited⟩
    refine ⟨fun a ha _ => absent a ha, ?_, ?_⟩
    · exact fun p hp a ha same => uninherited ⟨p, hp, a, ha, same⟩
    · rintro ⟨a, ha, _, same⟩
      exact absent a ha same
  · rintro ⟨undeclared, uninherited, unshadowed⟩
    constructor
    · intro a ha same
      cases usable : a.modifiers.visibility.exported with
      | true => exact undeclared a ha usable same
      | false => exact unshadowed ⟨a, ha, usable, same⟩
    · rintro ⟨p, hp, a, ha, same⟩
      exact uninherited p hp a ha same

theorem ofCategory_addedMethod (extensible : old.decl.isInterface = true ∨ Creatable old.decl)
    (exported : m.modifiers.visibility.exported = true) :
    ofCategory .addedAbstractMethod (addedMethod old new m) =
      if NewDemand old new m ∧ ¬Shadowed old new m then [demandFinding old.decl new.decl m]
      else [] := by
  unfold addedMethod
  dsimp only
  by_cases known : ((old.method? (m.key new.scope)).isSome ||
      old.inheritsMethod (m.key new.scope)) = true
  · rw [if_pos known, if_neg]
    · rfl
    · rintro ⟨demand, unshadowed⟩
      have unknown := unknown_iff.mpr ⟨demand.undeclared, demand.uninherited, unshadowed⟩
      rw [known] at unknown
      cases unknown
  · rw [if_neg known]
    obtain ⟨undeclared, uninherited, unshadowed⟩ := unknown_iff.mp (Bool.eq_false_iff.mpr known)
    by_cases demanded : m.mustBeImplemented new.decl.isInterface = true
    · rw [if_pos (isAddedAbstract_iff.mpr ⟨demanded, extensible⟩),
        if_pos ⟨⟨exported, demanded, undeclared, uninherited⟩, unshadowed⟩]
      rfl
    · rw [if_neg fun added => demanded (isAddedAbstract_iff.mp added).1,
        if_neg fun demand => demanded demand.1.demanded]
      rfl

/-- In the order of the new methods, comparing two classes tells of each demand once. -/
theorem ofCategory_compareClass_demands (still : new.decl.exported = true)
    (extensible : old.decl.isInterface = true ∨ Creatable old.decl) :
    ofCategory .addedAbstractMethod (compareClass old new) =
      (new.decl.methods.filter fun m => NewDemand old new m ∧ ¬Shadowed old new m).map
        (demandFinding old.decl new.decl) := by
  rw [ofCategory_compareClass (by decide) (by decide) still,
    flatMap_ofCategory_eq_nil within_constructorFindings (by decide),
    flatMap_ofCategory_eq_nil within_addedConstructor (by decide),
    flatMap_ofCategory_eq_nil within_methodFindings (by decide), List.nil_append, List.nil_append,
    List.nil_append, exportedMethods, flatMap_filter, List.map_eq_flatMap, flatMap_filter]
  refine List.flatMap_congr fun m _ => ?_
  by_cases exported : m.modifiers.visibility.exported = true
  · simp only [if_pos exported, ofCategory_addedMethod extensible exported, decide_eq_true_eq]
  · have none : ¬(NewDemand old new m ∧ ¬Shadowed old new m) :=
      fun demand => exported demand.1.exported
    simp only [if_neg exported, decide_eq_true_eq, if_neg none]

end Demands

/-- On behalf of an obligation that clients can implement or extend, a run reports each new demand
on them once and in order, unless an unexported method of the old class has its key. -/
theorem demands_reported {old new : Snapshot} (ho : old.WellFormed) (hn : new.WellFormed)
    {id id' : ClassId} {c d : ClassDecl} (hc : old.class? id = some c)
    (owed : Obligation old new id) (extensible : c.isInterface = true ∨ Creatable c)
    (hd : new.class? id' = some d) (same : d.qualifiedName = c.qualifiedName)
    (still : d.exported = true) (table : SeverityTable) :
    ∃ p ∈ old.packages, id ∈ p.classes ∧
      ofCategory .addedAbstractMethod (onBehalfOf (.oldClass id) (run table old new).handed) =
        if (new.package? p.name).isSome then
          (d.methods.filter fun m => NewDemand ⟨old, id, c⟩ ⟨new, id', d⟩ m ∧
            ¬Shadowed ⟨old, id, c⟩ ⟨new, id', d⟩ m).map (demandFinding c d)
        else [] := by
  obtain ⟨p, hp, listed, handed⟩ :=
    ofCategory_onBehalfOf ho hn hc owed hd same .addedAbstractMethod table
  refine ⟨p, hp, listed, ?_⟩
  rw [handed, ofCategory_compareClass_demands still extensible]

section Examples

/-- A public type that clients can extend, its methods abstract where clients can see them. -/
def plan (kind : ClassKind) (methods : List (String × Visibility)) : ClassDecl :=
  let declared (method : String × Visibility) : Method :=
    { publicMethod method.1 with
      modifiers := { Modifiers.none with
        visibility := method.2, isAbstract := method.2.exported } }
  { heading "p" "Plan" kind .everywhere none [] with
    constructors := if kind.isInterface then [] else [(publicMethod "Plan").toCallable]
    methods := methods.map declared }

def planOf (kind : ClassKind) (methods : List (String × Visibility)) : Snapshot :=
  onePackage "p" [plan kind methods]

theorem declaredParameters_plan (kind : ClassKind) (methods : List (String × Visibility)) :
    (plan kind methods).declaredParameters = [] := by
  cases kind <;> simp [plan, heading, ClassDecl.bare, ClassDecl.declaredParameters,
    ClassDecl.callables, publicMethod, ClassKind.isInterface, List.flatMap_map]

theorem wellFormed_planOf (kind : ClassKind) (methods : List (String × Visibility)) :
    (planOf kind methods).WellFormed := by
  refine wellFormed_onePackage (List.nodup_singleton _) ?_ ?_
  · simp [plan, heading, ClassDecl.bare, ClassDecl.supertypes]
  · simp [declaredParameters_plan]

/-- Of three methods, one was owed before and one is shadowed. -/
theorem demands_reported_plan :
    let old := planOf .interface [("open", .everywhere), ("shut", .ownClass)]
    let new := planOf .interface
      [("open", .everywhere), ("shut", .everywhere), ("peek", .everywhere)]
    (ofCategory .addedAbstractMethod (onBehalfOf (.oldClass 0) (run .default old new).handed)).map
      (·.message) = ["Added abstract method p.Plan.peek() to existing interface"] := by
  intro old new
  have hc : old.class? 0 =
      some (plan .interface [("open", .everywhere), ("shut", .ownClass)]) := rfl
  have hd : new.class? 0 = some (plan .interface
      [("open", .everywhere), ("shut", .everywhere), ("peek", .everywhere)]) := rfl
  have owed : Obligation old new 0 := isObligation_iff.mp (by decide +kernel)
  obtain ⟨p, hp, _, said⟩ := demands_reported (wellFormed_planOf _ _) (wellFormed_planOf _ _) hc
    owed (.inl rfl) hd rfl rfl .default
  cases List.mem_singleton.mp hp
  rw [said]
  decide +kernel

/-- Every new demand on those who implement or extend an obligation is reported. -/
def ReportsDemands (old new : Snapshot) : Prop :=
  ∀ id c id' d, old.class? id = some c → Obligation old new id →
    (c.isInterface = true ∨ Creatable c) → new.class? id' = some d →
    d.qualifiedName = c.qualifiedName → d.exported = true →
    ∀ m ∈ d.methods, NewDemand ⟨old, id, c⟩ ⟨new, id', d⟩ m →
      demandFinding c d m ∈ compare old new

theorem not_reportsDemands_planOf {kind : ClassKind}
    (either : kind = .interface ∨ kind = .plain) :
    ¬ReportsDemands (planOf kind [("shut", .ownClass)]) (planOf kind [("shut", .everywhere)]) := by
  have silent :
      compare (planOf kind [("shut", .ownClass)]) (planOf kind [("shut", .everywhere)]) = [] := by
    rcases either with rfl | rfl <;> decide +kernel
  intro reports
  have owed : Obligation (planOf kind [("shut", .ownClass)])
      (planOf kind [("shut", .everywhere)]) 0 := by
    rcases either with rfl | rfl <;> exact isObligation_iff.mp (by decide +kernel)
  have extensible : (plan kind [("shut", .ownClass)]).isInterface = true ∨
      Creatable (plan kind [("shut", .ownClass)]) := by
    rcases either with rfl | rfl
    · exact .inl rfl
    · exact .inr ⟨rfl, _, List.mem_singleton_self _, rfl⟩
  have demand : ∃ m ∈ (plan kind [("shut", .everywhere)]).methods,
      NewDemand ⟨planOf kind [("shut", .ownClass)], 0, plan kind [("shut", .ownClass)]⟩
        ⟨planOf kind [("shut", .everywhere)], 0, plan kind [("shut", .everywhere)]⟩ m := by
    rcases either with rfl | rfl <;> decide +kernel
  obtain ⟨m, hm, demand⟩ := demand
  have reported := reports 0 (plan kind [("shut", .ownClass)]) 0 (plan kind [("shut", .everywhere)])
    rfl owed extensible rfl rfl rfl m hm demand
  rw [silent] at reported
  cases reported

/-- A private method hides the demand that takes its place, in an interface and in a class. -/
theorem demand_unreported_shadowed :
    ((planOf .interface [("shut", .ownClass)]).WellFormed ∧
      (planOf .interface [("shut", .everywhere)]).WellFormed ∧
      ¬ReportsDemands (planOf .interface [("shut", .ownClass)])
        (planOf .interface [("shut", .everywhere)])) ∧
    (planOf .plain [("shut", .ownClass)]).WellFormed ∧
      (planOf .plain [("shut", .everywhere)]).WellFormed ∧
      ¬ReportsDemands (planOf .plain [("shut", .ownClass)]) (planOf .plain [("shut", .everywhere)]) :=
  ⟨⟨wellFormed_planOf _ _, wellFormed_planOf _ _, not_reportsDemands_planOf (.inl rfl)⟩,
    wellFormed_planOf _ _, wellFormed_planOf _ _, not_reportsDemands_planOf (.inr rfl)⟩

end Examples

end ApiCompat.Compatibility
