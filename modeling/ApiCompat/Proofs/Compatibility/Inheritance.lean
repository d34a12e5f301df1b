import ApiCompat.Proofs.Compatibility.SupertypeSoundness

/-! Members that are inherited instead. A member that is declared again in its class is compared with
the old one, but a member that moved into a supertype is only asked to be one that clients can use
there. So a member keeps its visibility unless it was public, is no longer declared in the class and
is public in none of the supertypes; then it is left to subclasses, and no error tells of it. -/
namespace ApiCompat.Compatibility

namespace Place

variable {p : Place} {key name : String}

def methodVisibilities (key : String) (p : Place) : List Visibility :=
  (p.decl.methods.filter fun m => m.key p.scope == key).map (·.modifiers.visibility)

def fieldVisibilities (name : String) (p : Place) : List Visibility :=
  (p.decl.fields.filter fun f => f.name == name).map (·.modifiers.visibility)

theorem DeclaresMethod.mem_visibilities {m : Method} (declared : p.DeclaresMethod key m) :
    m.modifiers.visibility ∈ p.methodVisibilities key := by
  refine List.mem_map_of_mem (List.mem_filter.mpr ⟨declared.mem.1, ?_⟩)
  exact beq_iff_eq.mpr declared.mem.2

theorem DeclaresField.mem_visibilities {f : Field} (declared : p.DeclaresField name f) :
    f.modifiers.visibility ∈ p.fieldVisibilities name := by
  refine List.mem_map_of_mem (List.mem_filter.mpr ⟨declared.mem.1, ?_⟩)
  exact beq_iff_eq.mpr declared.mem.2

theorem methodVisibilities_eq_nil (none : ∀ m ∈ p.decl.methods, m.key p.scope ≠ key) :
    p.methodVisibilities key = [] := by
  simpa [methodVisibilities] using none

theorem fieldVisibilities_eq_nil (none : ∀ f ∈ p.decl.fields, f.name ≠ name) :
    p.fieldVisibilities name = [] := by
  simpa [fieldVisibilities] using none

end Place

section Visibilities

variable {visibilities : Place → List Visibility} {v : Visibility} {p : Place}

/-- From the class upward, some declaration can be used wherever the old one could. -/
def KeepsVisibility (visibilities : Place → List Visibility) (v : Visibility) (p : Place) : Prop :=
  ∃ q ∈ p :: p.ancestors, ∃ w ∈ visibilities q, v.rank ≤ w.rank

instance : Decidable (KeepsVisibility visibilities v p) :=
  inferInstanceAs (Decidable (∃ q ∈ p :: p.ancestors, ∃ w ∈ visibilities q, v.rank ≤ w.rank))

/-- What was public is declared by supertypes only, and by none of them as public. -/
structure Lowered (visibilities : Place → List Visibility) (v : Visibility) (p : Place) : Prop where
  wasPublic : v = .everywhere
  moved : visibilities p = []
  above : ∀ q ∈ p.ancestors, Visibility.everywhere ∉ visibilities q

/-- Clients still find a declaration, and it is as visible as before unless it was lowered. -/
structure StillFound (visibilities : Place → List Visibility) (v : Visibility) (p : Place) :
    Prop where
  exported : ∃ q ∈ p :: p.ancestors, ∃ w ∈ visibilities q, w.exported = true
  kept_iff : KeepsVisibility visibilities v p ↔ ¬Lowered visibilities v p

theorem eq_everywhere_of_rank_le (widest : Visibility.everywhere.rank ≤ v.rank) :
    v = .everywhere := by
  cases v with
  | everywhere => rfl
  | ownClass | ownPackage | subclasses => exact absurd widest (by decide)

theorem rank_le_subclasses (other : v ≠ .everywhere) : v.rank ≤ Visibility.subclasses.rank := by
  cases v with
  | everywhere => exact absurd rfl other
  | ownClass | ownPackage | subclasses => decide

/-- A declaration in the class that is not narrower, or none there and an exported one above. -/
theorem stillFound_of_answered (exported : v.exported = true)
    (answered : (∃ w ∈ visibilities p, v.rank ≤ w.rank) ∨
      visibilities p = [] ∧ ∃ q ∈ p.ancestors, ∃ w ∈ visibilities q, w.exported = true) :
    StillFound visibilities v p := by
  have atLeast := (Visibility.exported_iff v).mp exported
  rcases answered with ⟨w, hw, wider⟩ | ⟨moved, q, hq, w, hw, usable⟩
  · refine ⟨⟨p, List.mem_cons_self, w, hw, ?_⟩, iff_of_true ?_ ?_⟩
    · exact (Visibility.exported_iff w).mpr (Nat.le_trans atLeast wider)
    · exact ⟨p, List.mem_cons_self, w, hw, wider⟩
    · intro lowered
      rw [lowered.moved] at hw
      cases hw
  · refine ⟨⟨q, List.mem_cons_of_mem p hq, w, hw, usable⟩, ?_, ?_⟩
    · rintro ⟨r, hr, u, hu, wider⟩ ⟨rfl, _, above⟩
      cases eq_everywhere_of_rank_le wider
      rcases List.mem_cons.mp hr with rfl | hr
      · rw [moved] at hu
        cases hu
      · exact above r hr hu
    · intro kept
      by_cases wasPublic : v = .everywhere
      · subst wasPublic
        by_contra lost
        refine kept ⟨rfl, moved, fun r hr hu => lost ?_⟩
        exact ⟨r, List.mem_cons_of_mem p hr, .everywhere, hu, Nat.le_refl _⟩
      · have wide := (Visibility.exported_iff w).mp usable
        exact ⟨q, List.mem_cons_of_mem p hq, w, hw, Nat.le_trans (rank_le_subclasses wasPublic) wide⟩

end Visibilities

section Members

variable {old new : Place}

theorem ClassKept.method_stillFound (kept : ClassKept old new) {m : Method}
    (hm : m ∈ old.decl.methods) (exported : m.modifiers.visibility.exported = true) :
    StillFound (Place.methodVisibilities (m.key old.scope)) m.modifiers.visibility new := by
  refine stillFound_of_answered exported ?_
  rcases kept.methods m hm exported with ⟨b, declared, same⟩ | ⟨none, q, hq, b, declared, usable⟩
  · exact .inl ⟨_, declared.mem_visibilities, same.access.visibility⟩
  · exact .inr ⟨Place.methodVisibilities_eq_nil none, q, hq, _, declared.mem_visibilities, usable⟩

theorem ClassKept.field_stillFound (kept : ClassKept old new) {f : Field}
    (hf : f ∈ old.decl.fields) (exported : f.modifiers.visibility.exported = true) :
    StillFound (Place.fieldVisibilities f.name) f.modifiers.visibility new := by
  refine stillFound_of_answered exported ?_
  rcases kept.fields f hf exported with ⟨b, declared, same⟩ | ⟨none, q, hq, b, declared, usable⟩
  · exact .inl ⟨_, declared.mem_visibilities, same.access.visibility⟩
  · exact .inr ⟨Place.fieldVisibilities_eq_nil none, q, hq, _, declared.mem_visibilities, usable⟩

end Members

/-- Without an error, every exported member of an obligation is found from the class of its name upward,
and it is as visible as before unless what was public is now left to subclasses above. -/
theorem visibility_kept_iff {old new : Snapshot} (ho : old.WellFormed) (hn : new.WellFormed)
    (clean : (check .default old new).hadError = false) {id : ClassId} {c : ClassDecl}
    (hc : old.class? id = some c) (owed : Obligation old new id) :
    ∃ id' d, new.find? c.qualifiedName = some id' ∧ new.class? id' = some d ∧
      (∀ m ∈ c.methods, m.modifiers.visibility.exported = true →
        StillFound (Place.methodVisibilities (m.key (old.typeScope id))) m.modifiers.visibility
          ⟨new, id', d⟩) ∧
      ∀ f ∈ c.fields, f.modifiers.visibility.exported = true →
        StillFound (Place.fieldVisibilities f.name) f.modifiers.visibility ⟨new, id', d⟩ := by
  have compatible := (hadError_eq_false_iff_compatible ho hn).mp clean
  obtain ⟨id', d, hd, name, kept⟩ := compatible.classes id c hc owed
  refine ⟨id', d, name ▸ hn.find?_qualifiedName hd, hd, ?_, ?_⟩
  · exact fun m hm exported => kept.method_stillFound hm exported
  · exact fun f hf exported => kept.field_stillFound hf exported

section Examples

/-- A public class with a method and a field of each name. -/
def withMembers (name : String) (superclass : Option String)
    (members : List (String × Visibility)) : ClassDecl :=
  let seen (v : Visibility) : Modifiers := { Modifiers.none with visibility := v }
  { heading "p" name .plain .everywhere superclass [] with
    methods := members.map fun (name, v) => { publicMethod name with modifiers := seen v }
    fields := members.map fun (name, v) =>
      { name := name, modifiers := seen v, deprecated := false, position := none,
        type := .ofName .primitive "int", value := none } }

/-- One class below another one. -/
def stacked (upper lower : List (String × Visibility)) : Snapshot :=
  onePackage "p" [withMembers "Base" none upper, withMembers "Derived" (some "p.Base") lower]

theorem declaredParameters_withMembers (name : String) (superclass : Option String)
    (members : List (String × Visibility)) :
    (withMembers name superclass members).declaredParameters = [] := by
  simp [withMembers, heading, ClassDecl.bare, ClassDecl.declaredParameters, ClassDecl.callables,
    publicMethod, Function.comp_def, List.flatMap_map]

theorem wellFormed_stacked (upper lower : List (String × Visibility)) :
    (stacked upper lower).WellFormed := by
  refine wellFormed_onePackage ?_ ?_ (by simp [declaredParameters_withMembers])
  · simp [withMembers, heading, ClassDecl.bare]
  · simp [withMembers, heading, ClassDecl.bare, ClassDecl.supertypes]

/-- A public and a protected member move up as they are. -/
theorem visibility_kept_pulledUp :
    let old := (stacked [] [("run", .everywhere), ("stop", .subclasses)]).resolve
    let new := (stacked [("run", .everywhere), ("stop", .subclasses)] []).resolve
    ∃ c id' d, old.class? 1 = some c ∧ Obligation old new 1 ∧
      new.find? c.qualifiedName = some id' ∧ new.class? id' = some d ∧
      (∀ m ∈ c.methods, m.modifiers.visibility.exported = true →
        StillFound (Place.methodVisibilities (m.key (old.typeScope 1))) m.modifiers.visibility
          ⟨new, id', d⟩) ∧
      ∀ f ∈ c.fields, f.modifiers.visibility.exported = true →
        StillFound (Place.fieldVisibilities f.name) f.modifiers.visibility ⟨new, id', d⟩ := by
  intro old new
  have ho : old.WellFormed := (wellFormed_stacked _ _).resolve
  have hn : new.WellFormed := (wellFormed_stacked _ _).resolve
  have owed : Obligation old new 1 := isObligation_iff.mp (by decide +kernel)
  obtain ⟨c, hc, _⟩ := Option.any_eq_true _ _ |>.mp owed.exported
  obtain ⟨id', d, found, hd, members⟩ := visibility_kept_iff ho hn (by decide +kernel) hc owed
  exact ⟨c, id', d, hc, owed, found, hd, members⟩

/-- A public member that becomes protected as it moves up is lowered without an error. -/
theorem visibility_lowered_pulledUp :
    let old := (stacked [] [("run", .everywhere)]).resolve
    let new := (stacked [("run", .subclasses)] []).resolve
    old.WellFormed ∧ new.WellFormed ∧ (check .default old new).hadError = false ∧
      ∃ c d, old.class? 1 = some c ∧ Obligation old new 1 ∧
        new.find? c.qualifiedName = some 1 ∧ new.class? 1 = some d ∧
        (∃ m ∈ c.methods, m.modifiers.visibility.exported = true ∧
          ¬KeepsVisibility (Place.methodVisibilities (m.key (old.typeScope 1)))
            m.modifiers.visibility ⟨new, 1, d⟩) ∧
        ∃ f ∈ c.fields, f.modifiers.visibility.exported = true ∧
          ¬KeepsVisibility (Place.fieldVisibilities f.name) f.modifiers.visibility ⟨new, 1, d⟩ := by
  intro old new
  have lost : (old.class? 1).any (fun c => (new.class? 1).any fun d =>
      new.find? c.qualifiedName = some 1 ∧
        (∃ m ∈ c.methods, m.modifiers.visibility.exported = true ∧
          ¬KeepsVisibility (Place.methodVisibilities (m.key (old.typeScope 1)))
            m.modifiers.visibility ⟨new, 1, d⟩) ∧
        ∃ f ∈ c.fields, f.modifiers.visibility.exported = true ∧
          ¬KeepsVisibility (Place.fieldVisibilities f.name) f.modifiers.visibility ⟨new, 1, d⟩) =
      true := by decide +kernel
  obtain ⟨c, hc, lost⟩ := Option.any_eq_true _ _ |>.mp lost
  obtain ⟨d, hd, lost⟩ := Option.any_eq_true _ _ |>.mp lost
  obtain ⟨found, members⟩ := of_decide_eq_true lost
  exact ⟨(wellFormed_stacked _ _).resolve, (wellFormed_stacked _ _).resolve, by decide +kernel,
    c, d, hc, isObligation_iff.mp (by decide +kernel), found, hd, members⟩

end Examples

end ApiCompat.Compatibility
