import ApiCompat.Proofs.Snapshot.Nesting

/-! Runs of a builder over a forest. A run enters an element, runs over its content and leaves it.
What is declared stays as it was declared, so every later snapshot agrees with an earlier one on
the names and the variables around a place. -/
namespace ApiCompat

open Markup (Tag Element Event Spells)

/-- What names and scopes refer to. -/
def ClassDecl.heading (c : ClassDecl) : String × Option ClassId × List Signature :=
  (c.name, c.outer, c.typeParameters)

namespace Snapshot

def headings (s : Snapshot) : List (String × Option ClassId × List Signature) :=
  s.classes.map (·.heading)

/-- The classes of the first snapshot are the first ones of the second. -/
def Before (s t : Snapshot) : Prop := s.headings <+: t.headings

def scopeAround (s : Snapshot) : Option ClassId → Scope
  | some id => s.typeScope id
  | none => .empty

theorem headings_addPackage (s : Snapshot) (name : String) (position : Option Position) :
    (s.addPackage name position).headings = s.headings := by
  rw [headings, classes_addPackage, headings]

theorem headings_update (s : Snapshot) (id : ClassId) (g : Holdings) :
    (s.update id g.addTo).headings = s.headings :=
  map_update s id fun _ => rfl

namespace Before

variable {s t : Snapshot} {id : ClassId} {c : ClassDecl}

theorem exists_class? (before : s.Before t) (h : s.class? id = some c) :
    ∃ d, t.class? id = some d ∧ d.heading = c.heading := by
  have listed : s.headings[id]? = some c.heading := by
    rw [headings, List.getElem?_map]
    exact congrArg _ h
  have kept := List.prefix_iff_getElem?.mp before id (List.getElem?_eq_some_iff.mp listed).1
  rw [← List.getElem?_eq_getElem, listed, headings, List.getElem?_map] at kept
  exact Option.map_eq_some_iff.mp kept

theorem mem_ids (before : s.Before t) (h : id ∈ s.ids) : id ∈ t.ids := by
  obtain ⟨c, hc⟩ := exists_class?_of_mem_ids h
  obtain ⟨d, hd, _⟩ := before.exists_class? hc
  exact mem_ids_of_class? hd

/-- The first classes have the variables in force that they had. -/
theorem typeScope (before : s.Before t) (nested : s.Nested) (h : id ∈ s.ids) :
    t.typeScope id = s.typeScope id := by
  refine typeScope_congr nested h before.mem_ids ?_ ?_
  · intro a ha
    obtain ⟨c, hc⟩ := exists_class?_of_mem_ids ha
    obtain ⟨d, hd, same⟩ := before.exists_class? hc
    rw [outer?, outer?, hc, hd]
    exact congrArg (·.2.1) same
  · intro a ha
    obtain ⟨c, hc⟩ := exists_class?_of_mem_ids ha
    obtain ⟨d, hd, same⟩ := before.exists_class? hc
    rw [typeParametersOf, typeParametersOf, hc, hd]
    exact congrArg (·.2.2) same

theorem scopeAround (before : s.Before t) (nested : s.Nested) {outer : Option ClassId}
    (declared : ∀ id, outer = some id → id ∈ s.ids) : t.scopeAround outer = s.scopeAround outer := by
  cases outer with
  | none => rfl
  | some id => exact before.typeScope nested (declared id rfl)

theorem nameAround (before : s.Before t) {outer : Option ClassId}
    (declared : ∀ id, outer = some id → id ∈ s.ids) : t.nameAround outer = s.nameAround outer := by
  cases outer with
  | none => rfl
  | some id =>
    obtain ⟨c, hc⟩ := exists_class?_of_mem_ids (declared id rfl)
    obtain ⟨d, hd, same⟩ := before.exists_class? hc
    rw [Snapshot.nameAround, Snapshot.nameAround, Option.bind_some, Option.bind_some, hc, hd]
    exact congrArg (fun heading => some heading.1) same

end Before

end Snapshot

namespace Builder

section Before

variable {b b' : Builder} {tag : Tag} {forest : List Element}

theorem Enters.before (entered : b.Enters tag b') : b.snapshot.Before b'.snapshot := by
  unfold Snapshot.Before
  cases entered with
  | package => simp only [Snapshot.headings_addPackage, List.prefix_refl]
  | @declares c id snapshot _ _ _ _ _ _ added =>
    simp only [Snapshot.headings, (Snapshot.classes_addClass? added).2, List.map_append]
    exact List.prefix_append _ _
  | opens => exact List.prefix_refl _
  | adds => exact List.prefix_refl _
  | implements => simp only [Snapshot.headings_update, List.prefix_refl]
  | other => exact List.prefix_refl _

theorem Leaves.headings (left : b.Leaves b') : b'.snapshot.headings = b.snapshot.headings := by
  cases left with
  | member => exact Snapshot.headings_update _ _ _
  | _ => rfl

theorem before_leave {b : Builder} {name : String} {t : Snapshot} :
    (b.leave name).snapshot.Before t ↔ b.snapshot.Before t := by
  rw [Snapshot.Before, (leaves_leave b name).headings, Snapshot.Before]

theorem Builds.before (builds : Builds b forest b') : b.snapshot.Before b'.snapshot := by
  induction builds with
  | nil => exact List.prefix_refl _
  | element entered _ _ ihContent ihRest =>
    exact entered.before.trans (ihContent.trans (before_leave.mp ihRest))

theorem Builds.nested (builds : Builds b forest b') (nested : b.Nested) : b'.Nested :=
  builds.preserves (fun nested entered => nested.enters entered)
    (fun nested left => nested.leaves left) nested

end Before

end Builder

end ApiCompat
