import ApiCompat.Proofs.Compatibility.Session
import ApiCompat.Proofs.Compatibility.SupertypeSoundness
import ApiCompat.Proofs.Snapshot.Nesting
import Mathlib.Data.List.Lattice
import Mathlib.Data.List.Pairwise

/-! A class that leaves the API. Its comparison says so once, after saying whether classes and
interfaces were exchanged, and says nothing of its contents. Neither does the rest of the run:
classes inside it are no obligations any more, and those inside its counterpart are not
additions. -/
namespace ApiCompat

theorem flatMap_eq_of_unique {α β : Type} {list : List α} {f : α → List β} {a : α}
    (nodup : list.Nodup) (ha : a ∈ list) (others : ∀ b ∈ list, b ≠ a → f b = []) :
    list.flatMap f = f a := by
  obtain ⟨before, after, rfl⟩ := List.append_of_mem ha
  obtain ⟨_, nodup, apart⟩ := List.nodup_append.mp nodup
  have first : before.flatMap f = [] := by
    refine List.flatMap_eq_nil_iff.mpr fun b hb => ?_
    exact others b (List.mem_append_left _ hb) (apart b hb a List.mem_cons_self)
  have last : after.flatMap f = [] := by
    refine List.flatMap_eq_nil_iff.mpr fun b hb => ?_
    refine others b (List.mem_append_right _ (List.mem_cons_of_mem _ hb)) ?_
    rintro rfl
    exact (List.nodup_cons.mp nodup).1 hb
  rw [List.flatMap_append, List.flatMap_cons, first, last, List.nil_append, List.append_nil]

namespace Snapshot.WellFormed

variable {s : Snapshot}

theorem nodup_listing (wf : s.WellFormed) : (s.packages.flatMap (·.classes)).Nodup :=
  wf.listing.nodup_iff.mpr List.nodup_range

theorem package_unique (wf : s.WellFormed) {p q : Package} (hp : p ∈ s.packages)
    (hq : q ∈ s.packages) {id : ClassId} (inP : id ∈ p.classes) (inQ : id ∈ q.classes) :
    p = q := by
  by_contra apart
  have symmetric : Std.Symm (Function.onFun List.Disjoint Package.classes) :=
    ⟨fun _ _ h => List.Disjoint.symm h⟩
  exact (List.nodup_flatMap.mp wf.nodup_listing).2.forall hp hq apart inP inQ

end Snapshot.WellFormed

namespace Compatibility

open Session (entries entriesOf packageEntries obligationEntries addedClassEntries run)

section Subjects

variable {old new : Snapshot}

/-- The findings that are handed over on behalf of one subject. -/
def onBehalfOf (subject : Subject) (handed : List Entry) : List Finding :=
  (handed.filter (·.subject = subject)).map (·.finding)

theorem onBehalfOf_append (subject : Subject) (first second : List Entry) :
    onBehalfOf subject (first ++ second) =
      onBehalfOf subject first ++ onBehalfOf subject second := by
  rw [onBehalfOf, List.filter_append, List.map_append]
  rfl

theorem onBehalfOf_flatMap {α : Type} (subject : Subject) (list : List α) (f : α → List Entry) :
    onBehalfOf subject (list.flatMap f) = list.flatMap fun a => onBehalfOf subject (f a) := by
  rw [onBehalfOf, List.filter_flatMap, List.map_flatMap]
  rfl

theorem onBehalfOf_entriesOf_self (subject : Subject) (findings : List Finding) :
    onBehalfOf subject (entriesOf subject findings) = findings := by
  have all : (entriesOf subject findings).filter (·.subject = subject) =
      entriesOf subject findings := by
    refine List.filter_eq_self.mpr ?_
    simp [entriesOf]
  rw [onBehalfOf, all, Session.finding_entriesOf]

theorem onBehalfOf_entriesOf_ne {subject other : Subject} (apart : other ≠ subject)
    (findings : List Finding) : onBehalfOf subject (entriesOf other findings) = [] := by
  have none : (entriesOf other findings).filter (·.subject = subject) = [] := by
    refine List.filter_eq_nil_iff.mpr ?_
    simp [entriesOf, apart]
  rw [onBehalfOf, none, List.map_nil]

theorem obligation_of_mem {p : Package} {place : Place} (h : place ∈ obligations old new p) :
    place.id ∈ p.classes ∧ Obligation old new place.id ∧
      old.class? place.id = some place.decl ∧ place.snapshot = old := by
  obtain ⟨id, hid, c, hc, owed, rfl⟩ := mem_obligations_iff.mp h
  exact ⟨hid, owed, hc, rfl⟩

theorem nodup_obligations (wf : old.WellFormed) {p : Package} (hp : p ∈ old.packages) :
    (obligations old new p).Nodup := by
  have listed : p.classes.Nodup := (List.nodup_flatMap.mp wf.nodup_listing).1 p hp
  refine (listed.filter _).filterMap ?_
  intro a b place ha hb
  obtain ⟨c, _, rfl⟩ := Option.map_eq_some_iff.mp ha
  obtain ⟨d, _, same⟩ := Option.map_eq_some_iff.mp hb
  exact (congrArg Place.id same).symm

/-- What a package hands over on behalf of an old class comes from its obligations. -/
theorem onBehalfOf_packageEntries (id : ClassId) (p : Package) :
    onBehalfOf (.oldClass id) (packageEntries old new p) =
      if (new.package? p.name).isSome then (obligations old new p).flatMap fun place =>
        onBehalfOf (.oldClass id) (obligationEntries new place) else [] := by
  unfold packageEntries
  cases new.package? p.name with
  | none => exact onBehalfOf_entriesOf_ne (by simp) _
  | some q =>
    have added : (q.classes.filterMap (Place.of? new)).flatMap (fun place =>
        onBehalfOf (.oldClass id) (addedClassEntries old place)) = [] :=
      List.flatMap_eq_nil_iff.mpr fun place _ => onBehalfOf_entriesOf_ne (by simp) _
    rw [onBehalfOf_append, onBehalfOf_flatMap, onBehalfOf_flatMap, added, List.append_nil]
    rfl

/-- On behalf of an obligation a run hands over what its comparison gives, if its package is
still there, and nothing else. -/
theorem onBehalfOf_obligation (ho : old.WellFormed) {id : ClassId} {c : ClassDecl}
    (hc : old.class? id = some c) (owed : Obligation old new id) {p : Package}
    (hp : p ∈ old.packages) (listed : id ∈ p.classes) :
    onBehalfOf (.oldClass id) (entries old new) =
      if (new.package? p.name).isSome then obligationFindings new ⟨old, id, c⟩ else [] := by
  have added : new.packages.flatMap (fun q => onBehalfOf (.oldClass id)
      (entriesOf (.package q.name) (addedPackage old q))) = [] :=
    List.flatMap_eq_nil_iff.mpr fun q _ => onBehalfOf_entriesOf_ne (by simp) _
  -- No other package lists the class, and its own package lists it once.
  have elsewhere : ∀ q ∈ old.packages, q ≠ p →
      onBehalfOf (.oldClass id) (packageEntries old new q) = [] := by
    intro q hq apart
    rw [onBehalfOf_packageEntries]
    split
    · refine List.flatMap_eq_nil_iff.mpr fun place hplace => onBehalfOf_entriesOf_ne ?_ _
      rintro ⟨⟩
      exact apart (ho.package_unique hq hp (obligation_of_mem hplace).1 listed)
    · rfl
  have here : (obligations old new p).flatMap (fun place => onBehalfOf (.oldClass id)
      (obligationEntries new place)) = obligationFindings new ⟨old, id, c⟩ := by
    have mem : ⟨old, id, c⟩ ∈ obligations old new p :=
      mem_obligations_iff.mpr ⟨id, listed, c, hc, owed, rfl⟩
    refine (flatMap_eq_of_unique (nodup_obligations ho hp) mem ?_).trans ?_
    · intro place hplace apart
      refine onBehalfOf_entriesOf_ne ?_ _
      rintro ⟨⟩
      obtain ⟨_, _, hd, hs⟩ := obligation_of_mem hplace
      refine apart ?_
      cases place
      cases hs
      cases hc.symm.trans hd
      rfl
    · exact onBehalfOf_entriesOf_self _ _
  have distinct : old.packages.Nodup := ho.packageNames.of_map _
  rw [entries, onBehalfOf_append, onBehalfOf_flatMap, onBehalfOf_flatMap, added, List.append_nil,
    flatMap_eq_of_unique distinct hp elsewhere, onBehalfOf_packageEntries, here]

theorem subject_of_mem_entriesOf {subject : Subject} {findings : List Finding} {e : Entry}
    (h : e ∈ entriesOf subject findings) : e.subject = subject ∧ e.finding ∈ findings := by
  obtain ⟨f, hf, rfl⟩ := List.mem_map.mp h
  exact ⟨rfl, hf⟩

/-- Something is handed over on behalf of packages, obligations and added classes only. -/
theorem subject_of_mem_entries {e : Entry} (he : e ∈ entries old new) :
    (∃ name, e.subject = .package name) ∨
      (∃ id, e.subject = .oldClass id ∧ Obligation old new id) ∨
      ∃ id d, e.subject = .newClass id ∧ new.class? id = some d ∧
        e.finding ∈ addedClass old ⟨new, id, d⟩ := by
  rcases List.mem_append.mp he with inside | inside
  · obtain ⟨p, _, inside⟩ := List.mem_flatMap.mp inside
    unfold packageEntries at inside
    split at inside
    · exact .inl ⟨_, (subject_of_mem_entriesOf inside).1⟩
    · rcases List.mem_append.mp inside with inside | inside
      · obtain ⟨place, hplace, inside⟩ := List.mem_flatMap.mp inside
        have owed := (obligation_of_mem hplace).2.1
        exact .inr (.inl ⟨_, (subject_of_mem_entriesOf inside).1, owed⟩)
      · obtain ⟨place, hplace, inside⟩ := List.mem_flatMap.mp inside
        obtain ⟨id, _, hid⟩ := List.mem_filterMap.mp hplace
        obtain ⟨d, hd, rfl⟩ := Option.map_eq_some_iff.mp hid
        obtain ⟨subject, finding⟩ := subject_of_mem_entriesOf inside
        exact .inr (.inr ⟨id, d, subject, hd, finding⟩)
  · obtain ⟨q, _, inside⟩ := List.mem_flatMap.mp inside
    exact .inl ⟨_, (subject_of_mem_entriesOf inside).1⟩

theorem onBehalfOf_eq_nil_iff {subject : Subject} {handed : List Entry} :
    onBehalfOf subject handed = [] ↔ ∀ e ∈ handed, e.subject ≠ subject := by
  simp only [onBehalfOf, List.map_eq_nil_iff, List.filter_eq_nil_iff, decide_eq_true_eq, ne_eq]

theorem onBehalfOf_oldClass_eq_nil {id : ClassId} (free : ¬Obligation old new id) :
    onBehalfOf (.oldClass id) (entries old new) = [] := by
  refine onBehalfOf_eq_nil_iff.mpr fun e he same => ?_
  rcases subject_of_mem_entries he with ⟨_, other⟩ | ⟨_, other, owed⟩ | ⟨_, _, other, _⟩
  · cases same.symm.trans other
  · cases same.symm.trans other
    exact free owed
  · cases same.symm.trans other

theorem mem_addedClass_reachable {place : Place} {f : Finding} (h : f ∈ addedClass old place) :
    place.decl.exported = true ∧
      ∀ outer ∈ place.snapshot.enclosing place.id, isExported place.snapshot outer = true := by
  unfold addedClass finding at h
  split at h
  · rename_i holds
    simp only [Bool.and_eq_true, enclosedByUnexported, Bool.not_eq_true', List.any_eq_false,
      Bool.not_eq_false] at holds
    exact ⟨holds.1.1, fun outer hmem => by simpa using holds.1.2 outer hmem⟩
  · cases h

/-- A class that is not exported, or lies inside one that is not, is no addition. -/
theorem onBehalfOf_newClass_eq_nil {id hidden : ClassId} (unexported : isExported new hidden = false)
    (within : id = hidden ∨ hidden ∈ new.enclosing id) :
    onBehalfOf (.newClass id) (entries old new) = [] := by
  refine onBehalfOf_eq_nil_iff.mpr fun e he same => ?_
  rcases subject_of_mem_entries he with ⟨_, other⟩ | ⟨_, other, _⟩ | ⟨_, d, other, hd, added⟩
  · cases same.symm.trans other
  · cases same.symm.trans other
  · cases same.symm.trans other
    obtain ⟨exported, reachable⟩ := mem_addedClass_reachable added
    have visible : isExported new hidden = true := by
      rcases within with rfl | around
      · rw [isExported, hd]
        exact exported
      · exact reachable hidden around
    rw [visible] at unexported
    cases unexported

end Subjects

/-- What is said of a class that left the API. -/
def withdrawalFindings (c d : ClassDecl) : List Finding :=
  (if c.isInterface = d.isInterface then [] else [⟨.changedClass,
      "Class " ++ c.qualifiedName ++ " changed from " ++ c.kind.text ++ " to " ++ d.kind.text,
      d.position⟩]) ++
    [⟨.changedScope, "Class " ++ c.qualifiedName ++
      visibilityText c.modifiers.visibility d.modifiers.visibility, d.position⟩]

section Withdrawal

variable {old new : Snapshot} {id id' : ClassId} {c d : ClassDecl}

theorem compareClass_withdrawn {before after : Place} (exported : before.decl.exported = true)
    (withdrawn : after.decl.exported = false) :
    compareClass before after = withdrawalFindings before.decl after.decl := by
  have narrowed : before.decl.modifiers.visibility.narrowed
      after.decl.modifiers.visibility = true := by
    have wide := (Visibility.exported_iff _).mp exported
    have narrow := mt (Visibility.exported_iff _).mpr (Bool.eq_false_iff.mp withdrawn)
    exact decide_eq_true (Nat.lt_of_lt_of_le (Nat.lt_of_not_le narrow) wide)
  have exchanged : kindIncompatible before.decl.kind after.decl.kind =
      !decide (before.decl.isInterface = after.decl.isInterface) := rfl
  rw [compareClass, withdrawn, if_neg Bool.false_ne_true, List.append_nil, standingFindings,
    narrowed, exchanged, withdrawalFindings]
  by_cases shape : before.decl.isInterface = after.decl.isInterface <;> simp [finding, shape]

theorem counterpart?_eq (hn : new.WellFormed) (hd : new.class? id' = some d)
    (same : d.qualifiedName = c.qualifiedName) : counterpart? new c = some ⟨new, id', d⟩ := by
  rw [counterpart?, ← same, hn.find?_qualifiedName hd, Option.bind_some, Place.of?, hd]
  rfl

/-- The comparison of a class that left the API counts the class, says that it left, and nothing
else; and the whole run has nothing to say on behalf of what lies inside it on either side. -/
theorem withdrawal_reported_once (ho : old.WellFormed) (hn : new.WellFormed)
    (nestedOld : old.Nested) (nestedNew : new.Nested) (hc : old.class? id = some c)
    (owed : Obligation old new id) (hd : new.class? id' = some d)
    (same : d.qualifiedName = c.qualifiedName) (withdrawn : d.exported = false)
    (table : SeverityTable) :
    (∀ s : Session, s.visitClass ⟨old, id, c⟩ ⟨new, id', d⟩ =
        s.advance (entriesOf (.oldClass id) (withdrawalFindings c d)) ⟨0, 1, 0⟩) ∧
      (∃ p ∈ old.packages, id ∈ p.classes ∧
        onBehalfOf (.oldClass id) (run table old new).handed =
          if (new.package? p.name).isSome then withdrawalFindings c d else []) ∧
      (∀ inner, old.Inside inner id →
        onBehalfOf (.oldClass inner) (run table old new).handed = []) ∧
      ∀ inner, inner = id' ∨ new.Inside inner id' →
        onBehalfOf (.newClass inner) (run table old new).handed = [] := by
  have exported := exported_of_obligation hc owed
  have compared : compareClass ⟨old, id, c⟩ ⟨new, id', d⟩ = withdrawalFindings c d :=
    compareClass_withdrawn exported withdrawn
  have found : new.find? (old.nameOf id) = some id' := by
    rw [Snapshot.nameOf_of_class? hc, ← same]
    exact hn.find?_qualifiedName hd
  have unexported : isExported new id' = false := by
    rw [isExported, hd]
    exact withdrawn
  rw [Session.run_eq]
  refine ⟨?_, ?_, ?_, ?_⟩
  · intro s
    rw [Session.visitClass_eq_advance, compared, Session.classCount, withdrawn]
    rfl
  · obtain ⟨p, hp, listed⟩ := ho.exists_package (Snapshot.mem_ids_of_class? hc)
    refine ⟨p, hp, listed, ?_⟩
    have here : obligationFindings new ⟨old, id, c⟩ = withdrawalFindings c d := by
      simp only [obligationFindings, counterpart?_eq hn hd same, compared]
    exact (onBehalfOf_obligation ho hc owed hp listed).trans (by rw [here])
  · intro inner inside
    refine onBehalfOf_oldClass_eq_nil fun promised => ?_
    have around := (Snapshot.mem_enclosing_iff nestedOld).mpr inside
    have retained := promised.retained id around id' found
    rw [unexported] at retained
    cases retained
  · intro inner within
    refine onBehalfOf_newClass_eq_nil unexported (within.imp_right fun inside => ?_)
    exact (Snapshot.mem_enclosing_iff nestedNew).mpr inside

/-- A class and one inside it, which declares a method. -/
def nestedPair (outer : Visibility) (kind : ClassKind) (inner : String) : Snapshot :=
  onePackage "p" [heading "p" "Outer" kind outer none [],
    { heading "p" inner .plain .everywhere none [] with
      outer := some 0, methods := [publicMethod "run"] }]

theorem wellFormed_nestedPair {outer : Visibility} {kind : ClassKind} {inner : String}
    (apart : "p.Outer" ≠ "p." ++ inner) : (nestedPair outer kind inner).WellFormed := by
  refine wellFormed_onePackage ?_ ?_ ?_
  · simpa [heading, ClassDecl.bare] using apart
  · simp [heading, ClassDecl.bare, ClassDecl.supertypes]
  · simp [heading, ClassDecl.bare, ClassDecl.declaredParameters, ClassDecl.callables, publicMethod]

theorem nested_nestedPair (outer : Visibility) (kind : ClassKind) (inner : String) :
    (nestedPair outer kind inner).Nested := by
  rw [Snapshot.nested_iff]
  simp [nestedPair, onePackage, Snapshot.outers, heading, ClassDecl.bare]

/-- A class becomes an interface that is not exported, and what was inside it is replaced. -/
theorem withdrawn_outer_reported_once :
    (onBehalfOf (.oldClass 0) (run .default (nestedPair .everywhere .plain "Outer.Before")
        (nestedPair .ownPackage .interface "Outer.After")).handed).map (·.message) =
      ["Class p.Outer changed from class to interface",
        "Class p.Outer changed visibility from public to package-private"] ∧
    onBehalfOf (.oldClass 1) (run .default (nestedPair .everywhere .plain "Outer.Before")
      (nestedPair .ownPackage .interface "Outer.After")).handed = [] ∧
    onBehalfOf (.newClass 1) (run .default (nestedPair .everywhere .plain "Outer.Before")
      (nestedPair .ownPackage .interface "Outer.After")).handed = [] := by
  have ho : (nestedPair .everywhere .plain "Outer.Before").WellFormed :=
    wellFormed_nestedPair (by decide)
  have hn : (nestedPair .ownPackage .interface "Outer.After").WellFormed :=
    wellFormed_nestedPair (by decide)
  have hc : (nestedPair .everywhere .plain "Outer.Before").class? 0 =
      some (heading "p" "Outer" .plain .everywhere none []) := rfl
  have hd : (nestedPair .ownPackage .interface "Outer.After").class? 0 =
      some (heading "p" "Outer" .interface .ownPackage none []) := rfl
  have owed : Obligation (nestedPair .everywhere .plain "Outer.Before")
      (nestedPair .ownPackage .interface "Outer.After") 0 := isObligation_iff.mp (by decide +kernel)
  obtain ⟨_, ⟨p, hp, _, said⟩, before, after⟩ := withdrawal_reported_once ho hn
    (nested_nestedPair _ _ _) (nested_nestedPair _ _ _) hc owed hd rfl rfl .default
  refine ⟨?_, before 1 ⟨by decide, .single rfl⟩, after 1 (.inr ⟨by decide, .single rfl⟩)⟩
  cases List.mem_singleton.mp hp
  rw [said]
  decide +kernel

end Withdrawal

end Compatibility

end ApiCompat
