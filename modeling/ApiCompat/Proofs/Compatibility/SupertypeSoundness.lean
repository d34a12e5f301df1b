import ApiCompat.Proofs.Compatibility.Verdict
import ApiCompat.Proofs.Snapshot.Supertypes

/-! Which supertypes a comparison without errors preserves. Only the direct supertypes of
obligations are looked at, so a supertype at a distance is safe where every link on the way to
it is looked at: then the new hierarchy has a path through the classes of the same names.
Three kinds of links are not: those of classes that are no obligations, the superclass of an
interface, and the root class. -/
namespace ApiCompat.Compatibility

open Relation (ReflTransGen)
open Snapshot (mem_supertypeNames_trans reaches_of_mem_supertypeNames nameOf_not_mem_supertypeNames)

/-- A direct supertype whose loss is an error. -/
def Guarded (s : Snapshot) (id : ClassId) (ref : ClassRef) : Prop :=
  ∃ c, s.class? id = some c ∧
    (ref ∈ c.interfaces ∨
      c.superclass = some ref ∧ c.isInterface = false ∧ s.nameOfRef ref ≠ Signature.rootClass)

instance {s : Snapshot} {id : ClassId} {ref : ClassRef} : Decidable (Guarded s id ref) :=
  decidable_of_iff ((s.class? id).any fun c => ref ∈ c.interfaces ∨
    c.superclass = some ref ∧ c.isInterface = false ∧ s.nameOfRef ref ≠ Signature.rootClass)
    (by simp [Guarded, Option.any_eq_true])

/-- A supertype at the end of guarded links that all leave obligations. -/
inductive GuardedSupertype (old new : Snapshot) : ClassId → String → Prop where
  | direct {id : ClassId} {ref : ClassRef} : Obligation old new id → Guarded old id ref →
      GuardedSupertype old new id (old.nameOfRef ref)
  | beyond {id next : ClassId} {name : String} : Obligation old new id →
      Guarded old id (.linked next) → GuardedSupertype old new next name →
        GuardedSupertype old new id name

theorem GuardedSupertype.obligation {old new : Snapshot} {id : ClassId} {name : String}
    (h : GuardedSupertype old new id name) : Obligation old new id := by
  induction h with
  | direct owed _ => exact owed
  | beyond owed _ _ _ => exact owed

section Transport

variable {old new : Snapshot}

theorem obligation_kept (ho : old.WellFormed) (hn : new.WellFormed)
    (clean : Harmless (compare old new)) {id : ClassId} (owed : Obligation old new id) :
    ∃ c id' d, old.class? id = some c ∧ new.find? (old.nameOf id) = some id' ∧
      ClassKept ⟨old, id, c⟩ ⟨new, id', d⟩ := by
  have kept := ((harmless_compare_iff ho hn).mp clean).classes
  obtain ⟨c, hc, _⟩ := Option.any_eq_true _ _ |>.mp owed.exported
  obtain ⟨id', d, hd, hname, classKept⟩ := kept id c hc owed
  refine ⟨c, id', d, hc, ?_, classKept⟩
  rw [Snapshot.nameOf_of_class? hc, ← hname]
  exact hn.find?_qualifiedName hd

theorem guarded_kept (ho : old.WellFormed) (hn : new.WellFormed)
    (clean : Harmless (compare old new)) {id : ClassId} {ref : ClassRef}
    (owed : Obligation old new id) (guarded : Guarded old id ref) :
    ∃ id', new.find? (old.nameOf id) = some id' ∧
      (old.nameOfRef ref ∈ new.supertypeNames id' ∨ old.nameOfRef ref = old.nameOf id) := by
  obtain ⟨c, id', d, hc, found, kept⟩ := obligation_kept ho hn clean owed
  obtain ⟨c', hc', link⟩ := guarded
  cases Option.some.inj (hc.symm.trans hc')
  refine ⟨id', found, ?_⟩
  rcases link with interface | ⟨super, shape, notRoot⟩
  · exact .inl (kept.interfaces ref interface)
  · have inChain := kept.superclass ref super shape notRoot
    rw [← Snapshot.nameOf_of_find? found]
    exact Snapshot.mem_supertypeNames_of_superclassChain hn.closed inChain

theorem guardedSupertype_kept (ho : old.WellFormed) (hn : new.WellFormed)
    (resolved : new.LinksResolved) (clean : Harmless (compare old new)) {id : ClassId}
    {name : String} (h : GuardedSupertype old new id name) :
    ∃ id', new.find? (old.nameOf id) = some id' ∧
      (name ∈ new.supertypeNames id' ∨ name = old.nameOf id) := by
  induction h with
  | direct owed guarded => exact guarded_kept ho hn clean owed guarded
  | @beyond id next name owed guarded _ ih =>
    obtain ⟨id', found, step⟩ := guarded_kept ho hn clean owed guarded
    obtain ⟨next', found', rest⟩ := ih
    refine ⟨id', found, ?_⟩
    change old.nameOf next ∈ _ ∨ old.nameOf next = _ at step
    rcases step with above | same
    · -- The next class is declared in the new snapshot, so it is reached there by links.
      obtain ⟨path, apart⟩ := reaches_of_mem_supertypeNames hn resolved found' above
      rcases rest with further | rfl
      · rw [← Snapshot.nameOf_of_find? found]
        exact mem_supertypeNames_trans hn path further
      · exact .inl above
    · rw [same] at found'
      cases found.symm.trans found'
      exact rest.imp_right (·.trans same)

end Transport

/-- Without an error, supertypes at the end of guarded links are still supertypes. -/
theorem guarded_supertypeNames_preserved {old new : Snapshot} (ho : old.WellFormed)
    (hn : new.WellFormed) (clean : (check .default old.resolve new.resolve).hadError = false)
    {id : ClassId} {name : String} (guarded : GuardedSupertype old.resolve new.resolve id name)
    (supertype : name ∈ old.resolve.supertypeNames id) :
    ∃ id', new.resolve.find? (old.resolve.nameOf id) = some id' ∧
      name ∈ new.resolve.supertypeNames id' := by
  have harmless := (Log.hadError_default_iff _).mp clean
  obtain ⟨id', found, kept⟩ := guardedSupertype_kept ho.resolve hn.resolve
    (Snapshot.linksResolved_resolve new) harmless guarded
  refine ⟨id', found, kept.resolve_right ?_⟩
  rintro rfl
  obtain ⟨c, hc, _⟩ := Option.any_eq_true _ _ |>.mp guarded.obligation.exported
  exact nameOf_not_mem_supertypeNames ho.resolve (Snapshot.linksResolved_resolve old) hc supertype

section Examples

/-- A declaration without members, its supertypes given by name. -/
def heading (package name : String) (kind : ClassKind) (visibility : Visibility)
    (superclass : Option String) (interfaces : List String) : ClassDecl :=
  { ClassDecl.bare package name kind with
    modifiers := { Modifiers.none with visibility := visibility }
    superclass := superclass.map .named
    interfaces := interfaces.map .named }

def onePackage (name : String) (classes : List ClassDecl) : Snapshot :=
  ⟨[⟨name, none, List.range classes.length⟩], classes⟩

theorem linked_not_mem_heading {package name : String} {kind : ClassKind}
    {visibility : Visibility} {superclass : Option String} {interfaces : List String}
    {id : ClassId} : ClassRef.linked id ∉
      (heading package name kind visibility superclass interfaces).supertypes := by
  simp [heading, ClassDecl.supertypes]

theorem declaredParameters_heading (package name : String) (kind : ClassKind)
    (visibility : Visibility) (superclass : Option String) (interfaces : List String) :
    (heading package name kind visibility superclass interfaces).declaredParameters = [] := rfl

theorem wellFormed_onePackage {name : String} {classes : List ClassDecl}
    (distinct : (classes.map (·.qualifiedName)).Nodup)
    (unlinked : ∀ c ∈ classes, ∀ id, ClassRef.linked id ∉ c.supertypes)
    (plain : ∀ c ∈ classes, c.declaredParameters = []) : (onePackage name classes).WellFormed where
  packageNames := by simp [onePackage]
  classNames := distinct
  listing := by simp [onePackage, Snapshot.ids]
  supertypes := fun c hc id linked => absurd linked (unlinked c hc id)
  parameters := by
    intro c hc p hp
    rw [plain c hc] at hp
    cases hp

/-- Public classes, each below the next, the last one below a class that is not declared. -/
def chainOf (names : List String) : Snapshot :=
  onePackage "p" ((names.zip (names.tail.map ("p." ++ ·) ++ ["java.io.Reader"])).map
    fun (name, top) => heading "p" name .plain .everywhere (some top) [])

theorem wellFormed_chainOf {names : List String}
    (distinct : ((chainOf names).classes.map (·.qualifiedName)).Nodup) :
    (chainOf names).WellFormed := by
  refine wellFormed_onePackage distinct ?_ ?_
  · intro c hc id
    obtain ⟨pair, _, rfl⟩ := List.mem_map.mp hc
    exact linked_not_mem_heading
  · intro c hc
    obtain ⟨pair, _, rfl⟩ := List.mem_map.mp hc
    rfl

/-- A class put in between leaves the supertypes at a distance. -/
theorem supertype_preserved_inserted :
    ∃ id, (chainOf ["Derived", "Middle", "Base"]).resolve.find?
        ((chainOf ["Derived", "Base"]).resolve.nameOf 0) = some id ∧
      "java.io.Reader" ∈ (chainOf ["Derived", "Middle", "Base"]).resolve.supertypeNames id := by
  have ho : (chainOf ["Derived", "Base"]).WellFormed := wellFormed_chainOf (by decide +kernel)
  have hn : (chainOf ["Derived", "Middle", "Base"]).WellFormed :=
    wellFormed_chainOf (by decide +kernel)
  have last : Guarded (chainOf ["Derived", "Base"]).resolve 1 (.named "java.io.Reader") := by
    decide +kernel
  have first : Guarded (chainOf ["Derived", "Base"]).resolve 0 (.linked 1) := by decide +kernel
  have derived : Obligation (chainOf ["Derived", "Base"]).resolve
      (chainOf ["Derived", "Middle", "Base"]).resolve 0 := isObligation_iff.mp (by decide +kernel)
  have base : Obligation (chainOf ["Derived", "Base"]).resolve
      (chainOf ["Derived", "Middle", "Base"]).resolve 1 := isObligation_iff.mp (by decide +kernel)
  have guarded := GuardedSupertype.beyond derived first (.direct base last)
  refine guarded_supertypeNames_preserved ho hn (by decide +kernel) guarded ?_
  exact Snapshot.mem_supertypeNames_iff_unsorted.mpr (by decide +kernel)

/-- Every supertype that clients can name is preserved. -/
def KeepsSupertypes (old new : Snapshot) : Prop :=
  (check .default old new).hadError = false → ∀ id name, Obligation old new id →
    name ∈ old.supertypeNames id →
    (old.find? name = none ∨ ∃ found, old.find? name = some found ∧ isExported old found = true) →
    name ≠ Signature.rootClass →
      ∃ id', new.find? (old.nameOf id) = some id' ∧ name ∈ new.supertypeNames id'

theorem not_keepsSupertypes {old new : Snapshot} {name : String}
    (clean : (check .default old new).hadError = false) (owed : isObligation old new 0 = true)
    (external : old.find? name = none) (notRoot : name ≠ Signature.rootClass)
    (before : name ∈ (old.ancestors 0).map old.nameOf ∨
      name ∈ (0 :: old.ancestors 0).flatMap old.externalNames)
    (same : new.find? (old.nameOf 0) = some 0)
    (after : ¬(name ∈ (new.ancestors 0).map new.nameOf ∨
      name ∈ (0 :: new.ancestors 0).flatMap new.externalNames)) : ¬KeepsSupertypes old new := by
  intro keeps
  obtain ⟨id, found, supertype⟩ := keeps clean 0 name (isObligation_iff.mp owed)
    (Snapshot.mem_supertypeNames_iff_unsorted.mpr before) (.inl external) notRoot
  cases same.symm.trans found
  exact after (Snapshot.mem_supertypeNames_iff_unsorted.mp supertype)

/-- A public class below a package-private one with these interfaces. -/
def belowHidden (interfaces : List String) : Snapshot :=
  onePackage "p" [heading "p" "Derived" .plain .everywhere (some "p.Base") [],
    heading "p" "Base" .plain .ownPackage none interfaces]

/-- An interface whose description names a superclass. -/
def extendingInterface (superclass : Option String) : Snapshot :=
  onePackage "p" [heading "p" "Sub" .interface .everywhere superclass []]

/-- A class beside a described root class that has a superclass itself. -/
def belowRoot (superclass : Option String) : Snapshot :=
  onePackage "java.lang" [heading "java.lang" "Derived" .plain .everywhere superclass [],
    heading "java.lang" "Object" .plain .everywhere (some "java.lang.Origin") []]

/-- Supertypes above a hidden class, an interface's superclass and the root class get lost. -/
theorem supertypes_lost_unguarded :
    ((belowHidden ["java.io.Closeable"]).WellFormed ∧ (belowHidden []).WellFormed ∧
      ¬KeepsSupertypes (belowHidden ["java.io.Closeable"]).resolve (belowHidden []).resolve) ∧
    ((extendingInterface (some "java.io.Closeable")).WellFormed ∧
      (extendingInterface none).WellFormed ∧
      ¬KeepsSupertypes (extendingInterface (some "java.io.Closeable")).resolve
        (extendingInterface none).resolve) ∧
    ((belowRoot (some "java.lang.Object")).WellFormed ∧ (belowRoot none).WellFormed ∧
      ¬KeepsSupertypes (belowRoot (some "java.lang.Object")).resolve (belowRoot none).resolve) := by
  have hidden (interfaces : List String) : (belowHidden interfaces).WellFormed :=
    wellFormed_onePackage (by simp [heading, ClassDecl.bare]) (by simp [linked_not_mem_heading])
      (by simp [declaredParameters_heading])
  have extending (superclass : Option String) : (extendingInterface superclass).WellFormed :=
    wellFormed_onePackage (by simp [heading, ClassDecl.bare]) (by simp [linked_not_mem_heading])
      (by simp [declaredParameters_heading])
  have rooted (superclass : Option String) : (belowRoot superclass).WellFormed :=
    wellFormed_onePackage (by simp [heading, ClassDecl.bare]) (by simp [linked_not_mem_heading])
      (by simp [declaredParameters_heading])
  refine ⟨⟨hidden _, hidden _, ?_⟩, ⟨extending _, extending _, ?_⟩, rooted _, rooted _, ?_⟩
  · have external : (belowHidden ["java.io.Closeable"]).resolve.find? "java.io.Closeable" =
        none := by decide +kernel
    refine not_keepsSupertypes ?_ ?_ external ?_ ?_ ?_ ?_ <;> decide +kernel
  · have external : (extendingInterface (some "java.io.Closeable")).resolve.find?
        "java.io.Closeable" = none := by decide +kernel
    refine not_keepsSupertypes ?_ ?_ external ?_ ?_ ?_ ?_ <;> decide +kernel
  · have external : (belowRoot (some "java.lang.Object")).resolve.find? "java.lang.Origin" =
        none := by decide +kernel
    refine not_keepsSupertypes ?_ ?_ external ?_ ?_ ?_ ?_ <;> decide +kernel

end Examples

end ApiCompat.Compatibility
