import ApiCompat.Proofs.Compatibility.Categories
import ApiCompat.Proofs.Snapshot.Superclasses

/-! Thrown types that callers have to be told of. A new thrown type widens what a method throws unless
callers need not declare it, or an old thrown type covers it: that type has its name, or the name of
one of its supertypes in the new hierarchy. Both are said with links at any distance. The comparison
records the widening types of each method and constructor that it finds again, in their order. -/
namespace ApiCompat.Compatibility

open Relation (ReflTransGen)
open Session (run)

section Types

/-- Callers need not declare the type. -/
inductive Unchecked (s : Snapshot) : ClassRef → Prop where
  | known {ref : ClassRef} : s.nameOfRef ref ∈ uncheckedNames → Unchecked s ref
  | error {id : ClassId} {c : ClassDecl} : s.class? id = some c → c.kind = .error →
      Unchecked s (.linked id)
  | below {id : ClassId} {name : String} : s.HasSuperclass id name → name ∈ uncheckedNames →
      Unchecked s (.linked id)

/-- Whoever handles the old thrown type handles the new one. -/
inductive Covers (old new : Snapshot) (former : ClassRef) : ClassRef → Prop where
  | same {thrown : ClassRef} : new.nameOfRef thrown = old.nameOfRef former →
      Covers old new former thrown
  | above {id : ClassId} : new.HasSupertype id (old.nameOfRef former) →
      Covers old new former (.linked id)

/-- The type is new to callers of a declaration that threw the earlier types. -/
structure Widens (old new : Snapshot) (earlier : List ClassRef) (thrown : ClassRef) : Prop where
  checked : ¬Unchecked new thrown
  uncovered : ∀ former ∈ earlier, ¬Covers old new former thrown

variable {old new : Snapshot} {earlier : List ClassRef} {thrown : ClassRef}

theorem isUncheckedName_iff {name : String} :
    isUncheckedName name = true ↔ name ∈ uncheckedNames :=
  List.contains_iff_mem

theorem isUnchecked_iff (closed : new.Closed) :
    isUnchecked new thrown = true ↔ Unchecked new thrown := by
  cases thrown with
  | named name =>
    constructor
    · intro known
      exact .known (isUncheckedName_iff.mp known)
    · rintro ⟨known⟩
      exact isUncheckedName_iff.mpr known
  | linked id =>
    simp only [isUnchecked, Bool.or_eq_true, Option.any_eq_true, beq_iff_eq, isUncheckedName_iff,
      chainIsUnchecked, List.any_eq_true, Snapshot.mem_superclassChain_iff closed]
    constructor
    · rintro ((⟨c, hc, kind⟩ | known) | ⟨name, above, known⟩)
      · exact .error hc kind
      · exact .known known
      · exact .below above known
    · rintro (known | ⟨hc, kind⟩ | ⟨above, known⟩)
      · exact .inl (.inr known)
      · exact .inl (.inl ⟨_, hc, kind⟩)
      · exact .inr ⟨_, above, known⟩

theorem wasThrown_iff (wf : new.WellFormed) :
    wasThrown old new earlier thrown = true ↔ ∃ former ∈ earlier, Covers old new former thrown := by
  simp only [wasThrown, List.any_eq_true, Bool.or_eq_true, beq_iff_eq, Option.any_eq_true]
  refine exists_congr fun former => and_congr_right fun _ => ?_
  constructor
  · rintro (same | ⟨id, link, below⟩)
    · exact .same same.symm
    · cases ClassRef.id?_eq_some_iff.mp link
      rcases (Snapshot.isSubtypeOf_iff_hasSupertype wf).mp below with same | above
      · exact .same same
      · exact .above above
  · rintro (same | above)
    · exact .inl same.symm
    · exact .inr ⟨_, rfl, (Snapshot.isSubtypeOf_iff_hasSupertype wf).mpr (.inr above)⟩

open scoped Classical in
theorem addedThrows_eq_filter (wf : new.WellFormed) (a b : Callable) :
    addedThrows old new a b = b.exceptions.filter (Widens old new a.exceptions) := by
  refine List.filter_congr fun thrown _ => ?_
  rw [Bool.eq_iff_iff, Bool.and_eq_true, Bool.not_eq_true', Bool.not_eq_true', decide_eq_true_iff,
    ← Bool.not_eq_true, ← Bool.not_eq_true, isUnchecked_iff wf.closed, wasThrown_iff wf]
  constructor
  · rintro ⟨checked, uncovered⟩
    exact ⟨checked, fun former hf covers => uncovered ⟨former, hf, covers⟩⟩
  · rintro ⟨checked, uncovered⟩
    refine ⟨checked, ?_⟩
    rintro ⟨former, hf, covers⟩
    exact uncovered former hf covers

end Types

section Pairings

/-- A method or constructor, and the one that answers for it. -/
structure Pairing where
  label : String
  before : Callable
  after : Callable

variable {old new : Place}

inductive IsPairing (old new : Place) : Pairing → Prop where
  | constructor {a b : Constructor} : a ∈ old.decl.constructors →
      a.modifiers.visibility.exported = true → new.DeclaresConstructor (a.key old.scope) b →
      IsPairing old new ⟨constructorLabel old.decl a, a, b⟩
  | method {a b : Method} : a ∈ old.decl.methods →
      a.modifiers.visibility.exported = true → new.DeclaresMethod (a.key old.scope) b →
      IsPairing old new ⟨methodLabel old.decl a, a.toCallable, b.toCallable⟩

def constructorPairing? (old new : Place) (a : Constructor) : Option Pairing :=
  (new.constructor? (a.key old.scope)).map fun b => ⟨constructorLabel old.decl a, a, b⟩

def methodPairing? (old new : Place) (a : Method) : Option Pairing :=
  (new.method? (a.key old.scope)).map fun b =>
    ⟨methodLabel old.decl a, a.toCallable, b.toCallable⟩

/-- The pairings of two classes in the order of the old declarations. -/
def pairings (old new : Place) : List Pairing :=
  (exportedConstructors old.decl).flatMap (fun a => (constructorPairing? old new a).toList) ++
    (exportedMethods old.decl).flatMap fun a => (methodPairing? old new a).toList

theorem mem_pairings_iff {m : Pairing} : m ∈ pairings old new ↔ IsPairing old new m := by
  simp only [pairings, List.mem_append, List.mem_flatMap, Option.mem_toList,
    constructorPairing?, methodPairing?, Option.map_eq_some_iff, exportedConstructors,
    exportedMethods, List.mem_filter, Place.constructor?_eq_some_iff, Place.method?_eq_some_iff]
  constructor
  · rintro (⟨a, ⟨ha, exported⟩, b, found, rfl⟩ | ⟨a, ⟨ha, exported⟩, b, found, rfl⟩)
    · exact .constructor ha exported found
    · exact .method ha exported found
  · rintro (⟨ha, exported, found⟩ | ⟨ha, exported, found⟩)
    · exact .inl ⟨_, ⟨ha, exported⟩, _, found, rfl⟩
    · exact .inr ⟨_, ⟨ha, exported⟩, _, found, rfl⟩

def throwsFinding (new : Snapshot) (m : Pairing) (thrown : ClassRef) : Finding :=
  ⟨.changedThrows, "Method " ++ m.label ++ " added thrown exception " ++ new.nameOfRef thrown,
    m.after.position.or m.before.position⟩

def throwsFindings (old new : Snapshot) (m : Pairing) : List Finding :=
  (addedThrows old new m.before m.after).map (throwsFinding new m)

open scoped Classical in
theorem throwsFindings_eq {old new : Snapshot} (wf : new.WellFormed) (m : Pairing) :
    throwsFindings old new m =
      (m.after.exceptions.filter (Widens old new m.before.exceptions)).map
        (throwsFinding new m) := by
  rw [throwsFindings, addedThrows_eq_filter wf]

/-- Nothing else that is said of a method or constructor is of this category. -/
theorem ofCategory_compareCallable (before after : Snapshot) (m : Pairing) :
    ofCategory .changedThrows (compareCallable before after m.label m.before m.after) =
      throwsFindings before after m := by
  have all : ofCategory .changedThrows (throwsFindings before after m) =
      throwsFindings before after m := by
    refine List.filter_eq_self.mpr fun f hf => ?_
    obtain ⟨thrown, _, rfl⟩ := List.mem_map.mp hf
    rfl
  simp only [compareCallable, ofCategory_append, ofCategory_finding, reduceCtorEq, if_false,
    List.nil_append]
  exact all

theorem ofCategory_constructorFindings (a : Constructor) :
    ofCategory .changedThrows (constructorFindings old new a) =
      (constructorPairing? old new a).toList.flatMap
        (throwsFindings old.snapshot new.snapshot) := by
  unfold constructorFindings constructorPairing?
  cases new.constructor? (a.key old.scope) with
  | none => rfl
  | some b =>
    rw [Option.map_some, Option.toList_some, List.flatMap_singleton]
    exact ofCategory_compareCallable _ _ ⟨constructorLabel old.decl a, a, b⟩

theorem ofCategory_methodFindings (a : Method) :
    ofCategory .changedThrows (methodFindings old new a) =
      (methodPairing? old new a).toList.flatMap (throwsFindings old.snapshot new.snapshot) := by
  unfold methodFindings methodPairing?
  dsimp only
  cases new.method? (a.key old.scope) with
  | none => simp [ofCategory_finding]
  | some b =>
    rw [Option.map_some, Option.toList_some, List.flatMap_singleton]
    simp only [compareMethod, ofCategory_append, ofCategory_finding, reduceCtorEq, if_false,
      List.nil_append]
    exact ofCategory_compareCallable _ _
      ⟨methodLabel old.decl a, a.toCallable, b.toCallable⟩

theorem ofCategory_compareClass_throws (still : new.decl.exported = true) :
    ofCategory .changedThrows (compareClass old new) =
      (pairings old new).flatMap (throwsFindings old.snapshot new.snapshot) := by
  rw [ofCategory_compareClass (by decide) (by decide) still,
    flatMap_ofCategory_eq_nil within_addedConstructor (by decide),
    flatMap_ofCategory_eq_nil within_addedMethod (by decide), List.append_nil, List.append_nil,
    funext ofCategory_constructorFindings, funext ofCategory_methodFindings, pairings,
    List.flatMap_append, List.flatMap_assoc, List.flatMap_assoc]

end Pairings

open scoped Classical in

/-- On behalf of an obligation, a run records the thrown types that widen each method and constructor
found again, once each and in their order; so it records none where all of them were covered. -/
theorem throws_widened {old new : Snapshot} (ho : old.WellFormed) (hn : new.WellFormed)
    {id id' : ClassId} {c d : ClassDecl} (hc : old.class? id = some c)
    (owed : Obligation old new id) (hd : new.class? id' = some d)
    (same : d.qualifiedName = c.qualifiedName) (still : d.exported = true)
    (table : SeverityTable) :
    (∀ m, m ∈ pairings ⟨old, id, c⟩ ⟨new, id', d⟩ ↔ IsPairing ⟨old, id, c⟩ ⟨new, id', d⟩ m) ∧
      (∃ p ∈ old.packages, id ∈ p.classes ∧
        ofCategory .changedThrows (onBehalfOf (.oldClass id) (run table old new).handed) =
          if (new.package? p.name).isSome then
            (pairings ⟨old, id, c⟩ ⟨new, id', d⟩).flatMap fun m =>
              (m.after.exceptions.filter (Widens old new m.before.exceptions)).map
                (throwsFinding new m)
          else []) ∧
      ∀ m : Pairing, (∀ thrown ∈ m.after.exceptions, ∃ former ∈ m.before.exceptions,
          Covers old new former thrown) →
        m.after.exceptions.filter (Widens old new m.before.exceptions) = [] := by
  refine ⟨fun m => mem_pairings_iff, ?_, ?_⟩
  · obtain ⟨p, hp, listed, handed⟩ :=
      ofCategory_onBehalfOf ho hn hc owed hd same .changedThrows table
    refine ⟨p, hp, listed, ?_⟩
    rw [handed, ofCategory_compareClass_throws still, funext (throwsFindings_eq hn)]
  · intro m covered
    refine List.filter_eq_nil_iff.mpr fun thrown hthrown widens => ?_
    obtain ⟨former, hf, covers⟩ := covered thrown hthrown
    exact (of_decide_eq_true widens).uncovered former hf covers

section Examples

/-- A public class whose method throws these types, and public classes below others. -/
def throwing (thrown : List String) (declared : List (String × String)) : Snapshot :=
  onePackage "p" ({ heading "p" "Task" .plain .everywhere none [] with
      methods := [{ publicMethod "run" with exceptions := thrown.map .named }] } ::
    declared.map fun (name, top) => heading "p" name .plain .everywhere (some top) [])

theorem wellFormed_throwing {thrown : List String} {declared : List (String × String)}
    (distinct : ((throwing thrown declared).classes.map (·.qualifiedName)).Nodup) :
    (throwing thrown declared).WellFormed := by
  refine wellFormed_onePackage distinct ?_ ?_
  · intro c hc id
    rcases List.mem_cons.mp hc with rfl | hc
    · simp [heading, ClassDecl.bare, ClassDecl.supertypes]
    · obtain ⟨pair, _, rfl⟩ := List.mem_map.mp hc
      exact linked_not_mem_heading
  · intro c hc
    rcases List.mem_cons.mp hc with rfl | hc
    · rfl
    · obtain ⟨pair, _, rfl⟩ := List.mem_map.mp hc
      rfl

/-- Of three new thrown types, one is unchecked and one is below an old one. -/
theorem throws_widened_detail :
    let old := (throwing ["p.Failure"] [("Failure", "java.lang.Exception")]).resolve
    let new := (throwing ["java.io.IOException", "p.Detail", "java.lang.IllegalStateException"]
      [("Failure", "java.lang.Exception"), ("Detail", "p.Failure")]).resolve
    ofCategory .changedThrows (onBehalfOf (.oldClass 0) (run .default old new).handed) =
      [⟨.changedThrows,
        "Method p.Task.run() added thrown exception java.io.IOException", none⟩] := by
  intro old new
  have ho : old.WellFormed := (wellFormed_throwing (by decide +kernel)).resolve
  have hn : new.WellFormed := (wellFormed_throwing (by decide +kernel)).resolve
  have owed : Obligation old new 0 := isObligation_iff.mp (by decide +kernel)
  let c := (old.class? 0).get rfl
  let d := (new.class? 0).get rfl
  have hc : old.class? 0 = some c := (Option.some_get _).symm
  have hd : new.class? 0 = some d := (Option.some_get _).symm
  obtain ⟨_, ⟨p, hp, _, recorded⟩, _⟩ := throws_widened ho hn hc owed hd (by decide +kernel)
    (by decide +kernel) .default
  have paired : (pairings ⟨old, 0, c⟩ ⟨new, 0, d⟩).map (fun m =>
      (m.label, m.before.exceptions, m.after.exceptions, m.after.position.or m.before.position)) =
      [("p.Task.run()", [.linked 1], [.named "java.io.IOException", .linked 2,
        .named "java.lang.IllegalStateException"], none)] := by decide +kernel
  obtain ⟨m, only, shown⟩ := List.map_eq_singleton_iff.mp paired
  obtain ⟨label, before, after, position⟩ : m.label = "p.Task.run()" ∧
      m.before.exceptions = [.linked 1] ∧ m.after.exceptions = [.named "java.io.IOException",
        .linked 2, .named "java.lang.IllegalStateException"] ∧
      m.after.position.or m.before.position = none := by simpa using shown
  have wider : Widens old new [.linked 1] (.named "java.io.IOException") := by
    constructor
    · rintro ⟨known⟩
      revert known
      decide +kernel
    · intro former hf covers
      cases List.mem_singleton.mp hf
      cases covers with
      | same same =>
        revert same
        decide +kernel
  have below : ¬Widens old new [.linked 1] (.linked 2) := by
    intro widens
    refine widens.uncovered (.linked 1) (List.mem_singleton_self _) (.above ?_)
    exact ⟨2, .linked 1, .refl, by decide +kernel, by decide +kernel⟩
  have unchecked : ¬Widens old new [.linked 1] (.named "java.lang.IllegalStateException") :=
    fun widens => widens.checked (.known (by decide +kernel))
  have kept : ∀ p ∈ old.packages, (new.package? p.name).isSome = true := by decide +kernel
  rw [recorded, if_pos (kept p hp), only, List.flatMap_singleton, before, after]
  simp [throwsFinding, wider, below, unchecked, label, position, Snapshot.nameOfRef]

end Examples

end ApiCompat.Compatibility
