import ApiCompat.Proofs.Compatibility.Contract
import ApiCompat.Proofs.Signature.BoundChain
import ApiCompat.Proofs.Snapshot.Outward

/-! What lies around a class, asked three times. The type variables in force in a class, whether
something around it is not exported, and whether something around it has left the API are found by
three loops outward. The loops end and go through the same classes, each of them once, so that
scopes and visibility are settled by one and the same nesting, on circles too. -/
namespace ApiCompat.Compatibility

open Signature (boundedBy)
open Walk (Answers gather seek upTo)

/-- The class of this name in the new snapshot is not exported. -/
def isWithdrawn (old new : Snapshot) (id : ClassId) : Bool :=
  (new.find? (old.nameOf id)).any fun found => !isExported new found

/-- The loop that tests the classes around a class ends with this answer and no other. It has then
tested them from the inside up to the first that passes, and all of them if none does. -/
structure Settles (s : Snapshot) (id : ClassId) (test : ClassId → Bool) (answer : Bool) : Prop where
  ends : ∀ rounds result, Answers (seek s.outer? test) (s.setOut id) rounds result ↔
    rounds = ((s.enclosing id).takeWhile (!test ·)).length ∧
      result = (answer, id :: upTo test (s.enclosing id))
  unfound : answer = false → upTo test (s.enclosing id) = s.enclosing id

section Enclosure

variable {s new : Snapshot} {id : ClassId}

/-- A name means its first declaration in the nearest class that declares it. -/
theorem lookup_typeScope_iff {name : String} {p : Signature} :
    (s.typeScope id).lookup name = some p ↔ ∃ c,
      FirstWith (fun c => ∃ q ∈ s.typeParametersOf c, q.name = name) (id :: s.enclosing id) c ∧
        FirstWith (fun q => q.name = name) (s.typeParametersOf c) p := by
  have frames : (s.typeScope id).parameters =
      (id :: s.enclosing id).flatMap s.typeParametersOf := by
    rw [Scope.parameters, Snapshot.typeScope, ← List.map_cons, ← List.flatMap_def]
  have missed (c : ClassId) : (s.typeParametersOf c).find? (·.name == name) = none ↔
      ¬∃ q ∈ s.typeParametersOf c, q.name = name := by
    simp [List.find?_eq_none]
  rw [Scope.lookup, frames, List.find?_flatMap, List.findSome?_eq_some_iff]
  simp only [missed, find?_eq_some_iff_firstWith, beq_iff_eq]
  constructor
  · rintro ⟨before, c, after, same, declared, others⟩
    exact ⟨c, ⟨before, after, same, ⟨p, declared.mem⟩, others⟩, declared⟩
  · rintro ⟨c, ⟨before, after, same, _, others⟩, declared⟩
    exact ⟨before, c, after, same, declared, others⟩

theorem enclosedByUnexported_iff (nested : s.Nested) :
    enclosedByUnexported s id = true ↔ ∃ outer, s.Inside id outer ∧ isExported s outer = false := by
  simp [enclosedByUnexported, Snapshot.mem_enclosing_iff nested]

theorem outerWithdrawn_iff (nested : s.Nested) : outerWithdrawn s new id = true ↔
    ∃ outer found, s.Inside id outer ∧ new.find? (s.nameOf outer) = some found ∧
      isExported new found = false := by
  simp [outerWithdrawn, Snapshot.mem_enclosing_iff nested, Option.any_eq_true]

theorem settles_any (nested : s.Nested) (id : ClassId) (test : ClassId → Bool) :
    Settles s id test ((s.enclosing id).any test) where
  ends _ _ := Snapshot.answers_seek_iff nested id test
  unfound := Walk.upTo_eq_self

/-- There is one list of the classes around a class, it is short, and all three loops end with it, or
with what of it comes up to the first class that they look for. A scope has the parameters of these
classes, the innermost in front; and the loops that look for a class say whether there is one. -/
theorem enclosing_walks_agree (nested : s.Nested) (id : ClassId) :
    (∀ around, s.OutwardChain id around ↔ around = s.enclosing id) ∧
      (s.enclosing id).length ≤ s.classes.length ∧
      (∀ rounds met, Answers (gather s.outer?) (s.setOut id) rounds met ↔
        rounds = (s.enclosing id).length ∧ met = id :: s.enclosing id) ∧
      s.typeScope id = (id :: s.enclosing id).reverse.foldl
        (fun scope c => scope.push (s.typeParametersOf c)) Scope.empty ∧
      (∀ name p, (s.typeScope id).lookup name = some p ↔ ∃ c,
        FirstWith (fun c => ∃ q ∈ s.typeParametersOf c, q.name = name) (id :: s.enclosing id) c ∧
          FirstWith (fun q => q.name = name) (s.typeParametersOf c) p) ∧
      Settles s id (!isExported s ·) (enclosedByUnexported s id) ∧
      (enclosedByUnexported s id = true ↔
        ∃ outer, s.Inside id outer ∧ isExported s outer = false) ∧
      ∀ new, Settles s id (isWithdrawn s new) (outerWithdrawn s new id) ∧
        (outerWithdrawn s new id = true ↔ ∃ outer found, s.Inside id outer ∧
          new.find? (s.nameOf outer) = some found ∧ isExported new found = false) := by
  refine ⟨fun around => Snapshot.outwardChain_iff nested, Snapshot.length_enclosing_le s id,
    fun rounds met => Snapshot.answers_gather_iff nested id, Snapshot.typeScope_eq_foldl s id,
    fun name p => lookup_typeScope_iff, settles_any nested id _, enclosedByUnexported_iff nested, ?_⟩
  intro new
  exact ⟨settles_any nested id (isWithdrawn s new), outerWithdrawn_iff nested⟩

end Enclosure

/-- A class inside another one, which is inside a third. -/
def tower : Snapshot :=
  let declared (name : String) (visibility : Visibility) (outer : Option ClassId)
      (names : List String) : ClassDecl :=
    { ClassDecl.bare "p" name .plain with
      modifiers := { Modifiers.none with visibility := visibility }
      typeParameters := names.map (boundedBy (.ofName .classType name))
      outer := outer }
  { packages := [⟨"p", none, [0, 1, 2]⟩]
    classes := [declared "Inner" .everywhere (some 1) ["T"],
      declared "Middle" .everywhere (some 2) ["T", "U"], declared "Outer" .ownClass none ["U", "V"]] }

/-- The outermost class put inside the one that it is around. -/
def whirl : Snapshot := tower.update 2 (Edit.outer (some 1)).apply

/-- One class of the whirl, not exported. -/
def calm : Snapshot :=
  { packages := [⟨"p", none, [0]⟩], classes := [ClassDecl.bare "p" "Middle" .plain] }

/-- Of two classes that lie inside each other, each is around the other one only. -/
theorem enclosing_walks_agree_whirl : whirl.Nested ∧
    whirl.OutwardChain 0 [1, 2] ∧ whirl.OutwardChain 2 [1] ∧
    Answers (gather whirl.outer?) (whirl.setOut 0) 2 [0, 1, 2] ∧
    (whirl.typeScope 0).lookup "U" = some (boundedBy (.ofName .classType "Middle") "U") ∧
    Answers (seek whirl.outer? (!isExported whirl ·)) (whirl.setOut 0) 1 (true, [0, 1, 2]) ∧
    Answers (seek whirl.outer? (!isExported whirl ·)) (whirl.setOut 2) 1 (false, [2, 1]) ∧
    Answers (seek whirl.outer? (isWithdrawn whirl calm)) (whirl.setOut 0) 0 (true, [0, 1]) := by
  have upright : tower.Nested := by
    rw [Snapshot.nested_iff]
    simp [tower, Snapshot.outers]
  have nested : whirl.Nested := by
    refine upright.edit 2 fun outer same => ?_
    cases same
    decide
  have inner : whirl.enclosing 0 = [1, 2] := by decide +kernel
  have outer : whirl.enclosing 2 = [1] := by decide +kernel
  obtain ⟨around, _, gathers, _, lookups, seeks, _, withdrawn⟩ := enclosing_walks_agree nested 0
  obtain ⟨around', _, _, _, _, seeks', _⟩ := enclosing_walks_agree nested 2
  rw [inner] at around gathers lookups
  rw [outer] at around'
  let parameter (name : String) := boundedBy (.ofName .classType "Middle") name
  have found : (whirl.typeScope 0).lookup "U" = some (parameter "U") := by
    refine (lookups "U" _).mpr ⟨1, ⟨[0], [2], rfl, ⟨_, .tail _ (.head _), rfl⟩, ?_⟩, ?_⟩
    · decide +kernel
    · exact ⟨[parameter "T"], [], rfl, rfl, by decide +kernel⟩
  exact ⟨nested, (around _).mpr rfl, (around' _).mpr rfl, (gathers _ _).mpr ⟨rfl, rfl⟩, found,
    (seeks.ends _ _).mpr (by decide +kernel), (seeks'.ends _ _).mpr (by decide +kernel),
    ((withdrawn calm).1.ends _ _).mpr (by decide +kernel)⟩

end ApiCompat.Compatibility
