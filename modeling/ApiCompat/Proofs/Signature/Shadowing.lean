import ApiCompat.Proofs.Signature.Attachment
import ApiCompat.Proofs.Signature.BoundChain

/-! What an inner list of parameters changes about the variables of an outer one. Bounds are looked
up by name where a type is used, not where they were declared, so an inner parameter may capture a
name that the bound of an outer variable mentions. The outer variable keeps its meaning exactly when
the inner names are none of those that the walk along its bounds consults. -/
namespace ApiCompat

open Signature

theorem Scope.lookup_push_of_not_mem {scope : Scope} {inner : List Signature} {name : String}
    (absent : name ∉ inner.map (·.name)) : (scope.push inner).lookup name = scope.lookup name := by
  have missed : inner.find? (·.name == name) = none := by
    rw [List.find?_eq_none]
    intro p hp
    simpa using fun same => absent (List.mem_map.mpr ⟨p, hp, same⟩)
  rw [lookup, lookup, parameters, push, List.flatten_cons, List.find?_append, missed,
    Option.none_or, parameters]

namespace Signature

variable {scope : Scope} {passed : List String} {s : Signature}

/-- The walk along first bounds looks up this name: a variable without bounds of its own that was
not passed before. -/
inductive Consults (scope : Scope) : List String → Signature → String → Prop where
  | here {passed : List String} {s : Signature} : s.kind = .typeVariable → s.name ∉ passed →
      s.extendsBounds = [] → Consults scope passed s s.name
  | beyond {passed : List String} {s bound : Signature} {name : String} :
      ¬(s.kind = .typeVariable ∧ s.name ∈ passed) → s.nextBound? scope = some bound →
      Consults scope (s.passing passed) bound name → Consults scope passed s name

theorem nextBound?_push {inner : List Signature}
    (apart : s.kind = .typeVariable → s.extendsBounds = [] → s.name ∉ inner.map (·.name)) :
    s.nextBound? (scope.push inner) = s.nextBound? scope := by
  cases kind : s.kind with
  | primitive => simp only [nextBound?, kind]
  | classType => simp only [nextBound?, kind]
  | wildcard => simp only [nextBound?, kind]
  | typeVariable =>
    rw [nextBound?_of_variable kind, nextBound?_of_variable kind, firstBound?, firstBound?]
    cases own : s.extendsBounds with
    | cons bound others => rfl
    | nil => rw [Scope.lookup_push_of_not_mem (apart kind own)]

/-- A list that declares no consulted name does not change the walk. -/
theorem BoundChain.push {chain inner : List Signature} (h : BoundChain scope passed s chain)
    (apart : ∀ name, Consults scope passed s name → name ∉ inner.map (·.name)) :
    BoundChain (scope.push inner) passed s chain := by
  induction h with
  | again isVariable seen => exact .again isVariable seen
  | @last passed s none =>
    -- A variable that was passed ends the walk before its name is looked up.
    by_cases met : s.kind = .typeVariable ∧ s.name ∈ passed
    · exact .again met.1 met.2
    · refine .last ((nextBound?_push fun isVariable bare => apart _ ?_).trans none)
      exact .here isVariable (fun seen => met ⟨isVariable, seen⟩) bare
  | @beyond passed s bound chain fresh next _ ih =>
    refine .beyond fresh ((nextBound?_push fun isVariable bare => apart _ ?_).trans next)
      (ih fun name consulted => apart name (.beyond fresh next consulted))
    exact .here isVariable (fun seen => fresh ⟨isVariable, seen⟩) bare

theorem nextBound?_push_boundedBy (isVariable : s.kind = .typeVariable)
    (bare : s.extendsBounds = []) (bound : Signature) :
    s.nextBound? (scope.push [boundedBy bound s.name]) = some bound := by
  rw [nextBound?_of_variable isVariable, firstBound?, bare]
  simp [Scope.lookup, Scope.parameters, Scope.push, boundedBy, ofName]

/-- A parameter of a consulted name diverts the walk to its own bound. -/
theorem erasedBase_diverted {name : String} (consulted : Consults scope passed s name)
    (bound : String) : ∃ suffix,
      erasedBase (scope.push [boundedBy (ofName .classType bound) name]) passed s =
        bound ++ suffix := by
  have diverted {passed : List String} {s : Signature} (isVariable : s.kind = .typeVariable)
      (unseen : s.name ∉ passed) (bare : s.extendsBounds = []) : ∃ suffix,
      erasedBase (scope.push [boundedBy (ofName .classType bound) s.name]) passed s =
        bound ++ suffix := by
    have next := @nextBound?_push_boundedBy scope s isVariable bare (ofName .classType bound)
    rw [erasedBase_of_nextBound? (fun h => unseen h.2) next, erasedBase_of_named (.inr rfl)]
    exact ⟨_, rfl⟩
  induction consulted with
  | here isVariable unseen bare => exact diverted isVariable unseen bare
  | @beyond passed s next name fresh found _ ih =>
    by_cases taken : s.kind = .typeVariable ∧ s.extendsBounds = [] ∧ s.name = name
    · obtain ⟨isVariable, bare, rfl⟩ := taken
      exact diverted isVariable (fun seen => fresh ⟨isVariable, seen⟩) bare
    · have same := @nextBound?_push scope s [boundedBy (ofName .classType bound) name]
        fun isVariable bare => by
          simpa [boundedBy, ofName] using fun same => taken ⟨isVariable, bare, same⟩
      obtain ⟨suffix, ih⟩ := ih
      rw [erasedBase_of_nextBound? fresh (same.trans found), ih, String.append_assoc]
      exact ⟨_, rfl⟩

theorem canonical_of_variable (isVariable : s.kind = .typeVariable) (bare : s.arguments = []) :
    s.canonical scope = s.erasure scope := by
  obtain ⟨kind, name, dimension, arguments, supers, uppers, varargs, linked⟩ := s
  cases isVariable
  cases bare
  simp [canonical, erasure, fullDimension]

/-- A variable means the same inside all lists of parameters of these names exactly when none of
them is consulted for it in the outer scope. -/
theorem meaning_push_iff (scope : Scope) (names : List String) {u : Signature}
    (isVariable : u.kind = .typeVariable) (bare : u.arguments = []) :
    (∀ inner : List Signature, (∀ p ∈ inner, p.name ∈ names) →
      u.erasure (scope.push inner) = u.erasure scope ∧
      u.canonical (scope.push inner) = u.canonical scope ∧
      (u.attachBounds (scope.push inner)).erasure (scope.push inner) =
        (u.attachBounds scope).erasure scope ∧
      (u.attachBounds (scope.push inner)).canonical (scope.push inner) =
        (u.attachBounds scope).canonical scope) ↔
    ∀ name, Consults scope [] u name → name ∉ names := by
  constructor
  · intro stable name consulted declared
    -- A class whose name is longer than the erasure in the outer scope.
    let long := String.ofList (List.replicate ((u.erasure scope).length + 1) 'x')
    obtain ⟨suffix, diverted⟩ := erasedBase_diverted consulted long
    have same := stable [boundedBy (ofName .classType long) name]
      (by simpa [boundedBy, ofName] using declared)
    have length := congrArg String.length same.1
    rw [erasure, diverted] at length
    simp only [String.length_append, long, String.length_ofList, List.length_replicate] at length
    omega
  · intro apart inner within
    have outside (name : String) (consulted : Consults scope [] u name) :
        name ∉ inner.map (·.name) := by
      intro declared
      obtain ⟨p, hp, rfl⟩ := List.mem_map.mp declared
      exact apart _ consulted (within p hp)
    obtain ⟨chain, walk⟩ := BoundChain.exists_chain scope [] u
    have same : u.erasure (scope.push inner) = u.erasure scope :=
      (walk.push outside).erasure.trans walk.erasure.symm
    simp only [erasure_attachBounds, canonical_attachBounds, canonical_of_variable isVariable bare,
      same, and_self]

/-- `A` is bounded by a class and `U` by `A`. -/
def dependent : Scope :=
  Scope.empty.push [boundedBy (ofName .classType "java.lang.Number") "A",
    boundedBy (ofName .typeVariable "A") "U"]

theorem erasure_dependent : (ofName .typeVariable "U").erasure dependent = "java.lang.Number" := by
  have chain : BoundChain dependent [] (ofName .typeVariable "U") _ :=
    .beyond (by decide) rfl (.beyond (by decide) rfl (.last rfl))
  exact chain.erasure

theorem meaning_push_dependent : (ofName .typeVariable "U").kind = .typeVariable ∧
    (ofName .typeVariable "U").arguments = [] ∧
    ∀ inner : List Signature, (∀ p ∈ inner, p.name ∈ ["T", "B"]) →
      (ofName .typeVariable "U").erasure (dependent.push inner) = "java.lang.Number" := by
  have apart : ∀ name, Consults dependent [] (ofName .typeVariable "U") name →
      name ∉ ["T", "B"] := by
    intro name consulted
    cases consulted with
    | here _ _ _ => decide
    | beyond _ next below =>
      cases (show some (ofName .typeVariable "A") = some _ from next)
      cases below with
      | here _ _ _ => decide
      | beyond _ next below =>
        cases (show some (ofName .classType "java.lang.Number") = some _ from next)
        cases below with
        | here isVariable _ _ => cases isVariable
        | beyond _ next _ => cases next
  refine ⟨rfl, rfl, fun inner within => ?_⟩
  rw [((meaning_push_iff dependent ["T", "B"] rfl rfl).mpr apart inner within).1, erasure_dependent]

/-- An inner list that does not declare a variable of an outer one leaves its meaning alone. -/
def BoundsLexical : Prop :=
  ∀ (scope : Scope) (inner : List Signature) (u : Signature), u.kind = .typeVariable →
    u.arguments = [] → u.superBounds = [] → u.extendsBounds = [] →
    scope.declares u.name = true → u.name ∉ inner.map (·.name) →
      u.erasure (scope.push inner) = u.erasure scope ∧
      u.canonical (scope.push inner) = u.canonical scope ∧
      (u.attachBounds (scope.push inner)).erasure (scope.push inner) =
        (u.attachBounds scope).erasure scope

/-- An inner `A` captures the one that the bound of an outer variable mentions. -/
theorem bound_captured : ¬BoundsLexical := by
  intro lexical
  let inner := [boundedBy (ofName .classType "java.lang.CharSequence") "A"]
  have same := (lexical dependent inner (ofName .typeVariable "U") rfl rfl rfl rfl
    (by decide) (by decide)).1
  have captured : BoundChain (dependent.push inner) [] (ofName .typeVariable "U") _ :=
    .beyond (by decide) rfl (.beyond (by decide) rfl (.last rfl))
  rw [captured.erasure, erasure_dependent] at same
  exact absurd same (by decide)

end Signature

end ApiCompat
