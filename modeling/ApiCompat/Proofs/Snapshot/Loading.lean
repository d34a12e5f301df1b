import ApiCompat.Proofs.Snapshot.Entering
import ApiCompat.Proofs.Snapshot.WellFormed

/-! Every loaded snapshot is well formed. The invariant of the builder adds that the open
package is declared, since that is where the next class is listed, and that the open member
declares variables only, since it is still to enter a class; one element preserves it, and so
does a document. -/
namespace ApiCompat

theorem ok_of_mapError {ε ε' α : Type} {x : Except ε α} {f : ε → ε'} {a : α}
    (h : x.mapError f = .ok a) : x = .ok a := by
  cases x with
  | error e => cases h
  | ok b => exact congrArg _ (Except.ok.inj h)

section Parameters

open Signature

theorem kind_of_readDeclaredName {tag : Markup.Tag} {name : String} {parameters : List Signature}
    (h : tag.readDeclaredName = .ok (name, parameters)) :
    ∀ p ∈ parameters, p.kind = .typeVariable := by
  obtain ⟨text, _, h⟩ := ok_of_bind h
  obtain ⟨⟨declared, read⟩, hparse, h⟩ := ok_of_bind h
  cases h
  intro p hp
  obtain ⟨q, hq, rfl⟩ := List.mem_map.mp hp
  change q.kind = _
  have parsed := ok_of_mapError hparse
  unfold parseDeclaredName at parsed
  dsimp only at parsed
  split at parsed
  · cases parsed
    cases hq
  · obtain ⟨found, hfound, parsed⟩ := ok_of_bind parsed
    cases parsed
    exact kind_of_parseParameters hfound q hq

end Parameters

/-- The type parameters of the open member. -/
def Member.DeclaresVariables (member : Member) : Prop :=
  ∀ p ∈ member.typeParameters, p.kind = .typeVariable

theorem Member.typeParameters_updateCallable? {member changed : Member} {g : Parts}
    (h : member.updateCallable? g.addTo = some changed) :
    changed.typeParameters = member.typeParameters := by
  cases member <;> cases h <;> rfl

theorem Member.mem_declaredParameters_addTo {member : Member} {c : ClassDecl} {p : Signature}
    (h : p ∈ (member.holdings.addTo c).declaredParameters) :
    p ∈ c.declaredParameters ∨ p ∈ member.typeParameters := by
  rw [← addTo_eq] at h
  cases member with
  | method m =>
    simp only [addTo, ClassDecl.declaredParameters, ClassDecl.callables, typeParameters,
      List.map_append, List.flatMap_append, List.mem_append] at h ⊢
    simp only [List.map_cons, List.map_nil, List.flatMap_cons, List.flatMap_nil,
      List.append_nil] at h
    tauto
  | constructor k =>
    simp only [addTo, ClassDecl.declaredParameters, ClassDecl.callables, typeParameters,
      List.flatMap_append, List.mem_append] at h ⊢
    simp only [List.flatMap_cons, List.flatMap_nil, List.append_nil] at h
    tauto
  | field f => exact .inl h

namespace Builder

structure WellFormed (b : Builder) : Prop where
  snapshot : b.snapshot.WellFormed
  package : ∀ name, b.package = some name → ∃ p ∈ b.snapshot.packages, p.name = name
  member : ∀ member, b.member = some member → member.DeclaresVariables

namespace WellFormed

theorem of_eq {b b' : Builder} (wf : b.WellFormed) (snapshot : b'.snapshot = b.snapshot)
    (package : b'.package = b.package)
    (member : ∀ member, b'.member = some member → member.DeclaresVariables) : b'.WellFormed :=
  ⟨snapshot ▸ wf.snapshot, snapshot ▸ package ▸ wf.package, member⟩

theorem empty : WellFormed .empty where
  snapshot := .empty
  package := by intro name h; cases h
  member := by intro member h; cases h

theorem addPackage {b : Builder} (wf : b.WellFormed) (name : String)
    (position : Option Position) : WellFormed
      { b with snapshot := b.snapshot.addPackage name position, package := some name } := by
  refine ⟨wf.snapshot.addPackage name position, ?_, wf.member⟩
  intro other hother
  cases hother
  simp only [Snapshot.addPackage]
  split
  · rename_i present
    obtain ⟨p, hp⟩ := Option.isSome_iff_exists.mp present
    exact ⟨p, List.mem_of_find?_eq_some hp, by simpa using List.find?_some hp⟩
  · exact ⟨⟨name, position, []⟩, List.mem_append_right _ (List.mem_singleton.mpr rfl), rfl⟩

theorem enters {b b' : Builder} (wf : b.WellFormed) {tag : Markup.Tag}
    (entered : b.Enters tag b') : b'.WellFormed := by
  cases entered with
  | package => exact wf.addPackage _ _
  | @declares c id snapshot _ opened _ _ headed free added =>
    obtain ⟨⟨bare, read, _⟩, _, _, _, _, _, extended⟩ := headed
    obtain ⟨interfaces, methods, constructors, _⟩ := Holdings.mk.inj free
    have inside := wf.package c.package opened
    refine ⟨wf.snapshot.addClass? added inside ?_ ?_, ?_, wf.member⟩
    · intro ref href
      rw [ClassDecl.supertypes, interfaces, List.append_nil, Option.mem_toList, extended] at href
      obtain ⟨text, _, rfl⟩ := Option.map_eq_some_iff.mp href
      rfl
    · simpa [ClassDecl.declaredParameters, ClassDecl.callables, methods, constructors] using
        kind_of_readDeclaredName read
    · intro name hname
      have kept : name ∈ snapshot.packages.map (·.name) := by
        rw [Snapshot.packageNames_addClass? added]
        exact List.mem_map.mpr (wf.package name hname)
      exact List.mem_map.mp kept
  | @opens id member _ _ opened =>
    refine wf.of_eq rfl rfl ?_
    rintro _ ⟨⟩
    cases opened with
    | method _ described => exact kind_of_readDeclaredName described.callable.heading
    | constructor _ described => exact kind_of_readDeclaredName described.heading
    | field => rintro p ⟨⟩
  | @adds g member changed _ before _ change =>
    refine wf.of_eq rfl rfl ?_
    rintro _ ⟨⟩ p hp
    rw [Member.typeParameters_updateCallable? change] at hp
    exact wf.member member before p hp
  | @implements id ref _ _ _ implemented =>
    obtain ⟨text, _, rfl⟩ := implemented
    refine ⟨wf.snapshot.update id (fun _ => rfl) ?_ ?_, wf.package, wf.member⟩
    · -- The new interface is a name, so a link among the supertypes was there before.
      intro c target htarget
      simpa [ClassDecl.supertypes, Holdings.addTo, Holdings.ofInterface] using htarget
    · intro c p hp
      left
      simpa [ClassDecl.declaredParameters, ClassDecl.callables, Holdings.addTo, Holdings.ofInterface] using hp
  | other => exact wf

theorem leaves {b b' : Builder} (wf : b.WellFormed) (left : b.Leaves b') : b'.WellFormed := by
  cases left with
  | package => exact ⟨wf.snapshot, by rintro _ ⟨⟩, wf.member⟩
  | outermost => exact wf.of_eq rfl rfl wf.member
  | inner => exact wf.of_eq rfl rfl wf.member
  | @member id member _ opened =>
    refine ⟨wf.snapshot.update id (fun _ => rfl) ?_ ?_, wf.package, by rintro _ ⟨⟩⟩
    · intro c target htarget
      cases member <;> simpa [ClassDecl.supertypes, Holdings.addTo, Member.holdings] using htarget
    · intro c p hp
      have places := Member.mem_declaredParameters_addTo hp
      exact places.imp_right (wf.member member opened p)
  | noMember => exact wf.of_eq rfl rfl (by rintro _ ⟨⟩)
  | other => exact wf

end WellFormed

/-- What holds at the start and is kept by entering and leaving elements holds in the end. -/
theorem exists_of_load {P : Builder → Prop} (start : P .empty)
    (enter : ∀ {b b' : Builder} {tag : Markup.Tag}, P b → b.Enters tag b' → P b')
    (leave : ∀ {b b' : Builder}, P b → b.Leaves b' → P b')
    {document : List UInt8} {s : Snapshot} (loaded : Snapshot.load document = .ok s) :
    ∃ b : Builder, P b ∧ b.snapshot = s := by
  obtain ⟨forest, b, spelled, ran, same⟩ := exists_run_of_load loaded
  exact ⟨b, (builds_of_run spelled ran).preserves enter leave start, same⟩

end Builder

theorem Snapshot.WellFormed.of_load {document : List UInt8} {s : Snapshot}
    (loaded : Snapshot.load document = .ok s) : s.WellFormed := by
  obtain ⟨b, wf, rfl⟩ := Builder.exists_of_load Builder.WellFormed.empty
    (fun wf entered => wf.enters entered) (fun wf left => wf.leaves left) loaded
  exact wf.snapshot

end ApiCompat
