import ApiCompat.Proofs.Snapshot.Loading
import ApiCompat.Proofs.Snapshot.Supertypes

/-! Nesting as reachability. The classes around a class are what its links to outer classes reach,
provided that outer classes are declared. Loading provides it: a class is nested in the one
that is open when it begins, and a class that is or was open is declared. -/
namespace ApiCompat

open Relation (TransGen)

/-- What a met node links to is met, if it was unseen at the start. -/
theorem Walk.trail_closed {next : Nat → Option Nat} {unseen : List Nat} {start a b : Nat}
    (met : a = start ∨ a ∈ trail next unseen start) (link : next a = some b)
    (fresh : b ∈ unseen) : b ∈ trail next unseen start := by
  fun_induction trail next unseen start with
  | case1 unseen start stop =>
    rcases met with rfl | impossible
    · rw [stop] at link
      cases link
    · cases impossible
  | case2 unseen start target step inside ih =>
    by_cases here : b = target
    · exact here ▸ List.mem_cons_self
    · have later : a = target ∨ a ∈ trail next (unseen.erase target) target := by
        rcases met with rfl | met
        · exact absurd (Option.some.inj (link.symm.trans step)) here
        · exact List.mem_cons.mp met
      exact List.mem_cons_of_mem _ (ih later ((List.mem_erase_of_ne here).mpr fresh))
  | case3 unseen start target step outside =>
    rcases met with rfl | impossible
    · cases Option.some.inj (link.symm.trans step)
      exact absurd fresh outside
    · cases impossible

/-- Two walks that go the same way within some nodes meet the same there. -/
theorem Walk.trail_congr {next next' : Nat → Option Nat} {nodes unseen unseen' : List Nat}
    {start : Nat} (inside : start ∈ nodes) (same : ∀ a ∈ nodes, next' a = next a)
    (within : ∀ a b, next a = some b → b ∈ nodes) (distinct : unseen.Nodup)
    (distinct' : unseen'.Nodup) (fresh : ∀ a ∈ nodes, a ∈ unseen' ↔ a ∈ unseen) :
    trail next' unseen' start = trail next unseen start := by
  fun_induction trail next unseen start generalizing unseen' with
  | case1 unseen start stop => rw [trail, same start inside, stop]
  | case2 unseen start target step found ih =>
    have there : target ∈ nodes := within start target step
    have rest : ∀ a ∈ nodes, a ∈ unseen'.erase target ↔ a ∈ unseen.erase target := by
      intro a ha
      rw [distinct'.mem_erase_iff, distinct.mem_erase_iff, fresh a ha]
    rw [trail, same start inside, step]
    simp only [dif_pos ((fresh target there).mpr found),
      ih there (distinct.erase _) (distinct'.erase _) rest]
  | case3 unseen start target step missing =>
    have there : target ∈ nodes := within start target step
    rw [trail, same start inside, step]
    simp only [dif_neg (mt (fresh target there).mp missing)]

/-- A walk along single links within some nodes meets what they reach, the start apart. -/
theorem Walk.mem_trail_iff {next : Nat → Option Nat} {nodes : List Nat} (distinct : nodes.Nodup)
    (within : ∀ a b, next a = some b → b ∈ nodes) {start node : Nat} :
    node ∈ trail next (nodes.erase start) start ↔
      node ≠ start ∧ TransGen (fun a b => next a = some b) start node := by
  constructor
  · intro h
    obtain ⟨hmem, path⟩ := trail_sound h
    exact ⟨(distinct.mem_erase_iff.mp hmem).1, path⟩
  · rintro ⟨hne, path⟩
    have met : node = start ∨ node ∈ trail next (nodes.erase start) start := by
      clear hne
      induction path with
      | @single x link =>
        by_cases back : x = start
        · exact .inl back
        · have fresh := distinct.mem_erase_iff.mpr ⟨back, within _ x link⟩
          exact .inr (trail_closed (.inl rfl) link fresh)
      | @tail x y _ link ih =>
        by_cases back : y = start
        · exact .inl back
        · have fresh := distinct.mem_erase_iff.mpr ⟨back, within _ y link⟩
          exact .inr (trail_closed ih link fresh)
    exact met.resolve_left hne

namespace Snapshot

/-- Outer classes are declared. -/
def Nested (s : Snapshot) : Prop := ∀ id outer, s.outer? id = some outer → outer ∈ s.ids

/-- One class lies inside another one, over any number of levels. -/
def Inside (s : Snapshot) (inner outer : ClassId) : Prop :=
  outer ≠ inner ∧ TransGen (fun a b => s.outer? a = some b) inner outer

theorem mem_enclosing_iff {s : Snapshot} (nested : s.Nested) {id outer : ClassId} :
    outer ∈ s.enclosing id ↔ s.Inside id outer :=
  Walk.mem_trail_iff List.nodup_range nested

/-- A scope depends on the classes that were declared with its class. -/
theorem typeScope_congr {s t : Snapshot} {id : ClassId} (nested : s.Nested)
    (declared : id ∈ s.ids) (ids : ∀ {a}, a ∈ s.ids → a ∈ t.ids)
    (outer : ∀ a ∈ s.ids, t.outer? a = s.outer? a)
    (own : ∀ a ∈ s.ids, t.typeParametersOf a = s.typeParametersOf a) :
    t.typeScope id = s.typeScope id := by
  have distinct (u : Snapshot) : u.ids.Nodup := List.nodup_range
  have around : t.enclosing id = s.enclosing id := by
    refine Walk.trail_congr declared outer nested ((distinct s).erase _) ((distinct t).erase _)
      fun a ha => ?_
    have inside := ids ha
    rw [(distinct t).mem_erase_iff, (distinct s).mem_erase_iff]
    exact and_congr_right fun _ => iff_of_true inside ha
  rw [typeScope, around, own id declared, typeScope]
  refine congrArg (fun frames => Scope.mk (_ :: frames)) (List.map_congr_left fun a ha => ?_)
  exact own a (List.mem_of_mem_erase (Walk.trail_sound ha).1)

theorem outer?_resolve (s : Snapshot) (id : ClassId) : s.resolve.outer? id = s.outer? id := by
  unfold outer?
  rw [class?_resolve]
  cases s.class? id <;> rfl

theorem Nested.resolve {s : Snapshot} (nested : s.Nested) : s.resolve.Nested := by
  intro id outer h
  rw [outer?_resolve] at h
  rw [ids_resolve]
  exact nested id outer h

def outers (s : Snapshot) : List (Option ClassId) := s.classes.map (·.outer)

theorem nested_iff {s : Snapshot} :
    s.Nested ↔ ∀ id, some id ∈ s.outers → id < s.outers.length := by
  have length : s.outers.length = s.classes.length := List.length_map _
  have listed : ∀ id, some id ∈ s.outers ↔ ∃ a, s.outer? a = some id := by
    intro id
    rw [List.mem_iff_getElem?]
    refine exists_congr fun a => ?_
    rw [outers, List.getElem?_map, outer?]
    change (s.class? a).map _ = _ ↔ _
    cases s.class? a <;> simp
  simp only [listed, length, Nested, mem_ids]
  exact ⟨fun h id ⟨a, ha⟩ => h a id ha, fun h a id ha => h id ⟨a, ha⟩⟩

theorem outers_update (s : Snapshot) (id : ClassId) {change : ClassDecl → ClassDecl}
    (kept : ∀ c, (change c).outer = c.outer) : (s.update id change).outers = s.outers :=
  map_update s id kept

theorem outers_addPackage (s : Snapshot) (name : String) (position : Option Position) :
    (s.addPackage name position).outers = s.outers := by
  rw [outers, classes_addPackage, outers]

theorem outers_addClass? {s t : Snapshot} {c : ClassDecl} {id : ClassId}
    (added : s.addClass? c = some (id, t)) : id = s.outers.length ∧
      t.outers = s.outers ++ [c.outer] := by
  obtain ⟨rfl, appended⟩ := classes_addClass? added
  simp [outers, appended]

end Snapshot

namespace Builder

/-- Everything that is or was open, and every outer class, is declared. -/
structure Nested (b : Builder) : Prop where
  outers : ∀ id, some id ∈ b.snapshot.outers → id < b.snapshot.outers.length
  current : ∀ id, b.current = some id → id < b.snapshot.outers.length
  around : ∀ id, some id ∈ b.around → id < b.snapshot.outers.length

/-- What most elements leave as it is: nesting, and the open classes. -/
def frame (b : Builder) : List (Option ClassId) × Option ClassId × List (Option ClassId) :=
  (b.snapshot.outers, b.current, b.around)

namespace Nested

variable {b b' : Builder}

theorem of_frame (nested : b.Nested) (same : b'.frame = b.frame) : b'.Nested := by
  simp only [frame, Prod.mk.injEq] at same
  obtain ⟨outers, current, around⟩ := same
  exact ⟨outers ▸ nested.outers, outers ▸ current ▸ nested.current,
    outers ▸ around ▸ nested.around⟩

theorem enters (nested : b.Nested) {tag : Markup.Tag} (entered : b.Enters tag b') :
    b'.Nested := by
  cases entered with
  | @package name _ _ =>
    refine nested.of_frame ?_
    simp only [frame, Snapshot.outers_addPackage]
  | @declares c id snapshot _ _ _ opened _ _ added =>
    obtain ⟨number, grown⟩ := Snapshot.outers_addClass? added
    constructor
    · intro outer h
      rw [grown] at h ⊢
      rw [List.length_append, List.length_singleton]
      rcases List.mem_append.mp h with before | here
      · exact Nat.lt_succ_of_lt (nested.outers outer before)
      · have around : b.current = some outer := by
          rw [← opened]
          exact (List.mem_singleton.mp here).symm
        exact Nat.lt_succ_of_lt (nested.current outer around)
    · rintro _ ⟨⟩
      rw [grown, number, List.length_append, List.length_singleton]
      exact Nat.lt_succ_self _
    · intro outer h
      rw [grown, List.length_append, List.length_singleton]
      rcases List.mem_cons.mp h with here | before
      · exact Nat.lt_succ_of_lt (nested.current outer here.symm)
      · exact Nat.lt_succ_of_lt (nested.around outer before)
  | opens => exact nested.of_frame rfl
  | adds => exact nested.of_frame rfl
  | @implements id =>
    exact nested.of_frame
      (congrArg (·, b.current, b.around) (Snapshot.outers_update _ id fun _ => rfl))
  | other => exact nested

theorem leaves (nested : b.Nested) (left : b.Leaves b') : b'.Nested := by
  cases left with
  | package => exact nested.of_frame rfl
  | outermost => exact ⟨nested.outers, by rintro _ ⟨⟩, nested.around⟩
  | @inner outer rest stack =>
    have inside : ∀ id, some id ∈ outer :: rest → id < b.snapshot.outers.length :=
      stack ▸ nested.around
    refine ⟨nested.outers, ?_, fun id h => inside id (List.mem_cons_of_mem _ h)⟩
    intro id h
    exact inside id (List.mem_cons.mpr (.inl h.symm))
  | @member id =>
    exact nested.of_frame
      (congrArg (·, b.current, b.around) (Snapshot.outers_update _ id fun _ => rfl))
  | noMember => exact nested.of_frame rfl
  | other => exact nested

theorem empty : Nested .empty where
  outers := by intro id h; cases h
  current := by intro id h; cases h
  around := by intro id h; cases h

end Nested

end Builder

theorem Snapshot.Nested.of_load {document : List UInt8} {s : Snapshot}
    (loaded : Snapshot.load document = .ok s) : s.Nested := by
  obtain ⟨b, nested, rfl⟩ := Builder.exists_of_load Builder.Nested.empty
    (fun nested entered => nested.enters entered) (fun nested left => nested.leaves left) loaded
  exact nested_iff.mpr nested.outers

end ApiCompat
