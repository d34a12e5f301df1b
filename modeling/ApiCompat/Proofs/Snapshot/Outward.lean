import ApiCompat.Proofs.Snapshot.Chains
import ApiCompat.Proofs.Snapshot.Nesting
import ApiCompat.Snapshot.Catalog

/-! Ways outward, round by round. A loop that follows links from a class outward keeps the classes it
has met, and stops where a link leads to one of them. One such loop gathers the classes; another
tests each class that it meets, and stops at the first that passes. Both end, on circles of classes
too, and both go through the classes around the first one, from the inside. The invariant is that
what the loop has met is what the walk over unseen nodes has taken away. -/
namespace ApiCompat

namespace Walk

/-- The answer of a loop, each round of which answers or goes on, and how often it goes on before. -/
inductive Answers {σ ρ : Type} (round : σ → ρ ⊕ σ) : σ → Nat → ρ → Prop where
  | now {state : σ} {answer : ρ} : round state = .inl answer → Answers round state 0 answer
  | later {state next : σ} {rounds : Nat} {answer : ρ} : round state = .inr next →
      Answers round next rounds answer → Answers round state (rounds + 1) answer

structure Stage where
  /-- The nodes met so far, the first one among them. -/
  met : List Nat
  /-- The link that the walk comes to. -/
  link : Option Nat

def gather (next : Nat → Option Nat) (walk : Stage) : List Nat ⊕ Stage :=
  match walk.link with
  | none => .inl walk.met
  | some node =>
    if node ∈ walk.met then .inl walk.met
    else .inr ⟨walk.met ++ [node], next node⟩

/-- A round of looking for a node that passes a test. A node that is tested has been met. -/
def seek (next : Nat → Option Nat) (test : Nat → Bool) (walk : Stage) :
    (Bool × List Nat) ⊕ Stage :=
  match walk.link with
  | none => .inl (false, walk.met)
  | some node =>
    if node ∈ walk.met then .inl (false, walk.met)
    else if test node then .inl (true, walk.met ++ [node])
    else .inr ⟨walk.met ++ [node], next node⟩

/-- A list up to the first element that passes a test. -/
def upTo (test : Nat → Bool) : List Nat → List Nat
  | [] => []
  | node :: rest => node :: if test node then [] else upTo test rest

theorem upTo_eq_self {test : Nat → Bool} {list : List Nat} (fails : list.any test = false) :
    upTo test list = list := by
  induction list with
  | nil => rfl
  | cons node rest ih =>
    obtain ⟨here, later⟩ := Bool.or_eq_false_iff.mp (List.any_cons.symm.trans fails)
    simp [upTo, here, ih later]

theorem Answers.unique {σ ρ : Type} {round : σ → ρ ⊕ σ} {state : σ} {rounds rounds' : Nat}
    {answer answer' : ρ} (first : Answers round state rounds answer)
    (second : Answers round state rounds' answer') : rounds' = rounds ∧ answer' = answer := by
  induction first generalizing rounds' with
  | now stops =>
    cases second with
    | now stops' => exact ⟨rfl, Sum.inl.inj (stops'.symm.trans stops)⟩
    | later goes _ => cases goes.symm.trans stops
  | later goes _ ih =>
    cases second with
    | now stops => cases stops.symm.trans goes
    | later goes' rest =>
      cases goes'.symm.trans goes
      obtain ⟨rfl, rfl⟩ := ih rest
      exact ⟨rfl, rfl⟩

/-- Of some nodes, those that are not yet met. -/
structure Unmet (nodes met unseen : List Nat) : Prop where
  distinct : unseen.Nodup
  fresh : ∀ a ∈ nodes, a ∈ unseen ↔ a ∉ met

section Rounds

variable {next : Nat → Option Nat} {nodes met unseen : List Nat} {node : Nat}

theorem Unmet.start (distinct : nodes.Nodup) (start : Nat) :
    Unmet nodes [start] (nodes.erase start) := by
  refine ⟨distinct.erase start, fun a ha => ?_⟩
  rw [distinct.mem_erase_iff, List.mem_singleton]
  exact and_iff_left ha

/-- One node further. -/
theorem Unmet.step (unmet : Unmet nodes met unseen) (node : Nat) :
    Unmet nodes (met ++ [node]) (unseen.erase node) := by
  refine ⟨unmet.distinct.erase node, fun a ha => ?_⟩
  rw [unmet.distinct.mem_erase_iff, unmet.fresh a ha, List.mem_append, List.mem_singleton, not_or,
    and_comm]

theorem Unmet.mem_met (unmet : Unmet nodes met unseen) {a : Nat} (ha : a ∈ nodes)
    (missing : a ∉ unseen) : a ∈ met :=
  not_not.mp (mt (unmet.fresh a ha).mpr missing)

/-- Gathering ends with what the walk over unseen nodes meets, after as many rounds. -/
theorem answers_gather (within : ∀ a b, next a = some b → b ∈ nodes)
    (unmet : Unmet nodes met unseen) :
    Answers (gather next) ⟨met, next node⟩ (trail next unseen node).length
      (met ++ trail next unseen node) := by
  fun_induction trail next unseen node generalizing met with
  | case1 unseen node stop =>
    rw [stop, List.append_nil]
    exact .now rfl
  | case2 unseen node target link found ih =>
    have new : target ∉ met := (unmet.fresh target (within node target link)).mp found
    have goes : gather next ⟨met, some target⟩ = .inr ⟨met ++ [target], next target⟩ := if_neg new
    have further := ih (unmet.step target)
    rw [List.append_assoc] at further
    rw [link]
    exact .later goes further
  | case3 unseen node target link missing =>
    rw [link, List.append_nil]
    exact .now (if_pos (unmet.mem_met (within node target link) missing))

/-- Looking for a node ends with the first that passes, in the order of that walk. -/
theorem answers_seek (within : ∀ a b, next a = some b → b ∈ nodes)
    (unmet : Unmet nodes met unseen) (test : Nat → Bool) :
    Answers (seek next test) ⟨met, next node⟩
      ((trail next unseen node).takeWhile (!test ·)).length
      ((trail next unseen node).any test, met ++ upTo test (trail next unseen node)) := by
  fun_induction trail next unseen node generalizing met with
  | case1 unseen node stop =>
    rw [stop, upTo, List.append_nil]
    exact .now rfl
  | case2 unseen node target link found ih =>
    have new : target ∉ met := (unmet.fresh target (within node target link)).mp found
    have round : seek next test ⟨met, some target⟩ =
        if test target then .inl (true, met ++ [target])
        else .inr ⟨met ++ [target], next target⟩ := if_neg new
    rw [link]
    cases passes : test target with
    | true =>
      rw [passes] at round
      simpa [upTo, passes] using Answers.now round
    | false =>
      rw [passes] at round
      have further := ih (unmet.step target)
      rw [List.append_assoc] at further
      simpa [upTo, passes] using Answers.later round further
  | case3 unseen node target link missing =>
    rw [link, upTo, List.append_nil]
    exact .now (if_pos (unmet.mem_met (within node target link) missing))

theorem isChain_trail : (node :: trail next unseen node).IsChain fun a b => next a = some b := by
  fun_induction trail next unseen node with
  | case1 => exact .singleton _
  | case2 unseen node target link found ih => exact .cons_cons link ih
  | case3 => exact .singleton _

/-- Of two ways that begin at one node, one goes on where the other stops. -/
theorem comparable_of_isChain {first second : List Nat}
    (chain : (node :: first).IsChain fun a b => next a = some b)
    (chain' : (node :: second).IsChain fun a b => next a = some b) :
    first <+: second ∨ second <+: first := by
  induction first generalizing node second with
  | nil => exact .inl List.nil_prefix
  | cons a first ih =>
    cases second with
    | nil => exact .inr List.nil_prefix
    | cons b second =>
      obtain ⟨link, rest⟩ := List.isChain_cons_cons.mp chain
      obtain ⟨link', rest'⟩ := List.isChain_cons_cons.mp chain'
      cases link.symm.trans link'
      simpa [List.cons_prefix_cons] using ih rest rest'

end Rounds

end Walk

namespace Snapshot

/-- The classes around a class, from the inside: each link outward leads from one to the next, none
comes twice, and every class is there that the class lies inside. -/
structure OutwardChain (s : Snapshot) (id : ClassId) (around : List ClassId) : Prop where
  outward : (id :: around).IsChain fun inner outer => s.outer? inner = some outer
  once : (id :: around).Nodup
  all : ∀ outer, outer ∈ around ↔ s.Inside id outer

/-- A loop outward as it begins. -/
def setOut (s : Snapshot) (id : ClassId) : Walk.Stage := ⟨[id], s.outer? id⟩

section Around

variable {s : Snapshot} {id : ClassId}

theorem OutwardChain.unique {around around' : List ClassId} (first : s.OutwardChain id around)
    (second : s.OutwardChain id around') : around' = around := by
  have same : around'.Perm around :=
    (List.perm_ext_iff_of_nodup second.once.of_cons first.once.of_cons).mpr fun outer =>
      (second.all outer).trans (first.all outer).symm
  rcases Walk.comparable_of_isChain first.outward second.outward with shorter | shorter
  · exact (shorter.eq_of_length same.length_eq.symm).symm
  · exact shorter.eq_of_length same.length_eq

/-- Classes may be put into any others, also into those inside them. -/
theorem Nested.edit (nested : s.Nested) (id : ClassId) {e : Edit}
    (declared : ∀ outer, e = .outer (some outer) → outer ∈ s.ids) :
    (s.update id e.apply).Nested := by
  intro a outer link
  have same : (s.update id e.apply).ids = s.ids := by simp [ids, update]
  obtain ⟨c, hc, inside⟩ := Option.bind_eq_some_iff.mp link
  rw [class?, update, List.getElem?_modify] at hc
  obtain ⟨d, hd, rfl⟩ := Option.map_eq_some_iff.mp hc
  have before (kept : d.outer = some outer) : outer ∈ s.ids :=
    nested a outer (Option.bind_eq_some_iff.mpr ⟨d, hd, kept⟩)
  rw [same]
  split_ifs at inside
  · cases e with
    | outer o => exact declared outer (congrArg Edit.outer inside)
    | _ => exact before inside
  · exact before inside

theorem nodup_enclosing (s : Snapshot) (id : ClassId) : (id :: s.enclosing id).Nodup := by
  have distinct : s.ids.Nodup := List.nodup_range
  exact Walk.nodup_trail (distinct.erase id) distinct.not_mem_erase

theorem length_enclosing_le (s : Snapshot) (id : ClassId) :
    (s.enclosing id).length ≤ s.classes.length := by
  have within : s.enclosing id ⊆ s.ids := fun outer h =>
    List.mem_of_mem_erase (Walk.trail_sound h).1
  calc (s.enclosing id).length ≤ s.ids.length :=
        ((nodup_enclosing s id).of_cons.subperm within).length_le
    _ = s.classes.length := List.length_range

theorem outwardChain_iff (nested : s.Nested) {around : List ClassId} :
    s.OutwardChain id around ↔ around = s.enclosing id := by
  have here : s.OutwardChain id (s.enclosing id) :=
    ⟨Walk.isChain_trail, nodup_enclosing s id, fun _ => mem_enclosing_iff nested⟩
  constructor
  · exact fun there => here.unique there
  · rintro rfl
    exact here

theorem answers_gather_iff (nested : s.Nested) (id : ClassId) {rounds : Nat} {met : List ClassId} :
    Walk.Answers (Walk.gather s.outer?) (s.setOut id) rounds met ↔
      rounds = (s.enclosing id).length ∧ met = id :: s.enclosing id := by
  have ends := @Walk.answers_gather s.outer? _ _ _ id nested (.start List.nodup_range id)
  constructor
  · exact ends.unique
  · rintro ⟨rfl, rfl⟩
    exact ends

theorem answers_seek_iff (nested : s.Nested) (id : ClassId) (test : ClassId → Bool) {rounds : Nat}
    {result : Bool × List ClassId} :
    Walk.Answers (Walk.seek s.outer? test) (s.setOut id) rounds result ↔
      rounds = ((s.enclosing id).takeWhile (!test ·)).length ∧
        result = ((s.enclosing id).any test, id :: Walk.upTo test (s.enclosing id)) := by
  have ends := @Walk.answers_seek s.outer? _ _ _ id nested (.start List.nodup_range id) test
  constructor
  · exact ends.unique
  · rintro ⟨rfl, rfl⟩
    exact ends

theorem typeScope_eq_foldl (s : Snapshot) (id : ClassId) : s.typeScope id =
    (id :: s.enclosing id).reverse.foldl
      (fun scope c => scope.push (s.typeParametersOf c)) Scope.empty := by
  have pushed (classes : List ClassId) :
      classes.foldr (fun c scope => Scope.push (s.typeParametersOf c) scope) Scope.empty =
        ⟨classes.map s.typeParametersOf⟩ := by
    induction classes with
    | nil => rfl
    | cons c classes ih => rw [List.foldr_cons, ih, Scope.push, List.map_cons]
  rw [List.foldl_reverse, pushed, typeScope, List.map_cons]

end Around

end Snapshot

end ApiCompat
