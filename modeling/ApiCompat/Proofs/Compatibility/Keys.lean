import ApiCompat.Proofs.Compatibility.SelfComparison
import ApiCompat.Proofs.Signature.Renaming
import Mathlib.Data.List.Find

/-! Keys of members. A key is the name and the erased parameter types, put together with an opening
parenthesis and commas. Where the name has no such parenthesis and the types have no comma and
are not empty, the key comes apart again in one way only. So a member that is looked up by its key is
looked up by its name and its erased parameter types. -/
namespace ApiCompat

section Texts

variable {separator : Char} {front front' back back' : List Char} {texts others : List (List Char)}

/-- Two texts are cut at the first separator in the same way. -/
theorem append_cons_inj_of_first (plain : separator ∉ front) (plain' : separator ∉ front') :
    front ++ separator :: back = front' ++ separator :: back' ↔ front = front' ∧ back = back' := by
  constructor
  · intro same
    have pieces := congrArg (List.splitOn separator) same
    rw [List.splitOn_append_cons_self_of_not_mem plain,
      List.splitOn_append_cons_self_of_not_mem plain'] at pieces
    obtain ⟨start, behind⟩ := List.cons.inj pieces
    have joined := congrArg [separator].intercalate behind
    rw [List.intercalate_splitOn, List.intercalate_splitOn] at joined
    exact ⟨start, joined⟩
  · rintro ⟨rfl, rfl⟩
    rfl

/-- The texts of a list that is joined by a separator. Nothing is the empty list. -/
def textsBetween (separator : Char) (joined : List Char) : List (List Char) :=
  if joined = [] then [] else joined.splitOn separator

theorem textsBetween_intercalate (each : ∀ text ∈ texts, text ≠ [] ∧ separator ∉ text) :
    textsBetween separator ([separator].intercalate texts) = texts := by
  by_cases none : texts = []
  · rw [none]
    rfl
  · have pieces := List.splitOn_intercalate separator (fun text h => (each text h).2) none
    have filled : [separator].intercalate texts ≠ [] := by
      intro nothing
      rw [nothing] at pieces
      exact (each [] (pieces ▸ List.mem_singleton_self [])).1 rfl
    rw [textsBetween, if_neg filled, pieces]

theorem intercalate_inj (each : ∀ text ∈ texts, text ≠ [] ∧ separator ∉ text)
    (each' : ∀ text ∈ others, text ≠ [] ∧ separator ∉ text) :
    [separator].intercalate texts = [separator].intercalate others ↔ texts = others := by
  constructor
  · intro same
    rw [← textsBetween_intercalate each, same, textsBetween_intercalate each']
  · rintro rfl
    rfl

end Texts

namespace Callable

/-- The signs that hold a key together do not stand in its parts. -/
structure Separable (outer : Scope) (c : Callable) : Prop where
  name : '(' ∉ c.name.toList
  parameters : ∀ type ∈ c.erasedParameters outer, type ≠ "" ∧ ',' ∉ type.toList

/-- Name and erased parameter types are the same. -/
def SameProfile (outer outer' : Scope) (c d : Callable) : Prop :=
  c.name = d.name ∧ c.erasedParameters outer = d.erasedParameters outer'

instance (outer outer' : Scope) (c d : Callable) : Decidable (SameProfile outer outer' c d) :=
  inferInstanceAs (Decidable (_ ∧ _))

variable {outer outer' : Scope} {c d : Callable}

theorem toList_key : (c.key outer).toList = c.name.toList ++ '(' ::
    ([','].intercalate ((c.erasedParameters outer).map String.toList) ++ [')']) := by
  simp [key, String.toList_intercalate]

theorem key_eq_iff (separable : c.Separable outer) (separable' : d.Separable outer') :
    c.key outer = d.key outer' ↔ SameProfile outer outer' c d := by
  have filled {outer : Scope} {c : Callable} (separable : c.Separable outer) :
      ∀ text ∈ (c.erasedParameters outer).map String.toList, text ≠ [] ∧ ',' ∉ text := by
    intro text h
    obtain ⟨type, htype, rfl⟩ := List.mem_map.mp h
    obtain ⟨some, plain⟩ := separable.parameters type htype
    exact ⟨by simpa using some, plain⟩
  rw [← String.toList_inj, toList_key, toList_key,
    append_cons_inj_of_first separable.name separable'.name, List.append_left_inj,
    intercalate_inj (filled separable) (filled separable'), String.toList_inj]
  exact and_congr_right fun _ => List.map_inj_right fun _ _ => String.toList_inj.mp

section Lookup

variable {α : Type} {callable : α → Callable} {members : List α}

/-- A search by key is one by name and erased parameter types. -/
theorem find?_key (separable : ∀ m ∈ members, (callable m).Separable outer)
    (separable' : c.Separable outer') :
    (members.find? fun m => (callable m).key outer == c.key outer') =
      members.find? fun m => decide (SameProfile outer outer' (callable m) c) :=
  List.find?_congr fun m hm => by
    rw [Bool.eq_iff_iff, beq_iff_eq, decide_eq_true_iff, key_eq_iff (separable m hm) separable']

/-- No two members collide that differ in name or erased parameter types. -/
theorem nodup_key (separable : ∀ m ∈ members, (callable m).Separable outer)
    (apart : members.Pairwise fun m n => ¬SameProfile outer outer (callable m) (callable n)) :
    (members.map fun m => (callable m).key outer).Nodup := by
  rw [List.Nodup, List.pairwise_map]
  refine apart.imp_of_mem fun hm hn other same => other ?_
  exact (key_eq_iff (separable _ hm) (separable _ hn)).mp same

end Lookup

end Callable

namespace Compatibility

open Callable (SameProfile)

/-- Two members have one key exactly if they have one name and the same erased parameter types in one
order. So looking a method or a constructor up by its key is looking it up by these, and in a class
whose members all differ in them each one is found under its own key. -/
theorem key_identifies :
    (∀ outer outer' (c d : Callable), c.Separable outer → d.Separable outer' →
      (c.key outer = d.key outer' ↔
        c.name = d.name ∧ c.erasedParameters outer = d.erasedParameters outer')) ∧
    (∀ (p : Place) outer (c : Callable), c.Separable outer →
      ((∀ m ∈ p.decl.methods, m.Separable p.scope) → p.method? (c.key outer) =
        p.decl.methods.reverse.find? fun m => decide (SameProfile p.scope outer m.toCallable c)) ∧
      ((∀ k ∈ p.decl.constructors, k.Separable p.scope) → p.constructor? (c.key outer) =
        p.decl.constructors.reverse.find? fun k => decide (SameProfile p.scope outer k c))) ∧
    ∀ p : Place,
      ((∀ m ∈ p.decl.methods, m.Separable p.scope) →
        (p.decl.methods.Pairwise fun m n => ¬SameProfile p.scope p.scope m.toCallable n.toCallable) →
        ∀ m ∈ p.decl.methods, p.method? (m.key p.scope) = some m) ∧
      ((∀ k ∈ p.decl.constructors, k.Separable p.scope) →
        (p.decl.constructors.Pairwise fun k l => ¬SameProfile p.scope p.scope k l) →
        ∀ k ∈ p.decl.constructors, p.constructor? (k.key p.scope) = some k) := by
  refine ⟨fun outer outer' c d => Callable.key_eq_iff, fun p outer c separable' => ⟨?_, ?_⟩,
    fun p => ⟨?_, ?_⟩⟩
  · intro separable
    exact Callable.find?_key (fun m hm => separable m (List.mem_reverse.mp hm)) separable'
  · intro separable
    exact @Callable.find?_key p.scope outer c _ id _
      (fun k hk => separable k (List.mem_reverse.mp hk)) separable'
  · intro separable apart m hm
    obtain ⟨n, found, same⟩ := exists_find?_key_reverse (fun m : Method => m.key p.scope) hm
    exact found.trans (congrArg some (same (Callable.nodup_key separable apart)))
  · intro separable apart k hk
    obtain ⟨l, found, same⟩ := exists_find?_key_reverse (Callable.key p.scope) hk
    exact found.trans (congrArg some (same (@Callable.nodup_key p.scope _ id _ separable apart)))

/-- The method `put` with parameters of certain types. -/
def putting (types : List Signature) : Method where
  name := "put"
  modifiers := .none
  deprecated := false
  position := none
  typeParameters := []
  parameters := types.map fun type => ⟨"", "", type⟩
  exceptions := []
  returnType := .ofName .primitive "void"

/-- Overloads without parameters, with a number, and with an ellipsis of numbers. -/
def overloaded : Place :=
  let int := Signature.ofName .primitive "int"
  ⟨.empty, 0, { ClassDecl.bare "p" "C" .plain with
    methods := [putting [], putting [int], putting [{ int with varargs := true }]] }⟩

theorem key_identifies_overloads :
    (∀ m ∈ overloaded.decl.methods, m.Separable overloaded.scope) ∧
      (overloaded.decl.methods.Pairwise fun m n =>
        ¬SameProfile overloaded.scope overloaded.scope m.toCallable n.toCallable) ∧
      ∀ m ∈ overloaded.decl.methods, overloaded.method? (m.key overloaded.scope) = some m := by
  have erased : overloaded.decl.methods.map (fun m => m.erasedParameters overloaded.scope) =
      [[], ["int"], ["int[]"]] := by
    simp [overloaded, putting, Callable.erasedParameters, Signature.erasure, Signature.ofName,
      Signature.erasedBase_of_named, Signature.fullDimension]
  have separable : ∀ m ∈ overloaded.decl.methods, m.Separable overloaded.scope := by
    intro m hm
    have types := List.mem_map_of_mem (f := fun m : Method => m.erasedParameters overloaded.scope) hm
    rw [erased] at types
    have name : m.name = "put" := by
      simp only [overloaded, List.mem_cons, List.not_mem_nil, or_false] at hm
      rcases hm with rfl | rfl | rfl <;> rfl
    refine ⟨by rw [name]; decide, fun type h => ?_⟩
    have known : ∀ types ∈ [[], ["int"], ["int[]"]], ∀ type ∈ types,
        type ≠ "" ∧ ',' ∉ type.toList := by decide
    exact known _ types type h
  have apart : overloaded.decl.methods.Pairwise fun m n =>
      ¬SameProfile overloaded.scope overloaded.scope m.toCallable n.toCallable := by
    have distinct : [[], ["int"], ["int[]"]].Pairwise (· ≠ ·) := by decide
    rw [← erased, List.pairwise_map] at distinct
    exact distinct.imp fun other same => other same.2
  exact ⟨separable, apart, (key_identifies.2.2 overloaded).1 separable apart⟩

end Compatibility

end ApiCompat
