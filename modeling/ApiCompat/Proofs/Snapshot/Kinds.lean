import ApiCompat.Proofs.Snapshot.Chains
import ApiCompat.Proofs.Snapshot.Construction
import ApiCompat.Proofs.Snapshot.Idempotence

/-! The kinds of classes. A class is an exception, an error or an enumeration by the first name above
it that marks one, or else by the ending of an undeclared name at the top; an interface is an
annotation type by its supertypes. The names above a class are, link for link, that of its superclass
and those above the superclass. So both have the same kind unless the superclass is a marker itself;
this holds on circles too, though the chains of two classes are cut there at different places. -/
namespace ApiCompat

open Markup (Tag Element Spells)
open Relation (ReflTransGen)

/-- The name gives a kind to the classes below it. -/
inductive Marker : String → ClassKind → Prop where
  | error : Marker "java.lang.Error" .error
  | throwable : Marker "java.lang.Throwable" .exception
  | exception : Marker "java.lang.Exception" .exception
  | runtimeException : Marker "java.lang.RuntimeException" .exception
  | enumeration : Marker "java.lang.Enum" .enumeration

def Unmarked (name : String) : Prop := ∀ kind, ¬Marker name kind

/-- The name ends as the names of a kind do. -/
inductive Ending (name : String) : ClassKind → Prop where
  | exception : "Exception".toList <:+ name.toList → Ending name .exception
  | error : "Error".toList <:+ name.toList → Ending name .error

/-- The kind of a class with a chain of superclass names. -/
inductive ChainKind (s : Snapshot) (chain : List String) : ClassKind → Prop where
  | marked {before after : List String} {name : String} {kind : ClassKind} :
      chain = before ++ name :: after → (∀ earlier ∈ before, Unmarked earlier) → Marker name kind →
      ChainKind s chain kind
  | suggested {name : String} {kind : ClassKind} : (∀ n ∈ chain, Unmarked n) →
      chain.getLast? = some name → s.find? name = none → Ending name kind → ChainKind s chain kind
  | plain : (∀ n ∈ chain, Unmarked n) → (∀ name, chain.getLast? = some name →
      s.find? name = none → ∀ kind, ¬Ending name kind) → ChainKind s chain .plain

namespace Snapshot

section Chain

variable {s : Snapshot} {chain : List String} {name : String} {kind : ClassKind}

theorem kindOfMarker_eq_some_iff : kindOfMarker name = some kind ↔ Marker name kind := by
  constructor
  · intro h
    unfold kindOfMarker at h
    split_ifs at h with error exception enumeration
    · cases h
      exact error ▸ .error
    · cases h
      simp only [List.mem_cons, List.not_mem_nil, or_false] at exception
      rcases exception with rfl | rfl | rfl
      · exact .throwable
      · exact .exception
      · exact .runtimeException
    · cases h
      exact enumeration ▸ .enumeration
  · intro marks
    cases marks <;> decide

theorem kindOfMarker_eq_none_iff : kindOfMarker name = none ↔ Unmarked name := by
  simp only [Unmarked, ← kindOfMarker_eq_some_iff, Option.eq_none_iff_forall_ne_some, ne_eq]

theorem kindOfEnding_eq_some_iff : kindOfEnding name = some kind ↔ Ending name kind := by
  unfold kindOfEnding endsWith
  simp only [List.isSuffixOf_iff_suffix]
  constructor
  · intro h
    split_ifs at h with exception error
    · cases h
      exact .exception exception
    · cases h
      exact .error error
  · intro ends
    cases ends with
    | exception ends => rw [if_pos ends]
    | error ends =>
      have apart : ¬"Exception".toList <:+ name.toList := by
        intro other
        have inside := List.suffix_of_suffix_length_le ends other (by decide)
        revert inside
        decide
      rw [if_neg apart, if_pos ends]

theorem kindOfEnding_eq_none_iff : kindOfEnding name = none ↔ ∀ kind, ¬Ending name kind := by
  simp only [← kindOfEnding_eq_some_iff, Option.eq_none_iff_forall_ne_some, ne_eq]

theorem findSome?_kindOfMarker_eq_none_iff :
    chain.findSome? kindOfMarker = none ↔ ∀ n ∈ chain, Unmarked n := by
  simp only [List.findSome?_eq_none_iff, kindOfMarker_eq_none_iff]

/-- The name at the top of a chain, if it is not declared. -/
def undeclaredTop? (s : Snapshot) (chain : List String) : Option String :=
  chain.getLast?.filter fun name => (s.find? name).isNone

theorem undeclaredTop?_eq_some_iff : s.undeclaredTop? chain = some name ↔
    chain.getLast? = some name ∧ s.find? name = none := by
  rw [undeclaredTop?, Option.filter_eq_some_iff, Option.isNone_iff_eq_none]

theorem kindOfChain_eq (s : Snapshot) (chain : List String) : s.kindOfChain chain =
    (chain.findSome? kindOfMarker).or ((s.undeclaredTop? chain).bind kindOfEnding) := rfl

theorem chainKind_kindOfChain (s : Snapshot) (chain : List String) :
    ChainKind s chain ((s.kindOfChain chain).getD .plain) := by
  rw [kindOfChain_eq]
  cases found : chain.findSome? kindOfMarker with
  | some kind =>
    obtain ⟨before, name, after, split, marks, first⟩ := List.findSome?_eq_some_iff.mp found
    refine .marked split ?_ (kindOfMarker_eq_some_iff.mp marks)
    intro earlier inside
    exact kindOfMarker_eq_none_iff.mp (first earlier inside)
  | none =>
    have unmarked := findSome?_kindOfMarker_eq_none_iff.mp found
    cases guess : (s.undeclaredTop? chain).bind kindOfEnding with
    | some kind =>
      obtain ⟨name, top, ends⟩ := Option.bind_eq_some_iff.mp guess
      obtain ⟨last, external⟩ := undeclaredTop?_eq_some_iff.mp top
      exact .suggested unmarked last external (kindOfEnding_eq_some_iff.mp ends)
    | none =>
      apply ChainKind.plain unmarked
      intro name last external
      rw [undeclaredTop?_eq_some_iff.mpr ⟨last, external⟩] at guess
      exact kindOfEnding_eq_none_iff.mp guess

theorem eq_of_chainKind (derived : ChainKind s chain kind) :
    kind = (s.kindOfChain chain).getD .plain := by
  rw [kindOfChain_eq]
  cases derived with
  | @marked before after name _ split first marks =>
    have none : ∀ earlier ∈ before, kindOfMarker earlier = none := by
      intro earlier inside
      exact kindOfMarker_eq_none_iff.mpr (first earlier inside)
    have found : chain.findSome? kindOfMarker = some kind := List.findSome?_eq_some_iff.mpr
      ⟨before, name, after, split, kindOfMarker_eq_some_iff.mpr marks, none⟩
    rw [found]
    rfl
  | suggested unmarked last external ends =>
    rw [findSome?_kindOfMarker_eq_none_iff.mpr unmarked,
      undeclaredTop?_eq_some_iff.mpr ⟨last, external⟩, Option.none_or, Option.bind_some,
      kindOfEnding_eq_some_iff.mpr ends]
    rfl
  | plain unmarked ending =>
    rw [findSome?_kindOfMarker_eq_none_iff.mpr unmarked, Option.none_or]
    cases top : s.undeclaredTop? chain with
    | none => rfl
    | some name =>
      obtain ⟨last, external⟩ := undeclaredTop?_eq_some_iff.mp top
      rw [Option.bind_some, kindOfEnding_eq_none_iff.mpr (ending name last external)]
      rfl

theorem chainKind_iff : ChainKind s chain kind ↔ (s.kindOfChain chain).getD .plain = kind := by
  constructor
  · intro derived
    exact (eq_of_chainKind derived).symm
  · rintro rfl
    exact chainKind_kindOfChain s chain

end Chain

section Superclass

variable {s : Snapshot} {id a b : ClassId} {name : String}

/-- What is found first in a chain is found first on the links, cut or not. -/
theorem findSome?_superclassChain_iff {α : Type} (closed : s.Closed) {f : String → Option α}
    {value : α} : (s.superclassChain id).findSome? f = some value ↔
      ∃ k ref, s.superclassLink? id k = some ref ∧ f (s.nameOfRef ref) = some value ∧
        ∀ j < k, ∀ earlier, s.superclassLink? id j = some earlier → f (s.nameOfRef earlier) = none := by
  have onLinks : ∀ value, (s.superclassChain id).findSome? f = some value →
      ∃ k ref, s.superclassLink? id k = some ref ∧ f (s.nameOfRef ref) = some value ∧
        ∀ j < k, ∀ earlier, s.superclassLink? id j = some earlier → f (s.nameOfRef earlier) = none := by
    intro value found
    obtain ⟨before, name, after, split, here, first⟩ := List.findSome?_eq_some_iff.mp found
    have place : (s.superclassChain id)[before.length]? = some name := by simp [split]
    obtain ⟨ref, link, rfl⟩ := exists_superclassLink?_of_chain place
    refine ⟨before.length, ref, link, here, ?_⟩
    intro j earlier other met
    have inside : (s.superclassChain id)[j]? = some before[j] := by
      rw [split, List.getElem?_append_left earlier, List.getElem?_eq_getElem earlier]
    obtain ⟨ref', met', named⟩ := exists_superclassLink?_of_chain inside
    cases met.symm.trans met'
    rw [named]
    exact first _ (List.getElem_mem earlier)
  constructor
  · exact onLinks value
  · rintro ⟨k, ref, link, here, first⟩
    cases found : (s.superclassChain id).findSome? f with
    | none =>
      have named := (mem_superclassChain_iff_link closed).mpr ⟨k, ref, link, rfl⟩
      rw [List.findSome?_eq_none_iff.mp found _ named] at here
      cases here
    | some other =>
      obtain ⟨k', ref', link', here', first'⟩ := onLinks other found
      rcases Nat.lt_trichotomy k k' with before | rfl | after
      · rw [first' k before ref link] at here
        cases here
      · cases link.symm.trans link'
        rw [← here, here']
      · rw [first k' after ref' link'] at here'
        cases here'

theorem link_mem_ids (closed : s.Closed) {k : Nat} (link : s.superclassLink? id k = some (.linked a)) :
    a ∈ s.ids := by
  obtain ⟨last, _, direct⟩ := exists_superclassLink?_iff.mp ⟨k, link⟩
  exact closed last a (superclassRef_mem direct)

/-- In a resolved snapshot the top of a chain is undeclared if a link ends the chain there. -/
theorem undeclaredTop?_superclassChain_iff (closed : s.Closed) (resolved : s.LinksResolved) :
    s.undeclaredTop? (s.superclassChain id) = some name ↔
      ∃ k, s.superclassLink? id k = some (.named name) := by
  have external : ∀ k ref, s.superclassLink? id k = some ref → s.find? (s.nameOfRef ref) = none →
      ref = .named (s.nameOfRef ref) := by
    intro k ref link absent
    cases ref with
    | named name => rfl
    | linked a =>
      obtain ⟨c, hc⟩ := exists_class?_of_mem_ids (link_mem_ids closed link)
      have declared := find?_ne_none hc
      rw [← nameOf_of_class? hc] at declared
      exact absurd absent declared
  rw [undeclaredTop?_eq_some_iff, List.getLast?_eq_getElem?]
  constructor
  · rintro ⟨last, absent⟩
    obtain ⟨ref, link, rfl⟩ := exists_superclassLink?_of_chain last
    exact ⟨_, external _ ref link absent ▸ link⟩
  · rintro ⟨k, link⟩
    obtain ⟨last, _, direct⟩ := exists_superclassLink?_iff.mp ⟨k, link⟩
    have absent : s.find? name = none := resolved last name (superclassRef_mem direct)
    have named : name ∈ s.superclassChain id :=
      (mem_superclassChain_iff_link closed).mpr ⟨k, .named name, link, rfl⟩
    obtain ⟨j, inside, rfl⟩ := List.mem_iff_getElem.mp named
    have place := List.getElem?_eq_getElem inside
    obtain ⟨ref, met, same⟩ := exists_superclassLink?_of_chain place
    have ends : j + 1 = (s.superclassChain id).length := by
      by_contra more
      have early : j + 1 < (s.superclassChain id).length := by omega
      obtain ⟨a, _, linked, _⟩ := linked_of_not_last early
      rw [← same] at absent
      cases (external j ref met absent).symm.trans (Option.some.inj (met.symm.trans linked))
    refine ⟨?_, absent⟩
    rw [← ends]
    exact place

/-- What is skipped at the superclass is found further up, on the same links. -/
theorem findSome?_superclassChain {α : Type} (closed : s.Closed) (link : s.superclass? a = some b)
    {f : String → Option α} (skipped : f (s.nameOf b) = none) :
    (s.superclassChain a).findSome? f = (s.superclassChain b).findSome? f := by
  have direct : s.superclassLink? a 0 = some (.linked b) := superclass?_eq_some_iff.mp link
  ext value
  rw [findSome?_superclassChain_iff closed, findSome?_superclassChain_iff closed]
  constructor
  · rintro ⟨k, ref, met, here, first⟩
    cases k with
    | zero =>
      cases direct.symm.trans met
      cases skipped.symm.trans here
    | succ k =>
      refine ⟨k, ref, (superclassLink?_succ link).symm.trans met, here, ?_⟩
      intro j before earlier further
      exact first (j + 1) (by omega) earlier ((superclassLink?_succ link).trans further)
  · rintro ⟨k, ref, met, here, first⟩
    refine ⟨k + 1, ref, (superclassLink?_succ link).trans met, here, ?_⟩
    intro j before earlier further
    cases j with
    | zero =>
      cases direct.symm.trans further
      exact skipped
    | succ j => exact first j (by omega) earlier ((superclassLink?_succ link).symm.trans further)

theorem undeclaredTop?_superclassChain (closed : s.Closed) (resolved : s.LinksResolved)
    (link : s.superclass? a = some b) :
    s.undeclaredTop? (s.superclassChain a) = s.undeclaredTop? (s.superclassChain b) := by
  have direct : s.superclassLink? a 0 = some (.linked b) := superclass?_eq_some_iff.mp link
  ext name
  rw [undeclaredTop?_superclassChain_iff closed resolved,
    undeclaredTop?_superclassChain_iff closed resolved]
  constructor
  · rintro ⟨k, met⟩
    cases k with
    | zero => cases direct.symm.trans met
    | succ k => exact ⟨k, (superclassLink?_succ link).symm.trans met⟩
  · rintro ⟨k, met⟩
    exact ⟨k + 1, (superclassLink?_succ link).trans met⟩

/-- A class has the kind of its superclass, unless that is a marker. -/
theorem kindOfChain_superclass (closed : s.Closed) (resolved : s.LinksResolved)
    (link : s.superclass? a = some b) (unmarked : Unmarked (s.nameOf b)) :
    s.kindOfChain (s.superclassChain a) = s.kindOfChain (s.superclassChain b) := by
  rw [kindOfChain_eq, kindOfChain_eq,
    findSome?_superclassChain closed link (kindOfMarker_eq_none_iff.mpr unmarked),
    undeclaredTop?_superclassChain closed resolved link]

end Superclass

section Resolved

variable {s : Snapshot} {id : ClassId} {c : ClassDecl}

theorem kind_resolveClass (s : Snapshot) (id : ClassId) (c : ClassDecl) :
    (s.resolveClass id c).kind = (s.resolve.derivedKind? id c.kind).getD c.kind := by
  rw [resolve, derivedKind?_deriveKinds]
  rfl

theorem kind_resolveClass_plain (declared : c.kind = .plain) : (s.resolveClass id c).kind =
    (s.resolve.kindOfChain (s.resolve.superclassChain id)).getD .plain := by
  rw [kind_resolveClass, declared]
  rfl

theorem kind_resolveClass_interface (declared : c.kind = .interface) :
    (s.resolveClass id c).kind =
      if annotationRoot ∈ s.resolve.supertypeNames id then .annotationType else .interface := by
  rw [kind_resolveClass, declared]
  simp only [derivedKind?, List.contains_iff_mem]
  split <;> rfl

end Resolved

section Declared

/-- The document declares the class of the number by an element of the name. -/
def DeclaredBy (document : List UInt8) (element : String) (id : ClassId) : Prop :=
  ∃ forest, Spells forest (Markup.read document).events ∧
    ∃ e ∈ Element.classesAll 0 none none forest, e.number = id ∧ e.element.tag.name = element

variable {document : List UInt8} {s : Snapshot} {element : String} {id a b : ClassId}

theorem class?_of_declaredBy (loaded : Snapshot.load document = .ok s)
    (declared : DeclaredBy document element id) : ∃ c, s.class? id = some c ∧
      c.kind = if element = "interface" then .interface else .plain := by
  obtain ⟨forest, spelled, e, he, rfl, rfl⟩ := declared
  have classes := ((described_of_load loaded).2 forest spelled).classes
  obtain ⟨i, hi, rfl⟩ := List.mem_iff_getElem.mp he
  have inside : i < s.classes.length := classes.length_eq ▸ hi
  rw [Element.number_getElem_classesAll hi]
  exact ⟨s.classes[i], List.getElem?_eq_getElem inside, (classes.get hi inside).heading.kind⟩

theorem declaredBy_of_mem_ids (loaded : Snapshot.load document = .ok s) (inside : id ∈ s.ids) :
    DeclaredBy document "class" id ∨ DeclaredBy document "interface" id := by
  obtain ⟨⟨forest, spelled⟩, described⟩ := described_of_load loaded
  have hi : id < (Element.classesAll 0 none none forest).length :=
    (described forest spelled).classes.length_eq ▸ mem_ids.mp inside
  have he := List.getElem_mem hi
  have number := Element.number_getElem_classesAll hi
  have listed := List.mem_map_of_mem (f := (·.element)) he
  rw [Element.element_classesAll, List.mem_filter] at listed
  have opens := listed.2
  simp only [Tag.opensClass, Bool.or_eq_true, beq_iff_eq] at opens
  rcases opens with named | named
  · exact .inl ⟨forest, spelled, _, he, number, named⟩
  · exact .inr ⟨forest, spelled, _, he, number, named⟩

/-- The kind that loading gives a class tells by which element it is declared. -/
theorem declaredBy_iff_kind (loaded : Snapshot.load document = .ok s)
    (known : element = "class" ∨ element = "interface") : DeclaredBy document element id ↔
      (s.class? id).map (·.kind) = some (if element = "interface" then .interface else .plain) := by
  have byKind : ∀ other, DeclaredBy document other id →
      (s.class? id).map (·.kind) = some (if other = "interface" then .interface else .plain) := by
    intro other declared
    obtain ⟨c, hc, kind⟩ := class?_of_declaredBy loaded declared
    rw [hc, Option.map_some, kind]
  constructor
  · exact byKind element
  · intro kind
    obtain ⟨c, hc, -⟩ := Option.map_eq_some_iff.mp kind
    have declared := declaredBy_of_mem_ids loaded (mem_ids_of_class? hc)
    rcases known with rfl | rfl
    · apply declared.resolve_right
      intro other
      cases (byKind _ other).symm.trans kind
    · apply declared.resolve_left
      intro other
      cases (byKind _ other).symm.trans kind

/-- The kind of a declared class is the one that its chain gives. -/
theorem kind_of_declaredBy_class (loaded : Snapshot.load document = .ok s)
    (declared : DeclaredBy document "class" id) : ∃ c, s.resolve.class? id = some c ∧
      c.kind = (s.resolve.kindOfChain (s.resolve.superclassChain id)).getD .plain := by
  obtain ⟨c, hc, kind⟩ := class?_of_declaredBy loaded declared
  refine ⟨s.resolveClass id c, ?_, kind_resolveClass_plain (kind.trans (by decide))⟩
  rw [class?_resolve, hc]
  rfl

theorem kind_of_declaredBy_interface (loaded : Snapshot.load document = .ok s)
    (declared : DeclaredBy document "interface" id) : ∃ c, s.resolve.class? id = some c ∧
      c.kind = if annotationRoot ∈ s.resolve.supertypeNames id then .annotationType else .interface := by
  obtain ⟨c, hc, kind⟩ := class?_of_declaredBy loaded declared
  refine ⟨s.resolveClass id c, ?_, kind_resolveClass_interface (kind.trans (by decide))⟩
  rw [class?_resolve, hc]
  rfl

/-- Along superclasses that are no markers the chains give one kind. -/
theorem kindOfChain_superclasses (closed : s.Closed) (resolved : s.LinksResolved)
    (path : ReflTransGen (fun a b => s.superclass? a = some b ∧ Unmarked (s.nameOf b)) a b) :
    s.kindOfChain (s.superclassChain a) = s.kindOfChain (s.superclassChain b) := by
  induction path with
  | refl => rfl
  | tail _ step ih => exact ih.trans (kindOfChain_superclass closed resolved step.1 step.2)

/-- Elements and hierarchy together give the kinds, and a class that is reached over superclasses
has the kind of the class that it is reached from. -/
theorem kinds_follow_hierarchy (loaded : Snapshot.load document = .ok s) :
    (∀ id ∈ s.ids, DeclaredBy document "class" id ∨ DeclaredBy document "interface" id) ∧
    (∀ id, DeclaredBy document "class" id → ∃ c, s.resolve.class? id = some c ∧
      ∀ kind, c.kind = kind ↔ ChainKind s.resolve (s.resolve.superclassChain id) kind) ∧
    (∀ id, DeclaredBy document "interface" id → ∃ c, s.resolve.class? id = some c ∧
      c.kind = if "java.lang.annotation.Annotation" ∈ s.resolve.supertypeNames id
        then .annotationType else .interface) ∧
    ∀ a b, DeclaredBy document "class" a → DeclaredBy document "class" b →
      ReflTransGen (fun a b => s.resolve.superclass? a = some b ∧ Unmarked (s.resolve.nameOf b)) a b →
      (s.resolve.class? a).map (·.kind) = (s.resolve.class? b).map (·.kind) := by
  refine ⟨fun id => declaredBy_of_mem_ids loaded, ?_, fun id => kind_of_declaredBy_interface loaded, ?_⟩
  · intro id declared
    obtain ⟨c, hc, derived⟩ := kind_of_declaredBy_class loaded declared
    refine ⟨c, hc, fun kind => ?_⟩
    rw [chainKind_iff, derived]
  · intro a b lower upper path
    obtain ⟨c, hc, kind⟩ := kind_of_declaredBy_class loaded lower
    obtain ⟨d, hd, kind'⟩ := kind_of_declaredBy_class loaded upper
    have closed := (WellFormed.of_load loaded).resolve.closed
    rw [hc, hd, Option.map_some, Option.map_some, kind, kind',
      kindOfChain_superclasses closed (linksResolved_resolve s) path]

/-- A class below one that is entered after it and below an undeclared one, and an interface. -/
def failing : List UInt8 :=
  ("<package name='p'><class name='A' extends='p.B'/><class name='B' extends='Error'/>" ++
    "<interface name='I'/></package>").toUTF8.toList

theorem kinds_follow_hierarchy_failing : ∃ s, Snapshot.load failing = .ok s ∧
    (∃ c, s.resolve.class? 1 = some c ∧ c.kind = .error) ∧
    (∃ c, s.resolve.class? 2 = some c ∧ c.kind = .interface) ∧
    (s.resolve.class? 0).map (·.kind) = (s.resolve.class? 1).map (·.kind) := by
  have facts : (Snapshot.load failing).toOption.any (fun s =>
      s.classes.map (·.kind) = [.plain, .plain, .interface] ∧
      s.resolve.superclass? 0 = some 1 ∧ s.resolve.nameOf 1 = "p.B" ∧
      s.resolve.superclassChain 1 = ["Error"] ∧ (s.resolve.find? "Error").isNone ∧
      s.resolve.supertypeNames 2 = []) = true := by decide +kernel
  cases loaded : Snapshot.load failing with
  | error e => simp [loaded, Except.toOption] at facts
  | ok s =>
    simp only [loaded, Except.toOption, Option.any_some, decide_eq_true_eq] at facts
    obtain ⟨kinds, below, named, chain, external, nothing⟩ := facts
    have kind : ∀ id, (s.class? id).map (·.kind) = [.plain, .plain, .interface][id]? := by
      intro id
      rw [← kinds, List.getElem?_map]
      rfl
    obtain ⟨-, byChain, byTypes, along⟩ := kinds_follow_hierarchy loaded
    have lower := (declaredBy_iff_kind loaded (.inl rfl)).mpr (kind 0)
    have upper := (declaredBy_iff_kind loaded (.inl rfl)).mpr (kind 1)
    refine ⟨s, rfl, ?_, ?_, ?_⟩
    · obtain ⟨c, hc, derived⟩ := byChain 1 upper
      refine ⟨c, hc, (derived _).mpr ?_⟩
      rw [chain]
      have unmarked : ∀ n ∈ ["Error"], Unmarked n := by
        rw [← findSome?_kindOfMarker_eq_none_iff]
        decide
      exact .suggested unmarked rfl (Option.isNone_iff_eq_none.mp external) (.error (by decide))
    · obtain ⟨c, hc, derived⟩ := byTypes 2 ((declaredBy_iff_kind loaded (.inr rfl)).mpr (kind 2))
      refine ⟨c, hc, derived.trans ?_⟩
      rw [nothing]
      rfl
    · refine along 0 1 lower upper (.single ⟨below, ?_⟩)
      rw [named, ← kindOfMarker_eq_none_iff]
      decide

end Declared

end Snapshot

end ApiCompat
