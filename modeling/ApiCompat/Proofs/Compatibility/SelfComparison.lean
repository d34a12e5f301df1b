import ApiCompat.Proofs.Compatibility.Verdict
import ApiCompat.Proofs.Snapshot.Loading
import ApiCompat.Proofs.Snapshot.Supertypes

/-! A snapshot compared with itself. Every class and every member finds a counterpart, so
nothing is removed or added. A member finds the last one of its key, or the first field of its
name, which is another declaration where keys or names repeat; where they do not, everything
is compared with itself, and a declaration is no change of itself. -/
namespace ApiCompat.Compatibility

/-- The categories that say that something is missing on one side, or has another superclass or
kind. -/
def differences : List Category :=
  [.removedPackage, .removedClass, .removedMethod, .removedField, .changedSuperclass,
    .changedClass, .addedPackage, .addedClass, .addedMethod, .addedField, .addedAbstractMethod]

/-- Keys and names tell the members of the class apart, and it is not its own interface. -/
structure Place.Unambiguous (p : Place) : Prop where
  constructors : (p.decl.constructors.map (Callable.key p.scope)).Nodup
  methods : (p.decl.methods.map fun m => m.key p.scope).Nodup
  fields : (p.decl.fields.map (·.name)).Nodup
  interfaces : ClassRef.linked p.id ∉ p.decl.interfaces

instance (p : Place) : Decidable p.Unambiguous :=
  decidable_of_iff ((p.decl.constructors.map (Callable.key p.scope)).Nodup ∧
      (p.decl.methods.map fun m => m.key p.scope).Nodup ∧ (p.decl.fields.map (·.name)).Nodup ∧
      ClassRef.linked p.id ∉ p.decl.interfaces)
    ⟨fun h => ⟨h.1, h.2.1, h.2.2.1, h.2.2.2⟩,
      fun h => ⟨h.constructors, h.methods, h.fields, h.interfaces⟩⟩

def AllUnambiguous (s : Snapshot) : Prop :=
  ∀ id c, s.class? id = some c → Place.Unambiguous ⟨s, id, c⟩

instance (s : Snapshot) : Decidable (AllUnambiguous s) :=
  decidable_of_iff (∀ id ∈ s.ids, (s.class? id).all fun c => Place.Unambiguous ⟨s, id, c⟩) <| by
    simp only [Option.all_eq_true, decide_eq_true_eq, AllUnambiguous]
    exact ⟨fun h id c hc => h id (Snapshot.mem_ids_of_class? hc) c hc, fun h id _ c hc => h id c hc⟩

section Same

/-- A search for the key of an element ends at an element, and at no other if keys differ. -/
theorem exists_find?_key {α : Type} (key : α → String) {list : List α} {a : α} (h : a ∈ list) :
    ∃ b, list.find? (key · == key a) = some b ∧ ((list.map key).Nodup → b = a) := by
  have present : (list.find? (key · == key a)).isSome := by
    rw [List.find?_isSome]
    exact ⟨a, h, beq_self_eq_true _⟩
  obtain ⟨b, found⟩ := Option.isSome_iff_exists.mp present
  refine ⟨b, found, ?_⟩
  intro distinct
  have same : key b = key a := by simpa using List.find?_some found
  exact List.inj_on_of_nodup_map distinct (List.mem_of_find?_eq_some found) h same

theorem exists_find?_key_reverse {α : Type} (key : α → String) {list : List α} {a : α}
    (h : a ∈ list) :
    ∃ b, list.reverse.find? (key · == key a) = some b ∧ ((list.map key).Nodup → b = a) := by
  obtain ⟨b, found, same⟩ := exists_find?_key key (List.mem_reverse.mpr h)
  refine ⟨b, found, ?_⟩
  rwa [List.map_reverse, List.nodup_reverse] at same

theorem narrowed_self (v : Visibility) : v.narrowed v = false :=
  narrowed_eq_false_iff.mpr (Nat.le_refl _)

theorem mem_finding_iff {holds : Bool} {category : Category} {location : Option Position}
    {message : String} {f : Finding} : f ∈ finding holds category location message ↔
      holds = true ∧ f = ⟨category, message, location⟩ := by
  cases holds <;> simp [finding]

theorem addedThrows_self (s : Snapshot) (a : Callable) : addedThrows s s a a = [] := by
  refine List.filter_eq_nil_iff.mpr ?_
  intro ref href
  have thrown : wasThrown s s a.exceptions ref = true :=
    List.any_eq_true.mpr ⟨ref, href, by simp⟩
  simp [thrown]

theorem compareCallable_self (s : Snapshot) (label : String) (a : Callable) :
    compareCallable s s label a a = [] := by
  simp [compareCallable, finding, narrowed_self, staticChanged, addedThrows_self]

theorem compareMethod_self (p : Place) (m : Method) : compareMethod p p m m = [] := by
  simp [compareMethod, finding, methodBecameAbstract, methodBecameFinal, becameFinal, lostFinal,
    compareCallable_self]

theorem compareField_self (p : Place) (x : Field) : compareField p p x x = [] := by
  have value : constantValueChanged x x = false := by
    unfold constantValueChanged
    cases x.value <;> simp
  simp [compareField, finding, narrowed_self, staticChanged, becameFinal, lostFinal, value]

theorem standingFindings_self (c : ClassDecl) : standingFindings c c = [] := by
  simp [standingFindings, finding, kindIncompatible, narrowed_self]

theorem modifierFindings_self (c : ClassDecl) : modifierFindings c c = [] := by
  have abstract : classBecameAbstract c c = false := by
    cases h : c.modifiers.isAbstract <;> simp [classBecameAbstract, h]
  simp [modifierFindings, finding, staticChanged, becameFinal, lostFinal, abstract]

end Same

section Members

variable {p : Place}

/-- What two callables of one key may differ in is none of these. -/
theorem avoids_differences_compareCallable (old new : Snapshot) (label : String) (a b : Callable) :
    Avoids (· ∈ differences) (compareCallable old new label a b) := by
  simp [compareCallable, Avoids.append_iff, avoids_finding_iff, Avoids.map_iff, differences]

theorem avoids_differences_compareMethod (old new : Place) (m n : Method) :
    Avoids (· ∈ differences) (compareMethod old new m n) := by
  have common := avoids_differences_compareCallable old.snapshot new.snapshot
    (methodLabel old.decl m) m.toCallable n.toCallable
  simp only [compareMethod, Avoids.append_iff, common, and_true]
  simp [avoids_finding_iff, differences]

theorem avoids_differences_compareField (old new : Place) (x y : Field) :
    Avoids (· ∈ differences) (compareField old new x y) := by
  simp [compareField, Avoids.append_iff, avoids_finding_iff, differences]

theorem exists_constructor?_key {a : Constructor} (h : a ∈ p.decl.constructors) :
    ∃ b, p.constructor? (a.key p.scope) = some b ∧ (p.Unambiguous → b = a) := by
  obtain ⟨b, found, same⟩ := exists_find?_key_reverse (Callable.key p.scope) h
  exact ⟨b, found, fun unambiguous => same unambiguous.constructors⟩

theorem exists_method?_key {m : Method} (h : m ∈ p.decl.methods) :
    ∃ n, p.method? (m.key p.scope) = some n ∧ (p.Unambiguous → n = m) := by
  obtain ⟨n, found, same⟩ := exists_find?_key_reverse (fun m : Method => m.key p.scope) h
  exact ⟨n, found, fun unambiguous => same unambiguous.methods⟩

theorem exists_field?_name {x : Field} (h : x ∈ p.decl.fields) :
    ∃ y, p.decl.field? x.name = some y ∧ (p.Unambiguous → y = x) := by
  obtain ⟨y, found, same⟩ := exists_find?_key Field.name h
  exact ⟨y, found, fun unambiguous => same unambiguous.fields⟩

theorem addedConstructor_self {a : Constructor} (h : a ∈ p.decl.constructors) :
    addedConstructor p p a = [] := by
  obtain ⟨b, found, _⟩ := exists_constructor?_key h
  simp [addedConstructor, finding, found]

theorem addedMethod_self {m : Method} (h : m ∈ p.decl.methods) : addedMethod p p m = [] := by
  obtain ⟨n, found, _⟩ := exists_method?_key h
  simp [addedMethod, found]

theorem addedField_self {x : Field} (h : x ∈ p.decl.fields) : addedField p p x = [] := by
  obtain ⟨y, found, _⟩ := exists_field?_name h
  simp [addedField, finding, found]

/-- Of the findings on the members of a class compared with itself, none is an addition. -/
theorem memberFindings_self (p : Place) : memberFindings p p =
    (exportedConstructors p.decl).flatMap (constructorFindings p p) ++
      (exportedMethods p.decl).flatMap (methodFindings p p) ++
      (exportedFields p.decl).flatMap (fieldFindings p p) := by
  have constructors : (exportedConstructors p.decl).flatMap (addedConstructor p p) = [] :=
    List.flatMap_eq_nil_iff.mpr fun a ha => addedConstructor_self (List.mem_of_mem_filter ha)
  have methods : (exportedMethods p.decl).flatMap (addedMethod p p) = [] :=
    List.flatMap_eq_nil_iff.mpr fun m hm => addedMethod_self (List.mem_of_mem_filter hm)
  have fields : (exportedFields p.decl).flatMap (addedField p p) = [] :=
    List.flatMap_eq_nil_iff.mpr fun x hx => addedField_self (List.mem_of_mem_filter hx)
  rw [memberFindings, constructors, methods, fields, List.append_nil, List.append_nil,
    List.append_nil]

/-- A member that is compared with another one of its key may have findings, no other one has. -/
theorem mem_flatMap_compared {α : Type} {list : List α} {findings : α → List Finding}
    {compared : α → α → List Finding}
    (counterpart : ∀ a ∈ list, ∃ b, findings a = compared a b ∧ (p.Unambiguous → b = a))
    (avoids : ∀ a b, Avoids (· ∈ differences) (compared a b)) (self : ∀ a, compared a a = [])
    {f : Finding} (hf : f ∈ list.flatMap findings) : f.category ∉ differences ∧ ¬p.Unambiguous := by
  obtain ⟨a, ha, hf⟩ := List.mem_flatMap.mp hf
  obtain ⟨b, eq, same⟩ := counterpart a ha
  rw [eq] at hf
  refine ⟨avoids a b f hf, ?_⟩
  intro unambiguous
  rw [same unambiguous, self] at hf
  cases hf

theorem mem_memberFindings_self {f : Finding} (hf : f ∈ memberFindings p p) :
    f.category ∉ differences ∧ ¬p.Unambiguous := by
  rw [memberFindings_self, List.mem_append, List.mem_append] at hf
  rcases hf with (hf | hf) | hf
  · refine mem_flatMap_compared ?_ (fun a => avoids_differences_compareCallable p.snapshot
      p.snapshot (constructorLabel p.decl a) a) (fun a => compareCallable_self _ _ a) hf
    intro a ha
    obtain ⟨b, found, same⟩ := exists_constructor?_key (List.mem_of_mem_filter ha)
    exact ⟨b, by simp only [constructorFindings, found], same⟩
  · refine mem_flatMap_compared ?_ (avoids_differences_compareMethod p p) (compareMethod_self p) hf
    intro m hm
    obtain ⟨n, found, same⟩ := exists_method?_key (List.mem_of_mem_filter hm)
    exact ⟨n, by simp only [methodFindings, found], same⟩
  · refine mem_flatMap_compared ?_ (avoids_differences_compareField p p) (compareField_self p) hf
    intro x hx
    obtain ⟨y, found, same⟩ := exists_field?_name (List.mem_of_mem_filter hx)
    exact ⟨y, by simp only [fieldFindings, found], same⟩

end Members

section Classes

variable {p : Place}

theorem superclassRef_mem_chain (here : p.snapshot.class? p.id = some p.decl) {ref : ClassRef}
    (h : p.decl.superclass = some ref) :
    p.snapshot.nameOfRef ref ∈ p.snapshot.superclassChain p.id := by
  have direct : p.snapshot.superclassRef? p.id = some ref := by
    rw [Snapshot.superclassRef?, here]
    exact h
  refine List.mem_filterMap.mpr ⟨p.id, List.mem_cons_self, ?_⟩
  rw [direct]
  rfl

theorem interface_mem_supertypeNames (wf : p.snapshot.WellFormed)
    (here : p.snapshot.class? p.id = some p.decl) {ref : ClassRef} (h : ref ∈ p.decl.interfaces) :
    p.snapshot.nameOfRef ref ∈ p.snapshot.supertypeNames p.id ∨ ¬p.Unambiguous := by
  have href : ref ∈ p.snapshot.supertypeRefs p.id :=
    Snapshot.mem_supertypeRefs_iff.mpr ⟨p.decl, here, List.mem_append_right _ h⟩
  rcases Snapshot.nameOfRef_mem_supertypeNames wf.closed .refl href with above | rfl
  · exact .inl above
  · exact .inr fun unambiguous => unambiguous.interfaces h

theorem mem_supertypeFindings_self (wf : p.snapshot.WellFormed)
    (here : p.snapshot.class? p.id = some p.decl) {f : Finding}
    (hf : f ∈ supertypeFindings p p) : f.category ∉ differences ∧ ¬p.Unambiguous := by
  simp only [supertypeFindings, List.mem_append, List.mem_flatMap, List.mem_map,
    mem_finding_iff] at hf
  rcases hf with (⟨lost, _⟩ | ⟨_, ⟨ref, href, rfl⟩, missing, rfl⟩) |
    ⟨_, ⟨ref, href, rfl⟩, missing, rfl⟩
  · cases super : p.decl.superclass with
    | none => simp [super] at lost
    | some ref =>
      have direct := superclassRef_mem_chain here super
      simp [super, direct] at lost
  · refine ⟨by simp [differences], (interface_mem_supertypeNames wf here href).resolve_left ?_⟩
    simpa using missing
  · refine ⟨by simp [differences], (interface_mem_supertypeNames wf here href).resolve_left ?_⟩
    simpa using missing

theorem mem_compareClass_self (wf : p.snapshot.WellFormed)
    (here : p.snapshot.class? p.id = some p.decl) {f : Finding}
    (hf : f ∈ compareClass p p) : f.category ∉ differences ∧ ¬p.Unambiguous := by
  rw [compareClass, standingFindings_self, modifierFindings_self, List.nil_append] at hf
  split at hf
  · rcases List.mem_append.mp hf with hf | hf
    · exact mem_supertypeFindings_self wf here hf
    · exact mem_memberFindings_self hf
  · cases hf

end Classes

section Snapshots

variable {s : Snapshot}

theorem addedClass_self (wf : s.WellFormed) {id : ClassId} {place : Place}
    (h : Place.of? s id = some place) : addedClass s place = [] := by
  obtain ⟨c, hc, rfl⟩ := Option.map_eq_some_iff.mp h
  simp [addedClass, finding, wf.find?_qualifiedName hc]

theorem obligationFindings_self (wf : s.WellFormed) {id : ClassId} {c : ClassDecl}
    (hc : s.class? id = some c) :
    obligationFindings s ⟨s, id, c⟩ = compareClass ⟨s, id, c⟩ ⟨s, id, c⟩ := by
  have found : counterpart? s c = some ⟨s, id, c⟩ := by
    rw [counterpart?, wf.find?_qualifiedName hc, Option.bind_some, Place.of?, hc]
    rfl
  simp only [obligationFindings, found]

theorem package?_isSome {p : Package} (hp : p ∈ s.packages) : (s.package? p.name).isSome :=
  Snapshot.package?_isSome_iff.mpr (List.mem_map_of_mem hp)

theorem packageFindings_self (wf : s.WellFormed) {p : Package} (hp : p ∈ s.packages) :
    packageFindings s s p =
      (obligations s s p).flatMap fun place => compareClass place place := by
  obtain ⟨q, hq⟩ := Option.isSome_iff_exists.mp (package?_isSome hp)
  have added : (q.classes.filterMap (Place.of? s)).flatMap (addedClass s) = [] := by
    refine List.flatMap_eq_nil_iff.mpr ?_
    intro place hplace
    obtain ⟨id, _, hid⟩ := List.mem_filterMap.mp hplace
    exact addedClass_self wf hid
  simp only [packageFindings, hq, added, List.append_nil]
  refine List.flatMap_congr fun place hplace => ?_
  obtain ⟨id, _, c, hc, _, rfl⟩ := mem_obligations_iff.mp hplace
  exact obligationFindings_self wf hc

/-- Every package and every class finds itself. -/
theorem compare_self (wf : s.WellFormed) : compare s s = s.packages.flatMap fun p =>
    (obligations s s p).flatMap fun place => compareClass place place := by
  have added : s.packages.flatMap (addedPackage s) = [] := by
    refine List.flatMap_eq_nil_iff.mpr ?_
    intro q hq
    have present : (s.package? q.name).isNone = false := by
      rw [← Option.not_isSome, package?_isSome hq]
      rfl
    rw [addedPackage, present]
    rfl
  rw [compare, added, List.append_nil]
  exact List.flatMap_congr fun p hp => packageFindings_self wf hp

theorem mem_compare_self (wf : s.WellFormed) {f : Finding} (hf : f ∈ compare s s) :
    f.category ∉ differences ∧ ¬AllUnambiguous s := by
  rw [compare_self wf] at hf
  obtain ⟨package, _, hf⟩ := List.mem_flatMap.mp hf
  obtain ⟨place, hplace, hf⟩ := List.mem_flatMap.mp hf
  obtain ⟨id, _, c, hc, _, rfl⟩ := mem_obligations_iff.mp hplace
  obtain ⟨category, ambiguous⟩ := mem_compareClass_self wf hc hf
  exact ⟨category, fun all => ambiguous (all id c hc)⟩

/-- A loaded snapshot, linked or not, has no difference from itself, and no change at all where
its members are told apart. -/
theorem check_self {document : List UInt8} {loaded s : Snapshot}
    (accepted : Snapshot.load document = .ok loaded) (state : s = loaded ∨ s = loaded.resolve) :
    (∀ f ∈ compare s s, f.category ∉ differences) ∧
      (∀ table, ∀ d ∈ (check table s s).kept, d.category ∉ differences) ∧
      (AllUnambiguous s → ∀ table, (check table s s).kept = [] ∧
        (check table s s).suppressed = 0 ∧ (check table s s).hadError = false) := by
  have loadedWf := Snapshot.WellFormed.of_load accepted
  have wf : s.WellFormed := by
    rcases state with rfl | rfl
    · exact loadedWf
    · exact loadedWf.resolve
  refine ⟨fun f hf => (mem_compare_self wf hf).1, ?_, ?_⟩
  · intro table d hd
    rw [check, Log.kept_recordAll] at hd
    obtain ⟨f, hf, hdiagnosed⟩ := List.mem_filterMap.mp hd
    unfold SeverityTable.diagnose? at hdiagnosed
    split at hdiagnosed
    · cases hdiagnosed
    · cases hdiagnosed
      exact (mem_compare_self wf hf).1
  · intro unambiguous table
    have empty : compare s s = [] :=
      List.eq_nil_iff_forall_not_mem.mpr fun f hf => (mem_compare_self wf hf).2 unambiguous
    rw [check, empty]
    exact ⟨rfl, rfl, rfl⟩

end Snapshots

/-- A class with a method below another class. -/
def twoLevels : List UInt8 :=
  ("<api><package name='p'><class name='C'/><class name='D' extends='p.C' visibility='public'>" ++
    "<method name='m' return='int' visibility='public'/></class></package></api>").toUTF8.toList

def twoLevelsSnapshot : Snapshot := (Snapshot.load twoLevels).toOption.getD .empty

theorem load_twoLevels : Snapshot.load twoLevels = .ok twoLevelsSnapshot := by
  have accepted : (Snapshot.load twoLevels).toBool = true := by decide +kernel
  unfold twoLevelsSnapshot
  cases loaded : Snapshot.load twoLevels with
  | error e => simp [loaded, Except.toBool] at accepted
  | ok s => rfl

theorem check_self_twoLevels :
    (check .default twoLevelsSnapshot.resolve twoLevelsSnapshot.resolve).kept = [] ∧
      (check .default twoLevelsSnapshot.resolve twoLevelsSnapshot.resolve).suppressed = 0 ∧
      (check .default twoLevelsSnapshot.resolve twoLevelsSnapshot.resolve).hadError = false := by
  have unambiguous : AllUnambiguous twoLevelsSnapshot.resolve := by decide +kernel
  exact (check_self load_twoLevels (.inr rfl)).2.2 unambiguous .default

end ApiCompat.Compatibility
