import ApiCompat.Compatibility.Comparison

/-! What compatibility means, said without the comparison. The clauses speak of declarations,
keys, superclass chains and supertype names; no finding, category or rule occurs in them. -/
namespace ApiCompat.Compatibility

def LastWith {α : Type} (p : α → Prop) (list : List α) (a : α) : Prop :=
  ∃ before after, list = before ++ a :: after ∧ p a ∧ ∀ b ∈ after, ¬p b

def FirstWith {α : Type} (p : α → Prop) (list : List α) (a : α) : Prop :=
  ∃ before after, list = before ++ a :: after ∧ p a ∧ ∀ b ∈ before, ¬p b

namespace Place

def DeclaresMethod (p : Place) (key : String) : Method → Prop :=
  LastWith (fun m => m.key p.scope = key) p.decl.methods

def DeclaresConstructor (p : Place) (key : String) : Constructor → Prop :=
  LastWith (fun c => c.key p.scope = key) p.decl.constructors

def DeclaresField (p : Place) (name : String) : Field → Prop :=
  FirstWith (fun f => f.name = name) p.decl.fields

end Place

/-- A class that clients of the old snapshot rely on. -/
structure Obligation (old new : Snapshot) (id : ClassId) : Prop where
  exported : isExported old id = true
  reachable : ∀ outer ∈ old.enclosing id, isExported old outer = true
  retained : ∀ outer ∈ old.enclosing id, ∀ found, new.find? (old.nameOf outer) = some found →
    isExported new found = true

/-- Clients can create or extend the class. -/
def Creatable (c : ClassDecl) : Prop :=
  c.isInterface = false ∧ ∃ k ∈ c.constructors, k.modifiers.visibility.exported = true

structure AccessKept (m n : Modifiers) : Prop where
  visibility : m.visibility.rank ≤ n.visibility.rank
  static : m.isStatic = n.isStatic

structure MethodKept (old new : Place) (a b : Method) : Prop where
  access : AccessKept a.modifiers b.modifiers
  returnType : a.returnType.canonical (a.scope old.scope) =
    b.returnType.canonical (b.scope new.scope)
  implemented : b.mustBeImplemented new.decl.isInterface = true →
    a.mustBeImplemented old.decl.isInterface = true
  overridable : b.modifiers.isFinal = true →
    a.modifiers.isFinal = true ∨ old.decl.modifiers.isFinal = true ∨ a.modifiers.isStatic = true

structure FieldKept (old new : Place) (a b : Field) : Prop where
  access : AccessKept a.modifiers b.modifiers
  type : a.type.canonical old.scope = b.type.canonical new.scope
  assignable : b.modifiers.isFinal = true → a.modifiers.isFinal = true
  constant : ∀ x y, a.value = some x → b.value = some y →
    a.modifiers.isStatic = true → a.modifiers.isFinal = true →
    b.modifiers.isStatic = true → b.modifiers.isFinal = true → x = y

/-- The new class answers for the old one. -/
structure ClassKept (old new : Place) : Prop where
  shape : old.decl.isInterface = new.decl.isInterface
  access : AccessKept old.decl.modifiers new.decl.modifiers
  extensible : Creatable old.decl →
    new.decl.modifiers.isFinal = true → old.decl.modifiers.isFinal = true
  concrete : Creatable old.decl →
    new.decl.modifiers.isAbstract = true → old.decl.modifiers.isAbstract = true
  superclass : ∀ ref, old.decl.superclass = some ref → old.decl.isInterface = false →
    old.snapshot.nameOfRef ref ≠ Signature.rootClass →
    old.snapshot.nameOfRef ref ∈ new.snapshot.superclassChain new.id
  interfaces : ∀ ref ∈ old.decl.interfaces,
    old.snapshot.nameOfRef ref ∈ new.snapshot.supertypeNames new.id
  constructors : ∀ a ∈ old.decl.constructors, a.modifiers.visibility.exported = true →
    ∃ b, new.DeclaresConstructor (a.key old.scope) b ∧ AccessKept a.modifiers b.modifiers
  methods : ∀ a ∈ old.decl.methods, a.modifiers.visibility.exported = true →
    (∃ b, new.DeclaresMethod (a.key old.scope) b ∧ MethodKept old new a b) ∨
    (∀ b ∈ new.decl.methods, b.key new.scope ≠ a.key old.scope) ∧
      ∃ p ∈ new.ancestors, ∃ b, p.DeclaresMethod (a.key old.scope) b ∧
        b.modifiers.visibility.exported = true
  demands : ∀ b ∈ new.decl.methods, b.modifiers.visibility.exported = true →
    b.mustBeImplemented new.decl.isInterface = true →
    (old.decl.isInterface = true ∨ Creatable old.decl) →
    (∃ a ∈ old.decl.methods, a.key old.scope = b.key new.scope) ∨
    ∃ p ∈ old.ancestors, ∃ a ∈ p.decl.methods, a.key p.scope = b.key new.scope
  fields : ∀ a ∈ old.decl.fields, a.modifiers.visibility.exported = true →
    (∃ b, new.DeclaresField a.name b ∧ FieldKept old new a b) ∨
    (∀ b ∈ new.decl.fields, b.name ≠ a.name) ∧
      ∃ p ∈ new.ancestors, ∃ b, p.DeclaresField a.name b ∧ b.modifiers.visibility.exported = true

/-- The new snapshot keeps what clients of the old one rely on. -/
structure Compatible (old new : Snapshot) : Prop where
  packages : ∀ p ∈ old.packages, ∃ q ∈ new.packages, q.name = p.name
  classes : ∀ id c, old.class? id = some c → Obligation old new id →
    ∃ id' d, new.class? id' = some d ∧ d.qualifiedName = c.qualifiedName ∧
      ClassKept ⟨old, id, c⟩ ⟨new, id', d⟩

section Lookups

variable {α : Type} {p : α → Bool} {list : List α}

theorem find?_reverse_eq_some_iff {a : α} :
    list.reverse.find? p = some a ↔ LastWith (fun b => p b = true) list a := by
  rw [List.find?_eq_some_iff_append]
  constructor
  · rintro ⟨ha, before, after, hlist, hbefore⟩
    refine ⟨after.reverse, before.reverse, ?_, ha, ?_⟩
    · simpa using congrArg List.reverse hlist
    · intro b hb
      simpa using hbefore b (List.mem_reverse.mp hb)
  · rintro ⟨before, after, rfl, ha, hafter⟩
    refine ⟨ha, after.reverse, before.reverse, by simp, ?_⟩
    intro b hb
    simpa using hafter b (List.mem_reverse.mp hb)

theorem find?_eq_some_iff_firstWith {a : α} :
    list.find? p = some a ↔ FirstWith (fun b => p b = true) list a := by
  rw [List.find?_eq_some_iff_append]
  constructor
  · rintro ⟨ha, before, after, hlist, hbefore⟩
    exact ⟨before, after, hlist, ha, by simpa using hbefore⟩
  · rintro ⟨before, after, hlist, ha, hbefore⟩
    exact ⟨ha, before, after, hlist, by simpa using hbefore⟩

theorem LastWith.mem {p : α → Prop} {a : α} (last : LastWith p list a) : a ∈ list ∧ p a := by
  obtain ⟨before, after, rfl, holds, _⟩ := last
  exact ⟨by simp, holds⟩

theorem FirstWith.mem {p : α → Prop} {a : α} (first : FirstWith p list a) : a ∈ list ∧ p a := by
  obtain ⟨before, after, rfl, holds, _⟩ := first
  exact ⟨by simp, holds⟩

end Lookups

namespace Place

theorem method?_eq_some_iff {p : Place} {key : String} {m : Method} :
    p.method? key = some m ↔ p.DeclaresMethod key m := by
  rw [method?, find?_reverse_eq_some_iff, DeclaresMethod]
  simp only [beq_iff_eq]

theorem method?_eq_none_iff {p : Place} {key : String} :
    p.method? key = none ↔ ∀ m ∈ p.decl.methods, m.key p.scope ≠ key := by
  simp only [method?, List.find?_eq_none, List.mem_reverse, beq_iff_eq, ne_eq]

theorem constructor?_eq_some_iff {p : Place} {key : String} {c : Constructor} :
    p.constructor? key = some c ↔ p.DeclaresConstructor key c := by
  rw [constructor?, find?_reverse_eq_some_iff, DeclaresConstructor]
  simp only [beq_iff_eq]

theorem field?_eq_some_iff {p : Place} {name : String} {f : Field} :
    p.decl.field? name = some f ↔ p.DeclaresField name f := by
  rw [ClassDecl.field?, find?_eq_some_iff_firstWith, DeclaresField]
  simp only [beq_iff_eq]

theorem field?_eq_none_iff {p : Place} {name : String} :
    p.decl.field? name = none ↔ ∀ f ∈ p.decl.fields, f.name ≠ name := by
  simp only [ClassDecl.field?, List.find?_eq_none, beq_iff_eq, ne_eq]

theorem inheritsMethod_iff {p : Place} {key : String} :
    p.inheritsMethod key = true ↔ ∃ a ∈ p.ancestors, ∃ m ∈ a.decl.methods, m.key a.scope = key := by
  simp [inheritsMethod, method?]

theorem inheritsExportedMethod_iff {p : Place} {key : String} :
    p.inheritsExportedMethod key = true ↔ ∃ a ∈ p.ancestors, ∃ m, a.DeclaresMethod key m ∧
      m.modifiers.visibility.exported = true := by
  simp only [inheritsExportedMethod, List.any_eq_true, Option.any_eq_true, method?_eq_some_iff]

theorem inheritsExportedField_iff {p : Place} {name : String} :
    p.inheritsExportedField name = true ↔ ∃ a ∈ p.ancestors, ∃ f, a.DeclaresField name f ∧
      f.modifiers.visibility.exported = true := by
  simp only [inheritsExportedField, List.any_eq_true, Option.any_eq_true, field?_eq_some_iff]

end Place

theorem instantiable_iff {c : ClassDecl} : instantiable c = true ↔ Creatable c := by
  simp [instantiable, Creatable, ClassDecl.hasExportedConstructor]

theorem isObligation_iff {old new : Snapshot} {id : ClassId} :
    isObligation old new id = true ↔ Obligation old new id := by
  simp only [isObligation, enclosedByUnexported, outerWithdrawn, Bool.and_eq_true,
    Bool.not_eq_true', List.any_eq_false, Bool.not_eq_false, Option.any_eq_true, not_exists,
    not_and]
  constructor
  · rintro ⟨⟨exported, reachable⟩, retained⟩
    exact ⟨exported, by simpa using reachable, by simpa using retained⟩
  · rintro ⟨exported, reachable, retained⟩
    exact ⟨⟨exported, by simpa using reachable⟩, by simpa using retained⟩

end ApiCompat.Compatibility
