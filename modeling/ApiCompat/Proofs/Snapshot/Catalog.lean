import ApiCompat.Proofs.Snapshot.Soundness
import Mathlib.Data.List.Induction
import Std.Data.HashMap.Lemmas

/-! Catalogs stay consistent. The tables of a catalog are those of its lists of names, so looking up
in a table is searching the list; every operation preserves this, together with the soundness of
the snapshot, and a refused class changes nothing. -/
namespace ApiCompat

section Tables

variable {table : Std.HashMap String Nat} {names : List String}

/-- The table gives the place of each name in the list, and no other names. -/
def Tabulates (table : Std.HashMap String Nat) (names : List String) : Prop :=
  ∀ name, table[name]? = names.findIdx? (· == name)

namespace Tabulates

theorem empty : Tabulates ∅ [] := fun _ => Std.HashMap.getElem?_empty

theorem insert (h : Tabulates table names) {name : String} (fresh : name ∉ names) :
    Tabulates (table.insert name names.length) (names ++ [name]) := by
  intro other
  rw [Std.HashMap.getElem?_insert, List.findIdx?_append, h other]
  by_cases same : name = other
  · subst same
    have absent : names.findIdx? (· == name) = none := by
      rw [List.findIdx?_eq_none_iff]
      intro other inside
      exact beq_eq_false_iff_ne.mpr (ne_of_mem_of_not_mem inside fresh)
    simp [absent]
  · simp [same]

theorem isSome_iff (h : Tabulates table names) {name : String} :
    table[name]?.isSome = true ↔ name ∈ names := by
  simp [h name, List.findIdx?_isSome]

theorem tabulate (distinct : names.Nodup) : Tabulates (Catalog.tabulate names) names := by
  induction names using List.reverseRecOn with
  | nil => exact empty
  | append_singleton names name ih =>
    obtain ⟨distinct, _, apart⟩ := List.nodup_append.mp distinct
    have fresh : name ∉ names := fun inside => apart name inside name List.mem_cons_self rfl
    have entered : Catalog.tabulate (names ++ [name]) =
        (Catalog.tabulate names).insert name names.length := by
      simp [Catalog.tabulate, List.zipIdx_append]
    rw [entered]
    exact (ih distinct).insert fresh

end Tabulates

end Tables

namespace Catalog

theorem run_addPackage (g : Catalog) (name : String) (position : Option Position) :
    (addPackage name position).run g = match g.packageTable[name]? with
      | some place => (place, g)
      | none => (g.snapshot.packages.length,
        { g with
          snapshot.packages := g.snapshot.packages ++ [⟨name, position, []⟩]
          packageTable := g.packageTable.insert name g.snapshot.packages.length }) := by
  cases found : g.packageTable[name]? <;> simp [addPackage, found] <;> rfl

theorem run_addClass (g : Catalog) (place : Nat) (c : ClassDecl) :
    (addClass place c).run.run g = if g.classTable.contains c.qualifiedName then
      (.error (.duplicateClass c.qualifiedName), g)
    else (.ok g.classCount,
      { g with
        snapshot := g.snapshot.declare place c
        classTable := g.classTable.insert c.qualifiedName g.classCount }) := by
  rw [addClass]
  change (if g.classTable.contains c.qualifiedName then _ else _ :
    ExceptT LoadError (StateM Catalog) ClassId).run.run g = _
  split <;> rfl

/-- The tables give the places of the names in the lists. -/
structure InStep (g : Catalog) : Prop where
  sound : g.snapshot.Sound
  packageTable : Tabulates g.packageTable (g.snapshot.packages.map (·.name))
  classTable : Tabulates g.classTable (g.snapshot.classes.map (·.qualifiedName))

namespace InStep

variable {g : Catalog}

theorem find?_eq (h : g.InStep) (name : String) : g.find? name = g.snapshot.find? name := by
  rw [find?, h.classTable, Snapshot.find?_eq_findIdx?]

theorem package?_eq (h : g.InStep) (name : String) : g.package? name = g.snapshot.package? name := by
  rw [package?, h.packageTable, List.findIdx?_map, Snapshot.package?,
    List.find?_eq_bind_findIdx?_getElem?]
  rfl

theorem isSome_package? (h : g.InStep) (name : String) :
    (g.snapshot.package? name).isSome = g.packageTable[name]?.isSome := by
  rw [Bool.eq_iff_iff, Snapshot.package?_isSome_iff, h.packageTable.isSome_iff]

theorem empty : InStep .empty := ⟨.empty, .empty, .empty⟩

theorem ofSnapshot {s : Snapshot} (sound : s.Sound) : (Catalog.ofSnapshot s).InStep :=
  ⟨sound, .tabulate sound.packageNames, .tabulate sound.classNames⟩

theorem snapshot_addPackage (h : g.InStep) (name : String) (position : Option Position) :
    ((addPackage name position).run g).2.snapshot = g.snapshot.addPackage name position := by
  have same := h.isSome_package? name
  rw [run_addPackage, Snapshot.addPackage]
  cases found : g.packageTable[name]? with
  | some place => simp [same, found]
  | none => simp [same, found]

/-- An opened package is at the place that is answered. -/
theorem addPackage (h : g.InStep) (name : String) (position : Option Position) :
    ((addPackage name position).run g).2.InStep ∧
      ((addPackage name position).run g).1 <
        ((addPackage name position).run g).2.snapshot.packages.length := by
  have sound : ((Catalog.addPackage name position).run g).2.snapshot.Sound := by
    rw [h.snapshot_addPackage]
    exact h.sound.addPackage name position
  rw [run_addPackage] at sound ⊢
  cases found : g.packageTable[name]? with
  | some place =>
    rw [h.packageTable, findIdx?_beq_eq_some_iff h.sound.packageNames] at found
    have there := (List.getElem?_eq_some_iff.mp found).1
    rw [List.length_map] at there
    exact ⟨h, there⟩
  | none =>
    have fresh : name ∉ g.snapshot.packages.map (·.name) := by
      rw [← h.packageTable.isSome_iff, found]
      exact Bool.false_ne_true
    have entered := h.packageTable.insert fresh
    rw [List.length_map] at entered
    rw [found] at sound
    exact ⟨⟨sound, by simpa using entered, h.classTable⟩, by simp⟩

theorem addClass (h : g.InStep) {place : Nat} (there : place < g.snapshot.packages.length)
    {c : ClassDecl} (mentions : c.MentionsIn (· ∈ g.snapshot.ids)) :
    ((addClass place c).run.run g).2.InStep := by
  rw [run_addClass]
  split
  · exact h
  · rename_i absent
    have fresh : c.qualifiedName ∉ g.snapshot.classes.map (·.qualifiedName) := by
      rwa [← h.classTable.isSome_iff, ← Std.HashMap.contains_eq_isSome_getElem?]
    refine ⟨h.sound.declare there (by simpa using fresh) mentions, ?_, ?_⟩
    · exact Snapshot.packageNames_declare g.snapshot place c ▸ h.packageTable
    · have entered := h.classTable.insert fresh
      rw [List.length_map] at entered
      simpa [Snapshot.declare, classCount] using entered

end InStep

theorem packages_le_addPackage (g : Catalog) (name : String) (position : Option Position) :
    g.snapshot.packages.length ≤
      ((addPackage name position).run g).2.snapshot.packages.length := by
  rw [run_addPackage]
  cases g.packageTable[name]? <;> simp

theorem packages_addClass (g : Catalog) (place : Nat) (c : ClassDecl) :
    ((addClass place c).run.run g).2.snapshot.packages.length = g.snapshot.packages.length := by
  rw [run_addClass]
  split
  · rfl
  · exact List.length_modify _ _ _

/-- The catalogs that operations lead to, from nothing or from what was loaded, together with the
places of packages that were answered on the way. -/
inductive Reachable : Catalog → List Nat → Prop where
  | empty : Reachable .empty []
  | load {document : List UInt8} {s : Snapshot} (loaded : Snapshot.load document = .ok s) :
      Reachable (.ofSnapshot s) []
  | addPackage {g : Catalog} {places : List Nat} (before : Reachable g places) (name : String)
      (position : Option Position) : Reachable ((addPackage name position).run g).2
        (((addPackage name position).run g).1 :: places)
  | addClass {g : Catalog} {places : List Nat} (before : Reachable g places) {place : Nat}
      (answered : place ∈ places) {c : ClassDecl} (unlinked : c.Unlinked)
      (declared : ∀ id, c.outer = some id → id < g.classCount) :
      Reachable ((addClass place c).run.run g).2 places
  | resolve {g : Catalog} {places : List Nat} (before : Reachable g places) :
      Reachable g.resolve places
  | edit {g : Catalog} {places : List Nat} (before : Reachable g places) (id : ClassId) {e : Edit}
      (declared : ∀ outer, e = .outer (some outer) → outer < g.classCount) :
      Reachable (g.edit id e) places

/-- Lists, tables and mentioned numbers agree. -/
structure Consistent (g : Catalog) : Prop where
  packageNames : (g.snapshot.packages.map (·.name)).Nodup
  package? : ∀ name p, g.package? name = some p ↔ p ∈ g.snapshot.packages ∧ p.name = name
  classNames : (g.snapshot.classes.map (·.qualifiedName)).Nodup
  find? : ∀ name id, g.find? name = some id ↔
    ∃ c, g.snapshot.class? id = some c ∧ c.qualifiedName = name
  listing : (g.snapshot.packages.flatMap (·.classes)).Perm (List.range g.classCount)
  ordered : ∀ p ∈ g.snapshot.packages, p.classes.Pairwise (· < ·)
  mentions : ∀ c ∈ g.snapshot.classes, c.MentionsIn (· < g.classCount)

section Reached

variable {g : Catalog} {places : List Nat}

theorem InStep.consistent (h : g.InStep) : g.Consistent where
  packageNames := h.sound.packageNames
  package? := by
    intro name p
    rw [Catalog.package?, h.packageTable, Option.bind_eq_some_iff]
    simp only [findIdx?_beq_eq_some_iff h.sound.packageNames, List.getElem?_map,
      Option.map_eq_some_iff]
    constructor
    · rintro ⟨place, ⟨q, hq, named⟩, hp⟩
      cases hq.symm.trans hp
      exact ⟨List.mem_of_getElem? hp, named⟩
    · rintro ⟨hp, named⟩
      obtain ⟨place, hp⟩ := List.mem_iff_getElem?.mp hp
      exact ⟨place, ⟨p, hp, named⟩, hp⟩
  classNames := h.sound.classNames
  find? := by
    intro name id
    rw [Catalog.find?, h.classTable, findIdx?_beq_eq_some_iff h.sound.classNames,
      List.getElem?_map, Option.map_eq_some_iff]
    rfl
  listing := h.sound.listing
  ordered := h.sound.ordered
  mentions := by
    intro c hc
    exact (h.sound.mentions c hc).mono fun _ => Snapshot.mem_ids.mp

theorem inStep_of_reachable (reached : Reachable g places) :
    g.InStep ∧ ∀ place ∈ places, place < g.snapshot.packages.length := by
  induction reached with
  | empty => exact ⟨.empty, by simp⟩
  | load loaded => exact ⟨.ofSnapshot (.of_load loaded), by simp⟩
  | addPackage before name position ih =>
    obtain ⟨kept, answered⟩ := ih.1.addPackage name position
    refine ⟨kept, List.forall_mem_cons.mpr ⟨answered, fun place hplace => ?_⟩⟩
    exact Nat.lt_of_lt_of_le (ih.2 place hplace) (packages_le_addPackage _ name position)
  | @addClass g places before place answered c unlinked declared ih =>
    have mentions : c.MentionsIn (· ∈ g.snapshot.ids) := by
      refine ⟨unlinked.mono fun _ impossible => impossible.elim, fun id around => ?_⟩
      exact Snapshot.mem_ids.mpr (declared id around)
    refine ⟨ih.1.addClass (ih.2 place answered) mentions, ?_⟩
    rw [packages_addClass]
    exact ih.2
  | @resolve g places before ih =>
    obtain ⟨kept, inside⟩ := ih
    have names : g.snapshot.resolve.classes.map (·.qualifiedName) =
        g.snapshot.classes.map (·.qualifiedName) :=
      Snapshot.names_of_class? (Snapshot.class?_resolve g.snapshot) fun _ _ => rfl
    exact ⟨⟨kept.sound.resolve, kept.packageTable, names ▸ kept.classTable⟩, inside⟩
  | @edit g places before id e declared ih =>
    obtain ⟨kept, inside⟩ := ih
    have names := Snapshot.map_update g.snapshot id (Edit.qualifiedName_apply e)
    refine ⟨⟨kept.sound.edit id ?_, kept.packageTable, names ▸ kept.classTable⟩, inside⟩
    intro outer same
    exact Snapshot.mem_ids.mpr (declared outer same)

/-- Whatever the operations, lists, tables and mentioned numbers agree; and a class that is refused
leaves the catalog as it was. -/
theorem consistent_of_reachable (reached : Reachable g places) :
    g.Consistent ∧ ∀ place c e after, (addClass place c).run.run g = (.error e, after) →
      e = .duplicateClass c.qualifiedName ∧ (∃ id, g.find? c.qualifiedName = some id) ∧ after = g := by
  refine ⟨(inStep_of_reachable reached).1.consistent, ?_⟩
  intro place c e after refused
  rw [run_addClass] at refused
  split at refused
  · rename_i known
    cases refused
    refine ⟨rfl, ?_, rfl⟩
    rw [Std.HashMap.contains_eq_isSome_getElem?] at known
    exact Option.isSome_iff_exists.mp known
  · cases refused

/-- A package with a class that extends itself. -/
def circle : Catalog :=
  let c := ClassDecl.bare "p" "C" .plain
  let declared : Catalog := ⟨⟨[⟨"p", none, [0]⟩], [c]⟩, .insert ∅ "p" 0, .insert ∅ c.qualifiedName 0⟩
  (declared.edit 0 (.superclass "p.C")).resolve

theorem unlinked_bare (package name : String) (kind : ClassKind) :
    (ClassDecl.bare package name kind).Unlinked where
  refs := by intro id linked; cases linked
  types := by intro s inside; cases inside

theorem consistent_of_reachable_circle : Reachable circle [0] ∧ circle.Consistent ∧
    (addClass 0 (.bare "p" "C" .interface)).run.run circle =
      (.error (.duplicateClass "p.C"), circle) := by
  have opened : Reachable ⟨⟨[⟨"p", none, []⟩], []⟩, .insert ∅ "p" 0, ∅⟩ [0] := by
    have opened := Reachable.addPackage .empty "p" none
    simpa [run_addPackage, empty, Snapshot.empty] using opened
  have declared := opened.addClass List.mem_cons_self (unlinked_bare "p" "C" .plain)
    (by intro id around; cases around)
  have reached : Reachable circle [0] := by
    refine .resolve (.edit (e := .superclass "p.C") ?_ 0 ?_)
    · simpa [run_addClass, Snapshot.declare, classCount] using declared
    · intro outer same
      cases same
  have known : circle.classTable.contains "p.C" = true := Std.HashMap.contains_insert_self
  have run := run_addClass circle 0 (.bare "p" "C" .interface)
  rw [show (ClassDecl.bare "p" "C" .interface).qualifiedName = "p.C" by decide, if_pos known] at run
  exact ⟨reached, (consistent_of_reachable reached).1, run⟩

/-- The operations do on lists and tables what is done on the lists alone. -/
theorem agrees_of_reachable (reached : Reachable g places) :
    (∀ name, g.find? name = g.snapshot.find? name) ∧
    (∀ name, g.package? name = g.snapshot.package? name) ∧
    (∀ name position, ((addPackage name position).run g).2.snapshot =
      g.snapshot.addPackage name position) ∧
    ∀ place p c, g.snapshot.packages[place]? = some p → p.name = c.package →
      g.snapshot.addClass? c = match (addClass place c).run.run g with
        | (.ok id, after) => some (id, after.snapshot)
        | (.error _, _) => none := by
  have kept := (inStep_of_reachable reached).1
  refine ⟨kept.find?_eq, kept.package?_eq, kept.snapshot_addPackage, ?_⟩
  intro place p c there home
  have entered := Snapshot.declare_eq_of_package kept.sound.packageNames there home
  have same : g.classTable.contains c.qualifiedName = (g.snapshot.find? c.qualifiedName).isSome := by
    rw [Std.HashMap.contains_eq_isSome_getElem?]
    exact congrArg Option.isSome (kept.find?_eq c.qualifiedName)
  rw [run_addClass, same, Snapshot.addClass?]
  split
  · rfl
  · rw [entered]
    rfl

end Reached

end Catalog

end ApiCompat
