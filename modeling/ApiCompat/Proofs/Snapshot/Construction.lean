import ApiCompat.Proofs.Snapshot.Gathering

/-! What loading builds. The packages are those that the package elements announce, and each lists
its classes in the order of their numbers. With what a run gathers, a loaded snapshot is the one
that its document describes. -/
namespace ApiCompat

open Markup (Tag Element Event Spells)

theorem eraseDups_append_singleton {α : Type} [DecidableEq α] (list : List α) (a : α) :
    (list ++ [a]).eraseDups = list.eraseDups ++ if a ∈ list then [] else [a] := by
  rw [List.eraseDups_append]
  by_cases known : a ∈ list <;> simp [List.removeAll, List.eraseDups_cons, known]

namespace Snapshot

/-- The packages, without the classes that they list. -/
def places (s : Snapshot) : List (String × Option Position) :=
  s.packages.map fun p => (p.name, p.position)

theorem places_addClass? {s t : Snapshot} {c : ClassDecl} {id : ClassId}
    (added : s.addClass? c = some (id, t)) : t.places = s.places :=
  map_packages_addClass? (fun _ _ => rfl) added

/-- The packages are those that some elements announce, each as the first of its name does. -/
structure Announced (seen : List Element) (s : Snapshot) : Prop where
  names : s.packages.map (·.name) = (seen.filterMap (·.tag.attribute? "name")).eraseDups
  positions : ∀ p ∈ s.packages, ∃ first, seen.find? (fun e =>
    e.tag.attribute? "name" == some p.name) = some first ∧ p.position = first.tag.position

namespace Announced

variable {s t : Snapshot} {seen : List Element} {e : Element} {name : String}

theorem empty : Announced [] .empty where
  names := rfl
  positions := by rintro p ⟨⟩

theorem of_places (announced : Announced seen s) (same : t.places = s.places) :
    Announced seen t where
  names := by
    have names := congrArg (List.map (·.1)) same
    simp only [places, List.map_map] at names
    exact names.trans announced.names
  positions := by
    intro p hp
    have listed : (p.name, p.position) ∈ s.places := same ▸ List.mem_map_of_mem hp
    obtain ⟨q, hq, equal⟩ := List.mem_map.mp listed
    obtain ⟨name, position⟩ := Prod.mk.inj equal
    exact name ▸ position ▸ announced.positions q hq

theorem addPackage (announced : Announced seen s) (named : e.tag.attribute? "name" = some name) :
    Announced (seen ++ [e]) (s.addPackage name e.tag.position) := by
  have mem : name ∈ seen.filterMap (·.tag.attribute? "name") ↔ name ∈ s.packages.map (·.name) := by
    rw [announced.names, List.mem_eraseDups]
  have kept : ∀ p ∈ s.packages, ∃ first, (seen ++ [e]).find? (fun e =>
      e.tag.attribute? "name" == some p.name) = some first ∧ p.position = first.tag.position := by
    intro p hp
    obtain ⟨first, found, position⟩ := announced.positions p hp
    exact ⟨first, by rw [List.find?_append, found, Option.some_or], position⟩
  have listed : (seen ++ [e]).filterMap (·.tag.attribute? "name") =
      seen.filterMap (·.tag.attribute? "name") ++ [name] := by
    simp [List.filterMap_append, named]
  unfold Snapshot.addPackage
  split
  · rename_i present
    have known := mem.mpr (package?_isSome_iff.mp present)
    refine ⟨?_, kept⟩
    rw [listed, eraseDups_append_singleton, ← announced.names,
      if_pos known, List.append_nil]
  · rename_i absent
    have unknown := mt mem.mp (mt package?_isSome_iff.mpr absent)
    refine ⟨?_, ?_⟩
    · rw [listed, eraseDups_append_singleton, ← announced.names,
        if_neg unknown, List.map_append, List.map_singleton]
    · intro p hp
      rcases List.mem_append.mp hp with old | new
      · exact kept p old
      · cases List.mem_singleton.mp new
        have missing : seen.find? (fun e => e.tag.attribute? "name" == some name) = none := by
          simpa using unknown
        exact ⟨e, by simp [List.find?_append, missing, named], rfl⟩

end Announced

end Snapshot

namespace Builder

theorem Leaves.packages {b b' : Builder} (left : b.Leaves b') :
    b'.snapshot.packages = b.snapshot.packages := by
  cases left <;> rfl

theorem Enters.announced {b b' : Builder} {tag : Tag} (entered : b.Enters tag b')
    {seen : List Element} (announced : b.snapshot.Announced seen) (content : List Element) :
    b'.snapshot.Announced (seen ++ if tag.name = "package" then [⟨tag, content⟩] else []) := by
  cases entered with
  | package named read =>
    rw [if_pos named]
    exact announced.addPackage (e := ⟨tag, content⟩) read
  | declares opens _ _ _ _ _ added =>
    rw [if_neg (by rintro named; simp [Tag.opensClass, named] at opens), List.append_nil]
    exact announced.of_places (Snapshot.places_addClass? added)
  | opens _ _ opened =>
    rw [if_neg opened.ne.2, List.append_nil]
    exact announced
  | adds named =>
    rw [if_neg (by rcases named with named | named <;> simp [named]), List.append_nil]
    exact announced
  | implements named =>
    rw [if_neg (by simp [named]), List.append_nil]
    exact announced.of_places rfl
  | other unknown =>
    rw [if_neg (unknown "package" (by decide)), List.append_nil]
    exact announced

theorem Builds.announced {b b' : Builder} {forest : List Element} (builds : Builds b forest b')
    {seen : List Element} (announced : b.snapshot.Announced seen) :
    b'.snapshot.Announced (seen ++ Element.packages forest) := by
  induction builds generalizing seen with
  | nil => simpa [Element.packages, Element.within_nil] using announced
  | @element b entered inner b' tag content rest entering _ _ ihContent ihRest =>
    have inside := ihContent (entering.announced announced content)
    have left := inside.of_places (t := (inner.leave tag.name).snapshot)
      (by rw [Snapshot.places, (leaves_leave inner tag.name).packages, Snapshot.places])
    have whole := ihRest left
    rw [Element.packages, Element.within_cons, Element.within_node]
    simpa [Element.packages] using whole

end Builder

namespace Snapshot

/-- The packages that the classes are in. -/
def homes (s : Snapshot) : List String := s.classes.map (·.package)

def residents (s : Snapshot) (name : String) : List ClassId :=
  s.ids.filter fun id => (s.class? id).any (·.package == name)

theorem residents_eq (s : Snapshot) (name : String) :
    s.residents name = (List.range s.homes.length).filter (s.homes[·]? == some name) := by
  rw [residents, ids, homes, List.length_map]
  refine List.filter_congr fun id _ => ?_
  rw [List.getElem?_map, class?]
  cases s.classes[id]? <;> simp

theorem residents_append {s t : Snapshot} {c : ClassDecl} (appended : t.classes = s.classes ++ [c])
    (name : String) : t.residents name =
      s.residents name ++ if c.package = name then [s.classes.length] else [] := by
  have homes : t.homes = s.homes ++ [c.package] := by
    rw [Snapshot.homes, appended, List.map_append, List.map_singleton, Snapshot.homes]
  have length : s.homes.length = s.classes.length := List.length_map _
  rw [residents_eq, residents_eq, homes, List.length_append, List.length_singleton,
    List.range_succ, List.filter_append, List.filter_singleton, ← length]
  congr 1
  · refine List.filter_congr fun id earlier => ?_
    rw [List.getElem?_append_left (List.mem_range.mp earlier)]
  · simp

/-- Every package lists the classes that are in it, and no class is elsewhere. -/
structure Listed (s : Snapshot) : Prop where
  listing : ∀ p ∈ s.packages, p.classes = s.residents p.name
  declared : s.homes ⊆ s.packages.map (·.name)

namespace Listed

variable {s t : Snapshot} {c : ClassDecl} {id : ClassId}

theorem empty : Listed .empty where
  listing := by rintro p ⟨⟩
  declared := by rintro c ⟨⟩

theorem addPackage (listed : s.Listed) (name : String) (position : Option Position) :
    (s.addPackage name position).Listed := by
  unfold Snapshot.addPackage
  split
  · exact listed
  · rename_i absent
    refine ⟨?_, ?_⟩
    · intro p hp
      rcases List.mem_append.mp hp with old | new
      · exact listed.listing p old
      · cases List.mem_singleton.mp new
        have deserted : s.residents name = [] := by
          rw [residents_eq, List.filter_eq_nil_iff]
          intro id _ home
          have inside := List.mem_of_getElem? (eq_of_beq home)
          exact absent (package?_isSome_iff.mpr (listed.declared inside))
        exact deserted.symm
    · intro home h
      rw [List.map_append, List.mem_append]
      exact .inl (listed.declared h)

theorem addClass? (listed : s.Listed) (added : s.addClass? c = some (id, t))
    (inside : c.package ∈ s.packages.map (·.name)) : t.Listed := by
  have names := packageNames_addClass? added
  obtain ⟨number, appended⟩ := classes_addClass? added
  constructor
  · intro p hp
    rw [residents_append appended]
    unfold Snapshot.addClass? at added
    split at added
    · cases added
    · cases added
      obtain ⟨q, hq, rfl⟩ := List.mem_map.mp hp
      split
      · rename_i here
        rw [if_pos here.symm, listed.listing q hq]
      · rename_i other
        rw [if_neg (Ne.symm other), listed.listing q hq, List.append_nil]
  · intro home h
    rw [homes, appended, List.map_append, List.map_singleton, List.mem_append,
      List.mem_singleton] at h
    rw [names]
    rcases h with old | rfl
    · exact listed.declared old
    · exact inside

theorem update (listed : s.Listed) (id : ClassId) {change : ClassDecl → ClassDecl}
    (kept : ∀ c, (change c).package = c.package) : (s.update id change).Listed := by
  have homes : (s.update id change).homes = s.homes := map_update s id kept
  constructor
  · intro p hp
    rw [residents_eq, homes, ← residents_eq]
    exact listed.listing p hp
  · rw [homes]
    exact listed.declared

end Listed

end Snapshot

namespace Builder

theorem Enters.listed {b b' : Builder} {tag : Tag} (entered : b.Enters tag b') (wf : b.WellFormed)
    (listed : b.snapshot.Listed) : b'.snapshot.Listed := by
  cases entered with
  | package => exact listed.addPackage _ _
  | declares _ opened _ _ _ _ added =>
    exact listed.addClass? added (List.mem_map.mpr (wf.package _ opened))
  | opens => exact listed
  | adds => exact listed
  | implements => exact listed.update _ fun _ => rfl
  | other => exact listed

theorem Leaves.listed {b b' : Builder} (left : b.Leaves b') (listed : b.snapshot.Listed) :
    b'.snapshot.Listed := by
  cases left with
  | member => exact listed.update _ fun _ => rfl
  | _ => exact listed

theorem described_of_run {forest : List Element} {events : List Event} {b : Builder}
    (spelled : Spells forest events) (ran : run events = .ok b) : b.snapshot.Described forest := by
  have builds := builds_of_run spelled ran
  have adds : Adds b.snapshot none forest .empty b :=
    builds.adds .empty rfl (List.prefix_refl _) fun _ h => h
  obtain ⟨g, fresh, gained, _, classes⟩ := adds.classes
  have announced := builds.announced .empty
  obtain ⟨_, listed⟩ := builds.preserves (P := fun b => b.WellFormed ∧ b.snapshot.Listed)
    (fun ⟨wf, listed⟩ entered => ⟨wf.enters entered, entered.listed wf listed⟩)
    (fun ⟨wf, listed⟩ left => ⟨wf.leaves left, left.listed listed⟩) ⟨.empty, .empty⟩
  refine ⟨?_, announced.names, announced.positions, listed.listing⟩
  rw [gained]
  exact classes

end Builder

namespace Snapshot

/-- The tags of an accepted document are those of a forest, and loading builds what it describes. -/
theorem described_of_load {document : List UInt8} {s : Snapshot}
    (loaded : Snapshot.load document = .ok s) :
    (∃ forest, Spells forest (Markup.read document).events) ∧
      ∀ forest, Spells forest (Markup.read document).events → s.Described forest := by
  obtain ⟨forest, b, spelled, ran, rfl⟩ := Builder.exists_run_of_load loaded
  exact ⟨⟨forest, spelled⟩, fun other spelled => Builder.described_of_run spelled ran⟩

theorem exists_described_class {document : List UInt8} {s : Snapshot}
    (loaded : Snapshot.load document = .ok s) {id : ClassId} {c : ClassDecl}
    (hc : s.class? id = some c) : ∃ e, c.Described s e ∧ e.number = id := by
  obtain ⟨⟨forest, spelled⟩, described⟩ := described_of_load loaded
  have classes := (described forest spelled).classes
  obtain ⟨hid, rfl⟩ := List.getElem?_eq_some_iff.mp hc
  have place : id < (Element.classesAll 0 none none forest).length := classes.length_eq ▸ hid
  exact ⟨(Element.classesAll 0 none none forest)[id], classes.get place hid,
    Element.number_getElem_classesAll place⟩

/-- A class in a class and a wrapped parameter; the second element of a package announces nothing. -/
def wrapped : List UInt8 :=
  ("<package name='p'><class name='C'><method name='m' return='T'><x><parameter type='int'/></x>" ++
    "</method><interface name='I'/></class></package><package name='p'/>").toUTF8.toList

theorem described_of_load_wrapped : ∃ s, Snapshot.load wrapped = .ok s ∧
    (∃ forest, Spells forest (Markup.read wrapped).events) ∧
      ∀ forest, Spells forest (Markup.read wrapped).events → s.Described forest := by
  have accepted : (Snapshot.load wrapped).toBool = true := by decide +kernel
  cases loaded : Snapshot.load wrapped with
  | error e => simp [loaded, Except.toBool] at accepted
  | ok s => exact ⟨s, rfl, described_of_load loaded⟩

end Snapshot

end ApiCompat
