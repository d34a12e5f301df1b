import ApiCompat.Proofs.Snapshot.Resolution

/-! Resolving twice is resolving once. A linked reference stays, and a name that stays external is
declared no more after the first run, so the links of the second run are those of the first. The
hierarchy reads links alone and no kinds, so it gives the same kinds again, and each of them is
one that is not reconsidered. -/
namespace ApiCompat

section Links

variable (find : String → Option ClassId)

theorem ClassRef.link_link (ref : ClassRef) : (ref.link find).link find = ref.link find := by
  cases ref with
  | linked id => rfl
  | named name => cases found : find name <;> simp [link, found]

mutual

theorem Signature.link_link : ∀ s : Signature, (s.link find).link find = s.link find
  | ⟨kind, name, _, arguments, supers, uppers, _, linked⟩ => by
    simp only [Signature.link, Signature.linkAll_linkAll arguments,
      Signature.linkAll_linkAll supers, Signature.linkAll_linkAll uppers]
    by_cases unset : kind = .classType ∧ linked = none
    · simp [unset]
    · simp [unset]

theorem Signature.linkAll_linkAll :
    ∀ list, Signature.linkAll find (Signature.linkAll find list) = Signature.linkAll find list
  | [] => rfl
  | s :: rest => by
    simp only [Signature.linkAll, Signature.link_link s, Signature.linkAll_linkAll rest]

end

theorem Parameter.link_link (p : Parameter) : (p.link find).link find = p.link find := by
  simp only [link, Signature.link_link]

theorem Callable.link_link (c : Callable) : (c.link find).link find = c.link find := by
  simp only [link, map_map_eq_map (Parameter.link_link find), map_map_eq_map (ClassRef.link_link find)]

theorem Method.link_link (m : Method) : (m.link find).link find = m.link find := by
  simp only [link, Callable.link_link, Signature.link_link]

theorem Field.link_link (f : Field) : (f.link find).link find = f.link find := by
  simp only [link, Signature.link_link]

theorem ClassDecl.link_link (c : ClassDecl) : (c.link find).link find = c.link find := by
  have superclass : (c.superclass.map (ClassRef.link find)).map (ClassRef.link find) =
      c.superclass.map (ClassRef.link find) := by
    cases c.superclass <;> simp [ClassRef.link_link]
  simp only [link, superclass, map_map_eq_map (ClassRef.link_link find),
    map_map_eq_map (Method.link_link find), map_map_eq_map (Callable.link_link find),
    map_map_eq_map (Field.link_link find)]

end Links

namespace Snapshot

theorem ext_class? {s t : Snapshot} (packages : s.packages = t.packages)
    (classes : ∀ id, s.class? id = t.class? id) : s = t := by
  cases s
  cases t
  cases packages
  congr 1
  exact List.ext_getElem? classes

theorem linkNames_resolve (s : Snapshot) : s.resolve.linkNames = s.resolve := by
  refine ext_class? rfl fun id => ?_
  rw [class?_linkNames, class?_resolve, Option.map_map, funext (find?_resolve s)]
  refine Option.map_congr fun c _ => ?_
  have links := ClassDecl.link_link s.find? c
  calc (s.resolveClass id c).link s.find?
      = { (c.link s.find?).link s.find? with
          kind := (s.linkNames.derivedKind? id c.kind).getD c.kind } := rfl
    _ = s.resolveClass id c := by rw [links]; rfl

section Kinds

variable (s : Snapshot)

theorem superclassRef?_deriveKinds (id : ClassId) :
    s.deriveKinds.superclassRef? id = s.superclassRef? id := by
  unfold superclassRef?
  rw [class?_deriveKinds]
  cases s.class? id <;> rfl

theorem supertypeRefs_deriveKinds (id : ClassId) :
    s.deriveKinds.supertypeRefs id = s.supertypeRefs id := by
  unfold supertypeRefs
  rw [class?_deriveKinds]
  cases s.class? id <;> rfl

theorem nameOf_deriveKinds (id : ClassId) : s.deriveKinds.nameOf id = s.nameOf id := by
  unfold nameOf
  rw [class?_deriveKinds]
  cases s.class? id <;> rfl

/-- The hierarchy does not read kinds. -/
theorem superclassChain_deriveKinds (id : ClassId) :
    s.deriveKinds.superclassChain id = s.superclassChain id := by
  have names : s.deriveKinds.nameOfRef = s.nameOfRef := by
    funext ref
    cases ref with
    | named name => rfl
    | linked target => exact nameOf_deriveKinds s target
  have steps : s.deriveKinds.superclass? = s.superclass? := by
    funext a
    rw [superclass?, superclassRef?_deriveKinds, superclass?]
  rw [superclassChain, superclasses, steps, ids_deriveKinds, names,
    funext (superclassRef?_deriveKinds s)]
  rfl

theorem supertypeNames_deriveKinds (id : ClassId) :
    s.deriveKinds.supertypeNames id = s.supertypeNames id := by
  have steps : s.deriveKinds.parents = s.parents := by
    funext a
    rw [parents, supertypeRefs_deriveKinds, parents]
  have external : s.deriveKinds.externalNames = s.externalNames := by
    funext a
    rw [externalNames, supertypeRefs_deriveKinds, externalNames]
  rw [supertypeNames, ancestors, steps, ids_deriveKinds, external, funext (nameOf_deriveKinds s)]
  rfl

theorem derivedKind?_deriveKinds (id : ClassId) (kind : ClassKind) :
    s.deriveKinds.derivedKind? id kind = s.derivedKind? id kind := by
  cases kind with
  | plain =>
    simp only [derivedKind?, superclassChain_deriveKinds, kindOfChain, find?_deriveKinds]
  | interface => simp only [derivedKind?, supertypeNames_deriveKinds]
  | _ => rfl

/-- No class of a snapshot with derived kinds receives another kind. -/
theorem derivedKind?_derived {id : ClassId} {c : ClassDecl} (hc : s.deriveKinds.class? id = some c) :
    s.deriveKinds.derivedKind? id c.kind = none := by
  rw [class?_deriveKinds] at hc
  obtain ⟨d, _, rfl⟩ := Option.map_eq_some_iff.mp hc
  rw [derivedKind?_deriveKinds]
  cases derived : s.derivedKind? id d.kind with
  | none => exact derived
  | some kind => exact derivedKind?_settled derived s id

theorem deriveKinds_deriveKinds : s.deriveKinds.deriveKinds = s.deriveKinds := by
  refine ext_class? rfl fun id => ?_
  rw [class?_deriveKinds]
  cases hc : s.deriveKinds.class? id with
  | none => rfl
  | some c => simp only [Option.map_some, derivedKind?_derived s hc, Option.getD_none]

end Kinds

theorem refsChanged_self (refs : List ClassRef) : refsChanged refs refs = 0 := by
  induction refs with
  | nil => rfl
  | cons ref rest ih => simpa [refsChanged] using ih

theorem changed_changesTo_self (s : Snapshot) : (s.changesTo s).changed = 0 := by
  have signatures (nodes : List Signature) :
      (nodes.zip nodes).countP (fun pair => pair.1.linked != pair.2.linked) = 0 := by
    induction nodes with
    | nil => rfl
    | cons node rest ih => simpa using ih
  simp [LinkCounts.changed, changesTo, refsChanged_self, signatures]

/-- Resolving again changes nothing, counts no change, and meets the same external references. -/
theorem resolve_idempotent (s : Snapshot) : s.resolve.resolve = s.resolve ∧
    s.resolve.linkCounts.changed = 0 ∧ s.resolve.linkCounts.external = s.linkCounts.external := by
  have again : s.resolve.resolve = s.resolve := by
    rw [resolve, linkNames_resolve]
    exact deriveKinds_deriveKinds s.linkNames
  rw [linkCounts_eq_changesTo s.resolve, again, linkCounts_eq_changesTo s]
  exact ⟨rfl, changed_changesTo_self s.resolve, rfl⟩

end Snapshot

end ApiCompat
