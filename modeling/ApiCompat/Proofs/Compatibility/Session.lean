import ApiCompat.Compatibility.Session
import Mathlib.Algebra.BigOperators.Group.List.Basic

/-! What a run does to a session. Every step only appends to what was handed over, records the
same in the log and adds to the counts, and none of it depends on the log. So a run is known by
two lists that are said without a session: the entries that it hands over, and the counts of
its parts. The log of a run is then the one of the check. -/
namespace ApiCompat.Compatibility

namespace Tally

instance : Add Tally :=
  ⟨fun a b => ⟨a.packages + b.packages, a.classes + b.classes, a.members + b.members⟩⟩

instance : Zero Tally := ⟨⟨0, 0, 0⟩⟩

theorem add_mk (a b c a' b' c' : Nat) :
    (⟨a, b, c⟩ + ⟨a', b', c'⟩ : Tally) = ⟨a + a', b + b', c + c'⟩ := rfl

theorem zero_mk : (0 : Tally) = ⟨0, 0, 0⟩ := rfl

instance : AddCommMonoid Tally where
  add_assoc a b c := by cases a; cases b; cases c; simp only [add_mk, Nat.add_assoc]
  zero_add a := by cases a; simp only [zero_mk, add_mk, Nat.zero_add]
  add_zero a := by cases a; simp only [zero_mk, add_mk, Nat.add_zero]
  add_comm a b := by cases a; cases b; simp only [add_mk, Nat.add_comm]
  nsmul := nsmulRec

end Tally

namespace Session

/-- The session after some entries were handed over and something was counted. -/
def advance (s : Session) (entries : List Entry) (counted : Tally) : Session :=
  ⟨s.log.recordAll (entries.map (·.finding)), s.tally + counted, s.handed ++ entries⟩

variable {s : Session} {subject : Subject}

theorem advance_nil : s.advance [] 0 = s := by
  simp only [advance, add_zero, List.append_nil]
  rfl

theorem advance_advance {first second : List Entry} {counted more : Tally} :
    (s.advance first counted).advance second more = s.advance (first ++ second) (counted + more) := by
  simp only [advance, List.map_append, Log.recordAll, List.foldl_append, add_assoc,
    List.append_assoc]

theorem report_eq_advance (subject : Subject) (s : Session) (f : Finding) :
    s.report subject f = s.advance [⟨subject, f⟩] 0 := by
  simp only [report, advance, add_zero]
  rfl

/-- Steps that advance a session do so in a row as well. -/
theorem foldl_eq_advance {α : Type} {step : Session → α → Session} {entries : α → List Entry}
    {counted : α → Tally} (advances : ∀ s a, step s a = s.advance (entries a) (counted a))
    (list : List α) (s : Session) :
    list.foldl step s = s.advance (list.flatMap entries) (list.map counted).sum := by
  induction list generalizing s with
  | nil => exact advance_nil.symm
  | cons a rest ih =>
    rw [List.foldl_cons, advances, ih, advance_advance, List.flatMap_cons, List.map_cons,
      List.sum_cons]

def entriesOf (subject : Subject) (findings : List Finding) : List Entry :=
  findings.map (Entry.mk subject)

theorem entriesOf_append (subject : Subject) (first second : List Finding) :
    entriesOf subject (first ++ second) = entriesOf subject first ++ entriesOf subject second :=
  List.map_append

theorem entriesOf_flatMap {α : Type} (subject : Subject) (list : List α)
    (findings : α → List Finding) :
    list.flatMap (fun a => entriesOf subject (findings a)) =
      entriesOf subject (list.flatMap findings) :=
  List.map_flatMap.symm

theorem finding_entriesOf (subject : Subject) (findings : List Finding) :
    (entriesOf subject findings).map (·.finding) = findings := by
  rw [entriesOf, List.map_map]
  exact List.map_id findings

theorem reportAll_eq_advance (findings : List Finding) :
    s.reportAll subject findings = s.advance (entriesOf subject findings) 0 := by
  rw [reportAll, foldl_eq_advance (report_eq_advance subject), ← List.map_eq_flatMap, List.map_const', List.sum_replicate, nsmul_zero]
  rfl

theorem countMember_eq_advance : s.countMember = s.advance [] ⟨0, 0, 1⟩ := by
  rw [advance, List.append_nil]
  rfl

theorem countClass_eq_advance : s.countClass = s.advance [] ⟨0, 1, 0⟩ := by
  rw [advance, List.append_nil]
  rfl

theorem countPackage_eq_advance : s.countPackage = s.advance [] ⟨1, 0, 0⟩ := by
  rw [advance, List.append_nil]
  rfl

theorem lookUpAll_eq_advance {α : Type} (findings : α → List Finding) (members : List α) :
    s.lookUpAll subject findings members =
      s.advance (entriesOf subject (members.flatMap findings)) ⟨0, 0, members.length⟩ := by
  have step : ∀ (s : Session) (a : α), s.countMember.reportAll subject (findings a) =
      s.advance (entriesOf subject (findings a)) ⟨0, 0, 1⟩ := by
    intro s a
    rw [reportAll_eq_advance, countMember_eq_advance, advance_advance, List.nil_append, add_zero]
  have counted : (members.map fun _ => (⟨0, 0, 1⟩ : Tally)).sum = ⟨0, 0, members.length⟩ := by
    induction members with
    | nil => rfl
    | cons a rest ih =>
      rw [List.map_cons, List.sum_cons, ih, Tally.add_mk, List.length_cons, Nat.add_comm 1]
  rw [lookUpAll, foldl_eq_advance step, entriesOf_flatMap, counted]

theorem lookForAdded_eq_advance {α : Type} (findings : α → List Finding) (declared : List α) :
    s.lookForAdded subject findings declared =
      s.advance (entriesOf subject (declared.flatMap findings)) 0 := by
  have step : ∀ (s : Session) (a : α), s.reportAll subject (findings a) =
      s.advance (entriesOf subject (findings a)) 0 :=
    fun s a => reportAll_eq_advance (findings a)
  rw [lookForAdded, foldl_eq_advance step, entriesOf_flatMap, List.map_const', List.sum_replicate,
    nsmul_zero]

theorem visitMembers_eq_advance (old new : Place) : s.visitMembers old new =
    s.advance (entriesOf (.oldClass old.id) (memberFindings old new))
      ⟨0, 0, memberCount old.decl⟩ := by
  simp only [visitMembers, lookUpAll_eq_advance, lookForAdded_eq_advance, advance_advance,
    ← entriesOf_append]
  rfl

/-- What comparing a class with its counterpart adds to the counts. -/
def classCount (old new : Place) : Tally :=
  ⟨0, 1, if new.decl.exported then memberCount old.decl else 0⟩

theorem visitClass_eq_advance (old new : Place) : s.visitClass old new =
    s.advance (entriesOf (.oldClass old.id) (compareClass old new)) (classCount old new) := by
  unfold visitClass compareClass classCount
  by_cases still : new.decl.exported = true
  · simp only [if_pos still, countClass_eq_advance, reportAll_eq_advance,
      visitMembers_eq_advance, advance_advance, List.nil_append, ← entriesOf_append,
      ← List.append_assoc, add_zero, Tally.add_mk, Nat.zero_add]
  · simp only [if_neg still, countClass_eq_advance, reportAll_eq_advance, advance_advance,
      List.nil_append, List.append_nil]
    rfl

/-- What an obligation adds to the counts. -/
def obligationCount (new : Snapshot) (old : Place) : Tally :=
  match counterpart? new old.decl with
  | some found => classCount old found
  | none => 0

def obligationEntries (new : Snapshot) (old : Place) : List Entry :=
  entriesOf (.oldClass old.id) (obligationFindings new old)

theorem foldl_visitOld (old new : Snapshot) (p : Package) :
    p.classes.foldl (visitOld old new) s =
      s.advance ((obligations old new p).flatMap (obligationEntries new))
        ((obligations old new p).map (obligationCount new)).sum := by
  have step : ∀ (s : Session) (place : Place), (match counterpart? new place.decl with
      | some found => s.visitClass place found
      | none => s.report (.oldClass place.id) (removedClass place.decl)) =
      s.advance (obligationEntries new place) (obligationCount new place) := by
    intro s place
    unfold obligationEntries obligationFindings obligationCount
    cases counterpart? new place.decl with
    | some found => exact visitClass_eq_advance place found
    | none => exact report_eq_advance _ s _
  rw [← foldl_eq_advance step, obligations, List.foldl_filterMap, List.foldl_filter]
  refine congrFun (congrFun (congrArg _ ?_) s) p.classes
  funext s id
  unfold visitOld
  split
  · cases Place.of? old id <;> rfl
  · rfl

def addedClassEntries (old : Snapshot) (new : Place) : List Entry :=
  entriesOf (.newClass new.id) (addedClass old new)

theorem foldl_visitNew (old new : Snapshot) (q : Package) :
    q.classes.foldl (visitNew old new) s =
      s.advance ((q.classes.filterMap (Place.of? new)).flatMap (addedClassEntries old)) 0 := by
  have step : ∀ (s : Session) (place : Place),
      s.reportAll (.newClass place.id) (addedClass old place) =
        s.advance (addedClassEntries old place) 0 :=
    fun s place => reportAll_eq_advance (addedClass old place)
  have total : (((q.classes.filterMap (Place.of? new)).map fun _ => (0 : Tally))).sum = 0 := by
    rw [List.map_const', List.sum_replicate, nsmul_zero]
  rw [← total, ← foldl_eq_advance step, List.foldl_filterMap]
  refine congrFun (congrFun (congrArg _ ?_) s) q.classes
  funext s id
  unfold visitNew
  cases Place.of? new id <;> rfl

def packageEntries (old new : Snapshot) (p : Package) : List Entry :=
  match new.package? p.name with
  | none => entriesOf (.package p.name)
    [⟨.removedPackage, "Removed package " ++ p.name, p.position⟩]
  | some q =>
    (obligations old new p).flatMap (obligationEntries new) ++
      (q.classes.filterMap (Place.of? new)).flatMap (addedClassEntries old)

def packageCount (old new : Snapshot) (p : Package) : Tally :=
  if (new.package? p.name).isSome then
    ⟨1, 0, 0⟩ + ((obligations old new p).map (obligationCount new)).sum
  else 0

theorem visitPackage_eq_advance (old new : Snapshot) (s : Session) (p : Package) :
    s.visitPackage old new p =
      s.advance (packageEntries old new p) (packageCount old new p) := by
  unfold visitPackage packageEntries packageCount
  cases new.package? p.name with
  | none => exact report_eq_advance _ s _
  | some q =>
    simp only [Option.isSome_some, if_true, countPackage_eq_advance, foldl_visitOld,
      foldl_visitNew, advance_advance, List.nil_append, add_zero]

/-- All that a run hands to the log. -/
def entries (old new : Snapshot) : List Entry :=
  old.packages.flatMap (packageEntries old new) ++
    new.packages.flatMap fun q => entriesOf (.package q.name) (addedPackage old q)

theorem finding_obligationEntries (new : Snapshot) (list : List Place) :
    (list.flatMap (obligationEntries new)).map (·.finding) =
      list.flatMap (obligationFindings new) := by
  rw [List.map_flatMap]
  exact List.flatMap_congr fun place _ => finding_entriesOf _ _

theorem finding_addedClassEntries (old : Snapshot) (list : List Place) :
    (list.flatMap (addedClassEntries old)).map (·.finding) = list.flatMap (addedClass old) := by
  rw [List.map_flatMap]
  exact List.flatMap_congr fun place _ => finding_entriesOf _ _

/-- The entries without their subjects are the findings of the comparison. -/
theorem finding_entries (old new : Snapshot) :
    (entries old new).map (·.finding) = compare old new := by
  rw [entries, List.map_append, List.map_flatMap, List.map_flatMap, compare]
  refine congrArg₂ (· ++ ·) (List.flatMap_congr fun p _ => ?_) (List.flatMap_congr fun q _ => ?_)
  · unfold packageEntries packageFindings
    cases new.package? p.name with
    | none => rfl
    | some q =>
      rw [List.map_append, finding_obligationEntries, finding_addedClassEntries]
  · exact finding_entriesOf _ _

theorem sum_obligationCount (new : Snapshot) (list : List Place) :
    (list.map (obligationCount new)).sum =
      ((list.filterMap fun a => (counterpart? new a.decl).map fun b => (a, b)).map
        fun pair => classCount pair.1 pair.2).sum := by
  induction list with
  | nil => rfl
  | cons place rest ih =>
    rw [List.map_cons, List.sum_cons, ih, obligationCount]
    cases found : counterpart? new place.decl with
    | none => simp only [List.filterMap_cons, found, Option.map_none, zero_add]
    | some b => simp only [List.filterMap_cons, found, Option.map_some, List.map_cons, List.sum_cons]

theorem sum_classCount (pairs : List (Place × Place)) :
    (pairs.map fun pair => classCount pair.1 pair.2).sum =
      ⟨0, pairs.length, (pairs.filter fun pair => pair.2.decl.exported).foldr
        (fun pair members => memberCount pair.1.decl + members) 0⟩ := by
  induction pairs with
  | nil => rfl
  | cons pair rest ih =>
    rw [List.map_cons, List.sum_cons, ih, classCount, Tally.add_mk, List.length_cons,
      List.filter_cons]
    split
    · rw [List.foldr_cons, Nat.zero_add, Nat.add_comm 1]
    · rw [Nat.zero_add, Nat.zero_add, Nat.add_comm 1]

theorem sum_packageCount (old new : Snapshot) (packages : List Package) :
    (packages.map (packageCount old new)).sum =
      ⟨(packages.filter fun p => (new.package? p.name).isSome).length, 0, 0⟩ +
        (((packages.filter fun p => (new.package? p.name).isSome).flatMap fun p =>
          (obligations old new p).filterMap fun a => (counterpart? new a.decl).map fun b =>
            (a, b)).map fun pair => classCount pair.1 pair.2).sum := by
  induction packages with
  | nil => rfl
  | cons p rest ih =>
    rw [List.map_cons, List.sum_cons, ih, packageCount, List.filter_cons]
    split
    · have one (n : Nat) : (⟨1, 0, 0⟩ + ⟨n, 0, 0⟩ : Tally) = ⟨n + 1, 0, 0⟩ := by
        rw [Tally.add_mk, Nat.add_comm 1]
      rw [sum_obligationCount, List.length_cons, List.flatMap_cons, List.map_append,
        List.sum_append, add_add_add_comm, one]
    · rw [zero_add]

theorem tally_eq_sum (old new : Snapshot) :
    Compatibility.tally old new = (old.packages.map (packageCount old new)).sum := by
  rw [sum_packageCount, sum_classCount, Tally.add_mk, Nat.zero_add, Nat.zero_add, Nat.add_zero]
  rfl

/-- A run records what it hands over, and that is what the comparison finds. -/
theorem run_eq (table : SeverityTable) (old new : Snapshot) :
    run table old new = ⟨check table old new, Compatibility.tally old new, entries old new⟩ := by
  have added : ∀ (s : Session) (q : Package),
      s.reportAll (.package q.name) (addedPackage old q) =
        s.advance (entriesOf (.package q.name) (addedPackage old q)) 0 :=
    fun s q => reportAll_eq_advance (addedPackage old q)
  rw [run, foldl_eq_advance (visitPackage_eq_advance old new), foldl_eq_advance added,
    advance_advance, List.map_const', List.sum_replicate, nsmul_zero, add_zero, ← tally_eq_sum]
  change (start table).advance (entries old new) (Compatibility.tally old new) = _
  rw [advance, finding_entries, start, ← Tally.zero_mk, zero_add, List.nil_append]
  rfl

end Session

end ApiCompat.Compatibility
