import ApiCompat.Compatibility.Comparison

/-! A comparison as a run. The session is what the run changes: the log, the counts so far, and
what was handed to the log, each finding with the declaration on whose behalf it was. The run
goes through packages, classes and members in their order and hands over one finding at a
time; counts say how far it came. -/
namespace ApiCompat.Compatibility

/-- On whose behalf a finding is handed to the log. Findings on members are on behalf of the old
class, also those on new members. -/
inductive Subject where
  | package (name : String)
  | oldClass (id : ClassId)
  | newClass (id : ClassId)
  deriving DecidableEq, Repr

structure Entry where
  subject : Subject
  finding : Finding
  deriving DecidableEq, Repr

structure Session where
  log : Log
  tally : Tally
  handed : List Entry

namespace Session

def start (table : SeverityTable) : Session := ⟨.empty table, ⟨0, 0, 0⟩, []⟩

def report (subject : Subject) (s : Session) (f : Finding) : Session :=
  { s with log := s.log.record f, handed := s.handed ++ [⟨subject, f⟩] }

def reportAll (subject : Subject) (s : Session) (findings : List Finding) : Session :=
  findings.foldl (report subject) s

def countPackage (s : Session) : Session :=
  { s with tally := { s.tally with packages := s.tally.packages + 1 } }

def countClass (s : Session) : Session :=
  { s with tally := { s.tally with classes := s.tally.classes + 1 } }

def countMember (s : Session) : Session :=
  { s with tally := { s.tally with members := s.tally.members + 1 } }

def lookUpAll {α : Type} (subject : Subject) (findings : α → List Finding) (s : Session)
    (members : List α) : Session :=
  members.foldl (fun s a => s.countMember.reportAll subject (findings a)) s

def lookForAdded {α : Type} (subject : Subject) (findings : α → List Finding) (s : Session)
    (declared : List α) : Session :=
  declared.foldl (fun s a => s.reportAll subject (findings a)) s

def visitMembers (old new : Place) (s : Session) : Session :=
  let subject := Subject.oldClass old.id
  let s := s.lookUpAll subject (constructorFindings old new) (exportedConstructors old.decl)
  let s := s.lookForAdded subject (addedConstructor old new) (exportedConstructors new.decl)
  let s := s.lookUpAll subject (methodFindings old new) (exportedMethods old.decl)
  let s := s.lookForAdded subject (addedMethod old new) (exportedMethods new.decl)
  let s := s.lookUpAll subject (fieldFindings old new) (exportedFields old.decl)
  s.lookForAdded subject (addedField old new) (exportedFields new.decl)

/-- A class that left the API is not looked into. -/
def visitClass (old new : Place) (s : Session) : Session :=
  let subject := Subject.oldClass old.id
  let s := s.countClass.reportAll subject (standingFindings old.decl new.decl)
  if new.decl.exported then
    let s := s.reportAll subject (modifierFindings old.decl new.decl)
    let s := s.reportAll subject (supertypeFindings old new)
    s.visitMembers old new
  else s

def visitOld (old new : Snapshot) (s : Session) (id : ClassId) : Session :=
  if isObligation old new id then
    match Place.of? old id with
    | some place =>
      match counterpart? new place.decl with
      | some found => s.visitClass place found
      | none => s.report (.oldClass place.id) (removedClass place.decl)
    | none => s
  else s

def visitNew (old new : Snapshot) (s : Session) (id : ClassId) : Session :=
  match Place.of? new id with
  | some place => s.reportAll (.newClass place.id) (addedClass old place)
  | none => s

def visitPackage (old new : Snapshot) (s : Session) (p : Package) : Session :=
  match new.package? p.name with
  | none => s.report (.package p.name) ⟨.removedPackage, "Removed package " ++ p.name, p.position⟩
  | some q =>
    let s := p.classes.foldl (visitOld old new) s.countPackage
    q.classes.foldl (visitNew old new) s

def run (table : SeverityTable) (old new : Snapshot) : Session :=
  let s := old.packages.foldl (visitPackage old new) (start table)
  new.packages.foldl (fun s q => s.reportAll (.package q.name) (addedPackage old q)) s

end Session

end ApiCompat.Compatibility
