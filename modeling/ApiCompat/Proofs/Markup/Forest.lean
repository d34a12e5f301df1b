import ApiCompat.Markup.Reader
import Mathlib.Tactic.SplitIfs

/-! Documents as forests of elements. The tags of a document that is read without fault pair up, so
they spell exactly one list of elements with their content. -/
namespace ApiCompat.Markup

structure Element where
  tag : Tag
  content : List Element
  deriving Inhabited

/-- The events that the tags of some elements give. An element without content may be one tag. -/
inductive Spells : List Element → List Event → Prop where
  | nil : Spells [] []
  | void {tag : Tag} {rest : List Element} {events : List Event} : Spells rest events →
      Spells (⟨tag, []⟩ :: rest) (.empty tag :: events)
  | node {tag : Tag} {content rest : List Element} {inner events : List Event} :
      Spells content inner → Spells rest events →
      Spells (⟨tag, content⟩ :: rest) (.start tag :: (inner ++ .finish tag.name :: events))

/-- The events from a place inside open elements, named from the innermost one, to the end. -/
inductive Closes : List String → List Event → Prop where
  | bottom {forest : List Element} {events : List Event} : Spells forest events → Closes [] events
  | level {forest : List Element} {inner events : List Event} {name : String}
      {names : List String} : Spells forest inner → Closes names events →
      Closes (name :: names) (inner ++ .finish name :: events)

namespace Closes

variable {names : List String} {events : List Event}

theorem void (tag : Tag) (h : Closes names events) : Closes names (.empty tag :: events) := by
  cases h with
  | bottom spelled => exact .bottom (.void spelled)
  | level spelled outer => exact .level (.void spelled) outer

/-- The element that opens here closes where the innermost open one does. -/
theorem start {tag : Tag} (h : Closes (tag.name :: names) events) :
    Closes names (.start tag :: events) := by
  cases h with
  | level content outer =>
    cases outer with
    | bottom rest => exact .bottom (.node content rest)
    | level rest outer =>
      have whole : Spells (⟨tag, _⟩ :: _) _ := .node content rest
      simpa using Closes.level whole outer

theorem finish (name : String) (h : Closes names events) :
    Closes (name :: names) (.finish name :: events) :=
  .level .nil h

end Closes

/-- What one tag does to the open elements. -/
inductive Moves : List (List UInt8) → Option Event → List (List UInt8) → Prop where
  | pass {opened : List (List UInt8)} : Moves opened none opened
  | void {opened : List (List UInt8)} {tag : Tag} : Moves opened (some (.empty tag)) opened
  | start {opened : List (List UInt8)} {tag : Tag} {name : List UInt8} : tag.name = lossyName name →
      Moves opened (some (.start tag)) (name :: opened)
  | finish {opened : List (List UInt8)} {name : List UInt8} :
      Moves (name :: opened) (some (.finish (lossyName name))) opened

section Tags

variable {offset : Nat} {opened opened' : List (List UInt8)} {bytes rest : List UInt8}
  {event : Option Event}

theorem moves_passOver {construct : Construct} {stops : List UInt8 → Bool}
    {check : List UInt8 → Option Error}
    (h : passOver construct stops check opened bytes = .next event opened' rest) :
    Moves opened event opened' := by
  unfold passOver at h
  split at h
  · cases h
  · split at h <;> cases h
    exact .pass

theorem moves_readTag (h : readTag offset opened bytes = .next event opened' rest) :
    Moves opened event opened' := by
  unfold readTag at h
  split at h
  · cases h
  · split_ifs at h
    · unfold readBang at h
      split at h
      · cases h
      · split_ifs at h
        · exact moves_passOver h
        · exact moves_passOver h
        · exact moves_passOver h
    · unfold readEnd at h
      dsimp only at h
      split at h
      · cases h
      · split_ifs at h with same
        cases h
        rw [same]
        exact .finish
    · unfold readInstruction at h
      dsimp only at h
      split_ifs at h
      cases h
      exact .pass
    · unfold readStart at h
      dsimp only at h
      split at h
      · cases h
      · split_ifs at h <;> cases h
        · exact .void
        · exact .start rfl

end Tags

theorem Moves.closes {opened opened' : List (List UInt8)} {event : Option Event}
    {events : List Event} (moves : Moves opened event opened')
    (closes : Closes (opened'.map lossyName) events) :
    Closes (opened.map lossyName) (event.toList ++ events) := by
  cases moves with
  | pass => exact closes
  | void => exact closes.void _
  | start same =>
    rw [List.map_cons, ← same] at closes
    exact closes.start
  | finish => exact closes.finish _

theorem closes_atEnd {opened : List (List UInt8)} (complete : faultAtEnd opened = none) :
    Closes (opened.map lossyName) [] := by
  cases opened with
  | nil => exact .bottom .nil
  | cons name outer => cases complete

theorem closes_readFrom (total : Nat) (opened : List (List UInt8)) (bytes : List UInt8)
    (complete : (readFrom total opened bytes).fault = none) :
    Closes (opened.map lossyName) (readFrom total opened bytes).events := by
  fun_induction readFrom total opened bytes with
  | case1 opened bytes missing => exact closes_atEnd complete
  | case2 opened bytes offset after found stop => exact closes_atEnd complete
  | case3 opened bytes offset after found e fault => cases complete
  | case4 opened bytes offset after found event opened' rest next reading ih =>
    exact (moves_readTag next).closes (ih complete)

/-- A document without fault is a forest. -/
theorem exists_forest {document : List UInt8} (complete : (read document).fault = none) :
    ∃ forest, Spells forest (read document).events := by
  cases closes_readFrom _ _ _ complete with
  | bottom spelled => exact ⟨_, spelled⟩

end ApiCompat.Markup
