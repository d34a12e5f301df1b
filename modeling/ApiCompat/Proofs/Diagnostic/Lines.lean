import ApiCompat.Diagnostic.Log
import ApiCompat.Proofs.Snapshot.Positions

/-! Lines of diagnostics. A line has the position in front, if there is one, then the severity, the
code and the message. It is read from the left: the first colon with a blank behind it ends the
position or, without one, the severity with the code. Only a file's name that holds such a colon
itself can mislead the reader. -/
namespace ApiCompat

def Severity.ofText? (text : String) : Option Severity :=
  [error, warning, hidden].find? (·.text == text)

theorem Severity.ofText?_text (severity : Severity) : ofText? severity.text = some severity := by
  cases severity <;> decide

namespace Diagnostic

/-- The line tells of the diagnostic, with position and severity in some spelling. -/
inductive Told (spelled : String → String → Prop) (d : Diagnostic) : String → Prop where
  | located {p : Position} {place severity : String} : d.location = some p →
      spelled (p.file ++ ":" ++ Nat.repr p.line.toNat) place → spelled d.severity.text severity →
      Told spelled d
        (place ++ ": " ++ severity ++ " " ++ Nat.repr d.category.code ++ ": " ++ d.message)
  | unlocated {severity : String} : d.location = none → spelled d.severity.text severity →
      Told spelled d (severity ++ " " ++ Nat.repr d.category.code ++ ": " ++ d.message)

theorem Told.mono {spelled wider : String → String → Prop}
    (wide : ∀ text shown, spelled text shown → wider text shown) {d : Diagnostic} {line : String}
    (told : Told spelled d line) : Told wider d line := by
  cases told with
  | located place position severity =>
    exact .located place (wide _ _ position) (wide _ _ severity)
  | unlocated place severity => exact .unlocated place (wide _ _ severity)

theorem told_text (d : Diagnostic) : Told Eq d d.text := by
  cases place : d.location with
  | none =>
    have line := Told.unlocated place (Eq.refl d.severity.text)
    simpa [text, place] using line
  | some p =>
    have line := Told.located place rfl (Eq.refl d.severity.text)
    simpa [text, place, Position.text, String.append_assoc] using line

/-- Cuts a text at the first colon with a blank behind it. -/
def cutColon : List Char → Option (List Char × List Char)
  | [] => none
  | ':' :: ' ' :: rest => some ([], rest)
  | c :: rest => (cutColon rest).map fun (front, back) => (c :: front, back)

def readPosition? (text : List Char) : Option Position := do
  let (file, digits) ← Position.splitAtLastColon? text
  let line ← Text.readWord? digits
  return ⟨String.ofList file, line⟩

def readGrade? (text : List Char) : Option (Severity × Category) :=
  match text.dropWhile (· != ' ') with
  | [] => none
  | _ :: digits => do
    let severity ← Severity.ofText? (String.ofList (text.takeWhile (· != ' ')))
    let category ← (Text.readDecimal? digits).bind Category.ofCode?
    return (severity, category)

def readLine? (line : List Char) : Option Diagnostic := do
  let (front, back) ← cutColon line
  match readGrade? front with
  | some (severity, category) => return ⟨⟨category, String.ofList back, none⟩, severity⟩
  | none =>
    let position ← readPosition? front
    let (grade, message) ← cutColon back
    let (severity, category) ← readGrade? grade
    return ⟨⟨category, String.ofList message, some position⟩, severity⟩

/-- No colon of the text has a blank behind it. -/
def Unbroken (text : List Char) : Prop := ¬[':', ' '] <:+: text

theorem Unbroken.cutColon_eq_none {text : List Char} (unbroken : Unbroken text) :
    cutColon text = none := by
  fun_induction cutColon text with
  | case1 => rfl
  | case2 rest => exact absurd ⟨[], rest, rfl⟩ unbroken
  | case3 c rest _ ih =>
    have later : Unbroken rest :=
      fun inside => unbroken (inside.trans (List.suffix_cons c rest).isInfix)
    rw [ih later]
    rfl

theorem unbroken_of_notMem {text : List Char} (apart : ':' ∉ text) : Unbroken text :=
  fun inside => apart (inside.subset List.mem_cons_self)

theorem Unbroken.append_digits {file : List Char} (unbroken : Unbroken file) (n : Nat) :
    Unbroken (file ++ ':' :: Nat.toDigits 10 n) := by
  have unblank : ' ' ∉ Nat.toDigits 10 n :=
    fun h => absurd (Text.isDecimalDigit_of_mem_toDigits h) (by decide)
  rintro ⟨before, after, whole⟩
  rw [List.append_assoc] at whole
  obtain ⟨more, rfl, rest⟩ | ⟨more, rfl, rest⟩ := List.append_eq_append_iff.mp whole
  · cases more with
    | nil =>
      have digits := (List.cons.inj rest).2
      rw [← digits] at unblank
      exact unblank List.mem_cons_self
    | cons c more =>
      cases more with
      | nil => simp at rest
      | cons d more =>
        cases rest
        exact unbroken ⟨before, more, by simp⟩
  · have blank : ' ' ∈ ':' :: Nat.toDigits 10 n := rest ▸ by simp
    exact unblank (by simpa using blank)

theorem cutColon_append {front : List Char} (plain : cutColon front = none) (back : List Char) :
    cutColon (front ++ ':' :: ' ' :: back) = some (front, back) := by
  fun_induction cutColon front with
  | case1 => rfl
  | case2 => cases plain
  | case3 c rest other ih =>
    have apart : ∀ after, c = ':' → rest ++ ':' :: ' ' :: back = ' ' :: after → False := by
      intro after colon same
      cases rest with
      | nil => cases same
      | cons d rest =>
        cases same
        exact other _ colon rfl
    rw [List.cons_append, cutColon, ih (by simpa using plain)]
    · rfl
    · exact apart

/-- The characters of a severity and a code. -/
def gradeText (severity : Severity) (category : Category) : List Char :=
  severity.text.toList ++ ' ' :: Nat.toDigits 10 category.code

theorem readGrade?_gradeText (severity : Severity) (category : Category) :
    readGrade? (gradeText severity category) = some (severity, category) := by
  have word : severity.text.toList.all (· != ' ') = true := by cases severity <;> decide
  have word := List.all_eq_true.mp word
  simp only [readGrade?, gradeText, List.dropWhile_append_of_pos word,
    List.takeWhile_append_of_pos word]
  simp [Severity.ofText?_text, Text.readDecimal?_toDigits, Category.ofCode?_code]

theorem colon_notMem_gradeText (severity : Severity) (category : Category) :
    ':' ∉ gradeText severity category := by
  have word : ':' ∉ severity.text.toList := by cases severity <;> decide
  simp [gradeText, word, Position.colon_notMem_toDigits]

theorem colon_notMem_of_readGrade? {text : List Char} {grade : Severity × Category}
    (read : readGrade? text = some grade) : ':' ∉ text := by
  have whole := List.takeWhile_append_dropWhile (p := (· != ' ')) (l := text)
  have first := List.head?_dropWhile_not (· != ' ') text
  unfold readGrade? at read
  split at read
  · cases read
  · rename_i blank digits rest
    obtain ⟨severity, word, read⟩ := Option.bind_eq_some_iff.mp read
    obtain ⟨category, code, _⟩ := Option.bind_eq_some_iff.mp read
    obtain ⟨n, decimal, _⟩ := Option.bind_eq_some_iff.mp code
    have word : severity.text = String.ofList (text.takeWhile (· != ' ')) := by
      simpa using List.find?_some word
    have unlettered : ':' ∉ text.takeWhile (· != ' ') := by
      have plain : ':' ∉ severity.text.toList := by cases severity <;> decide
      simpa [word] using plain
    have undigited : ':' ∉ digits := by
      intro colon
      exact absurd (Text.isDecimalDigit_of_readDecimal? decimal colon) (by decide)
    have apart : ':' ≠ blank := by
      rintro rfl
      simp [rest] at first
    rw [← whole, rest]
    simp [unlettered, undigited, apart]

theorem readPosition?_append (p : Position) :
    readPosition? (p.file.toList ++ ':' :: Nat.toDigits 10 p.line.toNat) = some p := by
  simp [readPosition?, Position.splitAtLastColon?_append (Position.colon_notMem_toDigits _),
    Text.readWord?_toDigits]

theorem toList_text_unlocated {d : Diagnostic} (place : d.location = none) :
    d.text.toList = gradeText d.severity d.category ++ ':' :: ' ' :: d.message.toList := by
  simp [text, place, gradeText]

theorem toList_text_located {d : Diagnostic} {p : Position} (place : d.location = some p) :
    d.text.toList = (p.file.toList ++ ':' :: Nat.toDigits 10 p.line.toNat) ++ ':' :: ' ' ::
      (gradeText d.severity d.category ++ ':' :: ' ' :: d.message.toList) := by
  simp [text, place, gradeText, Position.text]

/-- A diagnostic is read back from its line, whatever its message holds. -/
theorem readLine?_text {d : Diagnostic} (unbroken : ∀ p ∈ d.location, Unbroken p.file.toList) :
    readLine? d.text.toList = some d := by
  have grade := (unbroken_of_notMem (colon_notMem_gradeText d.severity d.category)).cutColon_eq_none
  cases place : d.location with
  | none =>
    obtain ⟨⟨category, message, location⟩, severity⟩ := d
    cases place
    rw [toList_text_unlocated rfl, readLine?, cutColon_append grade]
    simp [readGrade?_gradeText]
  | some p =>
    have front := ((unbroken p place).append_digits p.line.toNat).cutColon_eq_none
    have ungraded : readGrade? (p.file.toList ++ ':' :: Nat.toDigits 10 p.line.toNat) = none := by
      rw [Option.eq_none_iff_forall_ne_some]
      intro grade read
      exact colon_notMem_of_readGrade? read (by simp)
    obtain ⟨⟨category, message, location⟩, severity⟩ := d
    cases place
    rw [toList_text_located rfl, readLine?, cutColon_append front]
    simp [ungraded, readPosition?_append, cutColon_append grade, readGrade?_gradeText]

/-- Where a file's name holds a colon with a blank, its line may be read as another one's. -/
example : readLine? "error 8: :1: warning 11: m".toList =
    some ⟨⟨.removedMethod, ":1: warning 11: m", none⟩, .error⟩ := by decide +kernel

end Diagnostic

end ApiCompat
