import ApiCompat.Proofs.Diagnostic.Lines
import ApiCompat.Report.Color
import ApiCompat.Text.ControlSequence

/-! Printed lines. Colors only put sequences between the characters of a line, which a terminal does
not show. So what it shows of the lines is read as the diagnostics again, unless a file's name or
a message holds line breaks or control characters of its own. -/
namespace ApiCompat.Report

open Text (Display isSilent)

/-- The text is shown with color sequences put in. -/
inductive Painted : List Char → List Char → Prop where
  | nil : Painted [] []
  | char {text shown : List Char} (c : Char) : Painted text shown → Painted (c :: text) (c :: shown)
  | sequence {text shown codes : List Char} : (∀ c ∈ codes, c ∈ "0123456789;".toList) →
      Painted text shown → Painted text ('\x1b' :: '[' :: codes ++ 'm' :: shown)

namespace Painted

theorem refl (text : List Char) : Painted text text := by
  induction text with
  | nil => exact .nil
  | cons c rest ih => exact .char c ih

theorem append {front front' back back' : List Char} (first : Painted front front')
    (second : Painted back back') : Painted (front ++ back) (front' ++ back') := by
  induction first with
  | nil => exact second
  | char c _ ih => exact .char c ih
  | @sequence text shown codes numbers _ ih =>
    have put := Painted.sequence numbers ih
    simpa using put

theorem reset : Painted [] Color.reset :=
  @sequence [] [] ['0'] (by simp) .nil

theorem color (color : Color) {text shown : List Char} (painted : Painted text shown) :
    Painted text (color.sequence ++ shown) := by
  cases color with
  | bold => exact @sequence text shown ['1'] (by simp) painted
  | boldRed => exact @sequence text shown ['1', ';', '3', '1'] (by simp) painted
  | boldYellow => exact @sequence text shown ['1', ';', '3', '3'] (by simp) painted

theorem resume (color : Color) (text : List Char) : Painted text (color.resume text) := by
  fun_induction Color.resume color text with
  | case1 rest ih =>
    have begun := (refl Color.reset).append (Painted.color color ih)
    simpa [Color.reset, Color.escapeCharacter] using begun
  | case2 c rest _ ih => exact .char c ih
  | case3 => exact .nil

theorem paint (color : Color) (text : String) :
    Painted text.toList (color.paint text).toList := by
  have inside := (Painted.color color (resume color text.toList)).append reset
  simpa [Color.paint] using inside

end Painted

/-- A terminal passes over the parameters of a color and its last letter. -/
theorem visible_codes {codes : List Char} (numbers : ∀ c ∈ codes, c ∈ "0123456789;".toList)
    (rest : List Char) : (Display.hidden .control).visible (codes ++ 'm' :: rest) =
      (Display.shown none).visible rest := by
  have inside : "0123456789;".toList.all
      (fun c => (Display.hidden .control).step c = (false, .hidden .control)) = true := by decide
  induction codes with
  | nil => rfl
  | cons c codes ih =>
    obtain ⟨number, numbers⟩ := List.forall_mem_cons.mp numbers
    have goes := of_decide_eq_true (List.all_eq_true.mp inside c number)
    simp only [List.cons_append, Display.visible, goes]
    exact ih numbers

theorem visible_of_isSilent {c : Char} (loud : isSilent c = false) (rest : List Char) :
    (Display.shown none).visible (c :: rest) = c :: (Display.shown none).visible rest := by
  have escape : c ≠ '\x1b' := by
    rintro rfl
    exact absurd loud (by decide)
  have cancel : ¬(c = '\x18' ∨ c = '\x1a') := by
    rintro (rfl | rfl)
    · exact absurd loud (by decide)
    · exact absurd loud (by decide)
  have step : (Display.shown none).step c = (true, .shown none) := by
    simp [Display.step, escape, cancel, loud]
  simp only [Display.visible, step]
  rfl

theorem Painted.visible {text shown : List Char} (painted : Painted text shown)
    (loud : ∀ c ∈ text, isSilent c = false) (rest : List Char) :
    (Display.shown none).visible (shown ++ rest) = text ++ (Display.shown none).visible rest := by
  induction painted with
  | nil => rfl
  | char c _ ih =>
    obtain ⟨first, loud⟩ := List.forall_mem_cons.mp loud
    rw [List.cons_append, visible_of_isSilent first, ih loud]
    rfl
  | @sequence text shown codes numbers _ ih =>
    have begun : (Display.shown none).visible ('\x1b' :: '[' :: codes ++ 'm' :: shown ++ rest) =
        (Display.hidden .control).visible (codes ++ 'm' :: (shown ++ rest)) := by
      rw [List.append_assoc]
      rfl
    rw [begun, visible_codes numbers, ih loud]

/-- The text is shown, perhaps in colors. -/
def Spelled (text shown : String) : Prop := Painted text.toList shown.toList

theorem Spelled.refl (text : String) : Spelled text text := Painted.refl text.toList

theorem Spelled.append {front front' back back' : String} (first : Spelled front front')
    (second : Spelled back back') : Spelled (front ++ back) (front' ++ back') := by
  have joined := Painted.append first second
  simpa [Spelled] using joined

theorem spelled_paint (color : Color) (text : String) : Spelled text (color.paint text) :=
  Painted.paint color text

theorem told_line (colored : Bool) (d : Diagnostic) :
    Diagnostic.Told Spelled d (line colored d) := by
  cases colored with
  | false =>
    apply d.told_text.mono
    rintro text shown rfl
    exact .refl text
  | true =>
    have severity := spelled_paint (.ofSeverity d.severity) d.severity.text
    cases place : d.location with
    | none =>
      have shown := Diagnostic.Told.unlocated place severity
      simpa [line, place] using shown
    | some p =>
      have shown := Diagnostic.Told.located place (spelled_paint .bold p.text) severity
      simpa [line, place, String.append_assoc] using shown

theorem spelled_of_told {d : Diagnostic} {line : String} (told : Diagnostic.Told Spelled d line) :
    Spelled d.text line := by
  cases told with
  | located place position severity =>
    have joined := ((((position.append (.refl ": ")).append severity).append (.refl " ")).append
      (.refl (Nat.repr d.category.code))).append ((Spelled.refl ": ").append (.refl d.message))
    simpa [Diagnostic.text, place, Position.text, String.append_assoc] using joined
  | unlocated place severity =>
    have joined := ((severity.append (.refl " ")).append (.refl (Nat.repr d.category.code))).append
      ((Spelled.refl ": ").append (.refl d.message))
    simpa [Diagnostic.text, place, String.append_assoc] using joined

/-- The output has one line for each diagnostic, in their order. -/
def Prints (diagnostics : List Diagnostic) (output : String) : Prop :=
  ∃ lines, List.Forall₂ (Diagnostic.Told Spelled) diagnostics lines ∧
    output = String.join (lines.map (· ++ "\n"))

theorem prints_lines (colored : Bool) (diagnostics : List Diagnostic) :
    Prints diagnostics (String.join (diagnostics.map fun d => line colored d ++ "\n")) := by
  refine ⟨diagnostics.map (line colored), ?_, by rw [List.map_map]; rfl⟩
  exact List.forall₂_map_right_iff.mpr (List.forall₂_same.mpr fun d _ => told_line colored d)

/-- What stands in the text is shown, on one line. -/
def Clear (text : String) : Prop := ∀ c ∈ text.toList, c ≠ '\n' ∧ isSilent c = false

instance (text : String) : Decidable (Clear text) :=
  List.decidableBAll (fun c => c ≠ '\n' ∧ isSilent c = false) text.toList

/-- The line of the diagnostic can be told from those of others. -/
structure Readable (d : Diagnostic) : Prop where
  file : ∀ p ∈ d.location, Diagnostic.Unbroken p.file.toList ∧ Clear p.file
  message : Clear d.message

/-- Reads lines as a terminal shows them. -/
def readLines? (output : String) : Option (List Diagnostic) :=
  ((Text.visible output).toList.splitOn '\n').dropLast.mapM Diagnostic.readLine?

theorem clear_append {front back : String} (first : Clear front) (second : Clear back) :
    Clear (front ++ back) := by
  intro c h
  rw [String.toList_append] at h
  exact (List.mem_append.mp h).elim (first c) (second c)

theorem clear_repr (n : Nat) : Clear (Nat.repr n) := by
  intro c h
  rw [Nat.toList_repr] at h
  have range := Text.toNat_of_isDecimalDigit (Text.isDecimalDigit_of_mem_toDigits h)
  have high : ¬c < ' ' := by
    change ¬c.toNat < 32
    omega
  refine ⟨?_, ?_⟩
  · rintro rfl
    exact absurd range (by decide)
  · have other : c ≠ '\x7f' := by
      rintro rfl
      exact absurd range (by decide)
    simp [isSilent, high, other]

theorem Readable.clear_text {d : Diagnostic} (readable : Readable d) : Clear d.text := by
  have severity : Clear d.severity.text := by cases d.severity <;> decide
  have grade : Clear (d.severity.text ++ " " ++ Nat.repr d.category.code ++ ": " ++ d.message) := by
    refine clear_append (clear_append (clear_append (clear_append severity ?_) ?_) ?_) ?_
    · decide
    · exact clear_repr _
    · decide
    · exact readable.message
  cases place : d.location with
  | none => simpa [Diagnostic.text, place] using grade
  | some p =>
    have file := (readable.file p place).2
    have position : Clear (p.text ++ ": ") := by
      refine clear_append (clear_append (clear_append file ?_) (clear_repr _)) ?_
      · decide
      · decide
    simpa [Diagnostic.text, place, String.append_assoc] using clear_append position grade

theorem mapM_map_eq_map {α β γ : Type} {read : β → Option γ} {write : α → β} {told : α → γ}
    {list : List α} (each : ∀ a ∈ list, read (write a) = some (told a)) :
    (list.map write).mapM read = some (list.map told) := by
  induction list with
  | nil => rfl
  | cons a rest ih =>
    obtain ⟨first, each⟩ := List.forall_mem_cons.mp each
    simp [first, ih each]

theorem mapM_map_eq_some {α β : Type} {read : β → Option α} {write : α → β} {list : List α}
    (back : ∀ a ∈ list, read (write a) = some a) : (list.map write).mapM read = some list := by
  simpa using mapM_map_eq_map back

/-- What a terminal shows of clear lines. -/
theorem visible_join {texts lines : List String} (spelled : List.Forall₂ Spelled texts lines)
    (clear : ∀ text ∈ texts, Clear text) :
    (Text.visible (String.join (lines.map (· ++ "\n")))).toList =
      (texts.map String.toList).flatMap (· ++ ['\n']) := by
  have each : (Display.shown none).visible (lines.flatMap fun line => line.toList ++ ['\n']) =
      (texts.map String.toList).flatMap (· ++ ['\n']) := by
    induction spelled with
    | nil => rfl
    | cons first _ ih =>
      obtain ⟨here, clear⟩ := List.forall_mem_cons.mp clear
      rw [List.flatMap_cons, List.append_assoc, first.visible fun c h => (here c h).2,
        List.singleton_append, visible_of_isSilent (by decide), ih clear]
      simp
  simpa [Text.visible, List.flatMap_map] using each

theorem splitOn_lines {lines : List (List Char)} (single : ∀ line ∈ lines, '\n' ∉ line) :
    (lines.flatMap (· ++ ['\n'])).splitOn '\n' = lines ++ [[]] := by
  induction lines with
  | nil => rfl
  | cons line rest ih =>
    obtain ⟨first, single⟩ := List.forall_mem_cons.mp single
    rw [List.flatMap_cons, List.append_assoc, List.singleton_append,
      List.splitOn_append_cons_self_of_not_mem first, ih single]
    rfl

/-- Readable diagnostics are read back from their lines, each as it is and all in order. -/
theorem readLines?_of_prints {diagnostics : List Diagnostic} {output : String}
    (prints : Prints diagnostics output) (readable : ∀ d ∈ diagnostics, Readable d) :
    readLines? output = some diagnostics := by
  obtain ⟨lines, told, rfl⟩ := prints
  have spelled : List.Forall₂ Spelled (diagnostics.map Diagnostic.text) lines :=
    List.forall₂_map_left_iff.mpr (told.imp fun _ _ => spelled_of_told)
  have clear : ∀ text ∈ diagnostics.map Diagnostic.text, Clear text :=
    List.forall_mem_map.mpr fun d h => (readable d h).clear_text
  have single : ∀ line ∈ (diagnostics.map Diagnostic.text).map String.toList, '\n' ∉ line := by
    intro line h broken
    obtain ⟨text, inside, rfl⟩ := List.mem_map.mp h
    exact (clear text inside _ broken).1 rfl
  have read : ∀ d ∈ diagnostics, Diagnostic.readLine? d.text.toList = some d :=
    fun d h => Diagnostic.readLine?_text fun p place => ((readable d h).file p place).1
  rw [readLines?, visible_join spelled clear, splitOn_lines single, List.dropLast_concat,
    List.map_map]
  exact mapM_map_eq_some read

end ApiCompat.Report
