import ApiCompat.Text.Blank
import ApiCompat.Text.Bracket
import Mathlib.Data.List.Infix

/-! Counting brackets. The balance check compares counts: no part of a text from its start closes more
than it opens. The scans that cut a text keep a depth which never falls below zero, so they agree
with the counts only where nothing is closed too often. Each scan is described by how the text is
put together from what it finds, and every part that is cut out of a text whose angle brackets
close is again such a text. -/
namespace ApiCompat.Text

/-- The opening brackets of a text less the closing ones. -/
def net (opening closing : Char) (text : List Char) : Int :=
  (text.count opening : Int) - text.count closing

/-- Counted from the left, where `start` brackets are open already, the number of open brackets is
always an allowed one, and nothing is open in the end. -/
structure Counted (opening closing : Char) (allowed : Int → Prop) (start : Int)
    (text : List Char) : Prop where
  within : ∀ front, front <+: text → allowed (start + net opening closing front)
  ends : start + net opening closing text = 0

/-- Angle brackets never close more than is open. -/
abbrev Closes : Int → List Char → Prop := Counted '<' '>' (0 ≤ ·)

/-- Square brackets are open one at a time. -/
abbrev ClosesSquares : Int → List Char → Prop := Counted '[' ']' (fun n => 0 ≤ n ∧ n ≤ 1)

/-- The brackets of both kinds pair up by counting. -/
structure Paired (text : List Char) : Prop where
  angles : Closes 0 text
  squares : ClosesSquares 0 text

section Net

variable {opening closing : Char} {allowed : Int → Prop} {start : Int} {c : Char}
  {rest front back : List Char}

@[simp] theorem net_nil : net opening closing [] = 0 := rfl

theorem net_append (front back : List Char) :
    net opening closing (front ++ back) = net opening closing front + net opening closing back := by
  simp only [net, List.count_append]
  omega

theorem net_cons (c : Char) (rest : List Char) :
    net opening closing (c :: rest) = net opening closing [c] + net opening closing rest :=
  net_append [c] rest

theorem net_plain {text : List Char} (plain : ∀ c ∈ text, c ≠ opening ∧ c ≠ closing) :
    net opening closing text = 0 := by
  have unopened : opening ∉ text := fun h => (plain _ h).1 rfl
  have unclosed : closing ∉ text := fun h => (plain _ h).2 rfl
  simp [net, List.count_eq_zero_of_not_mem, unopened, unclosed]

theorem net_of_ne (other : c ≠ opening ∧ c ≠ closing) : net opening closing [c] = 0 := by
  refine net_plain fun d hd => ?_
  cases List.mem_singleton.mp hd
  exact other

theorem counted_nil_iff : Counted opening closing allowed start [] ↔ allowed start ∧ start = 0 := by
  constructor
  · intro counted
    exact ⟨by simpa using counted.within [] List.nil_prefix, by simpa using counted.ends⟩
  · rintro ⟨fits, nothing⟩
    refine ⟨fun front h => ?_, by simpa using nothing⟩
    cases List.prefix_nil.mp h
    simpa using fits

theorem counted_cons_iff : Counted opening closing allowed start (c :: rest) ↔
    allowed start ∧ Counted opening closing allowed (start + net opening closing [c]) rest := by
  have shift (front : List Char) : start + net opening closing (c :: front) =
      start + net opening closing [c] + net opening closing front := by
    rw [net_cons]
    omega
  constructor
  · intro counted
    refine ⟨by simpa using counted.within [] List.nil_prefix, fun front h => ?_, ?_⟩
    · rw [← shift]
      exact counted.within _ (List.cons_prefix_cons.mpr ⟨rfl, h⟩)
    · rw [← shift]
      exact counted.ends
  · rintro ⟨fits, counted⟩
    refine ⟨fun front h => ?_, by rw [shift]; exact counted.ends⟩
    rcases List.prefix_cons_iff.mp h with rfl | ⟨front, rfl, shorter⟩
    · simpa using fits
    · rw [shift]
      exact counted.within front shorter

theorem Counted.start_allowed {text : List Char}
    (counted : Counted opening closing allowed start text) : allowed start := by
  simpa using counted.within [] List.nil_prefix

theorem Counted.cut (counted : Counted opening closing allowed start (front ++ back))
    (shut : start + net opening closing front = 0) :
    Counted opening closing allowed start front ∧ Counted opening closing allowed 0 back := by
  refine ⟨⟨fun part h => counted.within part (h.trans (List.prefix_append _ _)), shut⟩, ?_, ?_⟩
  · intro part h
    have fits := counted.within (front ++ part) ((List.prefix_append_right_inj front).mpr h)
    rw [net_append, ← Int.add_assoc, shut] at fits
    exact fits
  · have ends := counted.ends
    rw [net_append] at ends
    omega

end Net

/-- The balance check, begun where some angle brackets and perhaps a square one are open. -/
theorem balancedFrom_iff (angle : Nat) (square : Bool) (text : List Char) :
    balancedFrom angle square text = true ↔
      Closes angle text ∧ ClosesSquares square.toNat text := by
  induction text generalizing angle square with
  | nil =>
    have angles : Closes angle [] ↔ _ := counted_nil_iff
    have squares : ClosesSquares square.toNat [] ↔ _ := counted_nil_iff
    rw [balancedFrom, angles, squares]
    cases square <;> simp
  | cons c rest ih =>
    have angles : Closes angle (c :: rest) ↔ Closes (angle + net '<' '>' [c]) rest :=
      counted_cons_iff.trans (and_iff_right (Int.natCast_nonneg angle))
    have squares : ClosesSquares square.toNat (c :: rest) ↔
        ClosesSquares (square.toNat + net '[' ']' [c]) rest :=
      counted_cons_iff.trans (and_iff_right (by cases square <;> decide))
    rw [balancedFrom, angles, squares]
    split_ifs with opens closes opensSquare closesSquare
    · subst opens
      simpa [net] using ih (angle + 1) square
    · subst closes
      cases angle with
      | zero =>
        have excess : ¬Closes ((0 : Nat) + net '<' '>' ['>']) rest :=
          fun h => absurd h.start_allowed (by decide)
        exact iff_of_false (by simp) fun h => excess h.1
      | succ n => simpa [net, Int.add_assoc] using ih n square
    · subst opensSquare
      cases square with
      | false => simpa [net] using ih angle true
      | true =>
        have excess : ¬ClosesSquares (true.toNat + net '[' ']' ['[']) rest :=
          fun h => absurd h.start_allowed (by decide)
        exact iff_of_false (by simp) fun h => excess h.2
    · subst closesSquare
      cases square with
      | false =>
        have excess : ¬ClosesSquares (false.toNat + net '[' ']' [']']) rest :=
          fun h => absurd h.start_allowed (by decide)
        exact iff_of_false (by simp) fun h => excess h.2
      | true => simpa [net] using ih angle false
    · rw [net_of_ne ⟨opens, closes⟩, net_of_ne ⟨opensSquare, closesSquare⟩]
      simpa using ih angle square

theorem balanced_iff (text : List Char) : balanced text = true ↔ Paired text := by
  rw [balanced, balancedFrom_iff]
  exact ⟨fun h => ⟨h.1, h.2⟩, fun h => ⟨h.angles, h.squares⟩⟩

end ApiCompat.Text
