import ApiCompat.Proofs.Text.Brackets
import ApiCompat.Proofs.Text.Scanning
import ApiCompat.Snapshot.Position

/-! Positions and their texts. A line number is read back from its decimal digits, and these hold no
colon, so the last colon of a position's text is the one before the line, whatever the file's name
holds. Only white space in front of the name is lost, and no position that is read has any. -/
namespace ApiCompat

namespace Text

theorem isDecimalDigit_of_mem_toDigits {n : Nat} {c : Char} (h : c ∈ Nat.toDigits 10 n) :
    isDecimalDigit c = true := by
  have digit := Nat.isDigit_of_mem_toDigits (by decide) (by decide) h
  simpa [isDecimalDigit, Char.isDigit, Char.le_def] using digit

theorem toNat_of_isDecimalDigit {c : Char} (digit : isDecimalDigit c = true) :
    48 ≤ c.toNat ∧ c.toNat ≤ 57 := by
  simpa [isDecimalDigit, Char.le_def, UInt32.le_iff_toNat_le] using digit

theorem isBlank_of_isDecimalDigit {c : Char} (digit : isDecimalDigit c = true) :
    isBlank c = false := by
  have range := toNat_of_isDecimalDigit digit
  rw [← Bool.not_eq_true]
  simp only [isBlank, Bool.or_eq_true, Bool.and_eq_true, decide_eq_true_eq, beq_iff_eq]
  omega

theorem decimalValue_toDigits (n : Nat) : decimalValue (Nat.toDigits 10 n) = n := by
  have value := @Nat.ofDigitChars_toDigits 10 n (by decide) (by decide)
  rw [Nat.ofDigitChars_eq_foldl] at value
  simpa only [decimalValue, Nat.mul_comm] using value

theorem readDecimal?_toDigits (n : Nat) : readDecimal? (Nat.toDigits 10 n) = some n := by
  have digits : (Nat.toDigits 10 n).all isDecimalDigit = true :=
    List.all_eq_true.mpr fun c => isDecimalDigit_of_mem_toDigits
  rw [readDecimal?, if_pos ⟨Nat.toDigits_ne_nil, digits⟩, decimalValue_toDigits]

theorem isDecimalDigit_of_readDecimal? {text : List Char} {n : Nat}
    (read : readDecimal? text = some n) {c : Char} (h : c ∈ text) : isDecimalDigit c = true := by
  unfold readDecimal? at read
  split at read
  · rename_i digits
    exact List.all_eq_true.mp digits.2 c h
  · cases read

theorem readWord?_toDigits (word : UInt32) :
    readWord? (Nat.toDigits 10 word.toNat) = some word := by
  have unsigned : ∀ rest, Nat.toDigits 10 word.toNat ≠ '+' :: rest := by
    intro rest signed
    have digit : isDecimalDigit '+' = true :=
      isDecimalDigit_of_mem_toDigits (signed ▸ List.mem_cons_self)
    exact absurd digit (by decide)
  rw [readWord?, readDecimal?_toDigits]
  · simp [UInt32.toNat_lt_size]
  · exact unsigned

theorem trimStart_eq_self_iff {text : List Char} :
    trimStart text = text ↔ ∀ c ∈ text.head?, isBlank c = false := by
  cases text with
  | nil => simp [trimStart]
  | cons c rest =>
    constructor
    · intro same d first
      cases first
      have head := List.head?_dropWhile_not isBlank (c :: rest)
      rw [← trimStart, same] at head
      simpa using head
    · intro solid
      exact List.dropWhile_cons_of_neg (by simp [solid c rfl])

/-- No beginning of a trimmed text begins with a blank. -/
theorem trimStart_of_prefix_trim {front text : List Char} (begins : front <+: trim text) :
    trimStart front = front := by
  refine trimStart_eq_self_iff.mpr fun c first => ?_
  obtain ⟨trail, same, _⟩ := exists_trimEnd (trimStart text)
  have start : front <+: text.dropWhile isBlank := begins.trans ⟨trail, same.symm⟩
  have head := List.head?_dropWhile_not isBlank text
  obtain ⟨rest, rfl⟩ := List.head?_eq_some_iff.mp first
  obtain ⟨behind, whole⟩ := start
  rw [← whole] at head
  simpa using head

theorem trim_eq_nil_iff {text : List Char} : trim text = [] ↔ ∀ c ∈ text, isBlank c = true := by
  constructor
  · intro nothing
    obtain ⟨lead, trail, same, before, behind⟩ := exists_trim text
    rw [same, nothing]
    intro c h
    rcases List.mem_append.mp h with h | h
    · exact before c h
    · exact behind c h
  · intro blank
    have nothing : trimStart text = [] := List.dropWhile_eq_nil_iff.mpr blank
    rw [trim, nothing]
    rfl

end Text

namespace Position

open Text

theorem colon_notMem_toDigits (n : Nat) : ':' ∉ Nat.toDigits 10 n :=
  fun h => absurd (isDecimalDigit_of_mem_toDigits h) (by decide)

theorem splitAtLastColon?_append {file line : List Char} (plain : ':' ∉ line) :
    splitAtLastColon? (file ++ ':' :: line) = some (file, line) := by
  have passed : ∀ c ∈ line.reverse, (c != ':') = true := by
    intro c h
    simpa using fun same : c = ':' => plain (same ▸ List.mem_reverse.mp h)
  have backwards : (file ++ ':' :: line).reverse = line.reverse ++ ':' :: file.reverse := by simp
  rw [splitAtLastColon?, backwards, List.dropWhile_append_of_pos passed,
    List.takeWhile_append_of_pos passed]
  simp

theorem eq_of_splitAtLastColon? {text file line : List Char}
    (found : splitAtLastColon? text = some (file, line)) : text = file ++ ':' :: line := by
  unfold splitAtLastColon? at found
  split at found
  · cases found
  · rename_i c rest colon
    cases found
    have first := List.head?_dropWhile_not (· != ':') text.reverse
    rw [colon] at first
    obtain rfl : c = ':' := by simpa using first
    have whole := List.takeWhile_append_dropWhile (p := (· != ':')) (l := text.reverse)
    rw [colon] at whole
    simpa using (congrArg List.reverse whole).symm

variable {token : String} {p : Position}

theorem toList_text (p : Position) :
    p.text.toList = p.file.toList ++ ':' :: Nat.toDigits 10 p.line.toNat := by
  simp [text]

/-- Of a position's text, trimming takes the white space in front of the file's name. -/
theorem trim_text (p : Position) :
    trim p.text.toList = trimStart p.file.toList ++ ':' :: Nat.toDigits 10 p.line.toNat := by
  have start : trimStart p.text.toList =
      trimStart p.file.toList ++ ':' :: Nat.toDigits 10 p.line.toNat := by
    rw [toList_text, trimStart, List.dropWhile_append]
    split_ifs with blank
    · rw [trimStart, List.isEmpty_iff.mp blank]
      rfl
    · rfl
  rw [trim, start]
  rcases List.eq_nil_or_concat (Nat.toDigits 10 p.line.toNat) with none | ⟨digits, last, same⟩
  · exact absurd none Nat.toDigits_ne_nil
  · have digit : isDecimalDigit last = true := isDecimalDigit_of_mem_toDigits (by rw [same]; simp)
    refine trimEnd_self ⟨trimStart p.file.toList ++ ':' :: digits, last, by simp [same], ?_⟩
    exact isBlank_of_isDecimalDigit digit

/-- The text of a position is read as the position, up to white space in front of the file's name. -/
theorem parse?_text (p : Position) :
    parse? p.text = some ⟨String.ofList (trimStart p.file.toList), p.line⟩ := by
  have plain := colon_notMem_toDigits p.line.toNat
  simp only [parse?, trim_text, splitAtLastColon?_append plain, readWord?_toDigits]
  simp

theorem parse?_eq_none_iff : parse? token = none ↔ ∀ c ∈ token.toList, isBlank c = true := by
  rw [← trim_eq_nil_iff]
  unfold parse?
  dsimp only
  split_ifs with nothing
  · simp [nothing]
  · refine iff_of_false ?_ nothing
    split
    · simp
    · split <;> simp

theorem trimStart_file_of_parse? (read : parse? token = some p) :
    trimStart p.file.toList = p.file.toList := by
  have whole := @trimStart_of_prefix_trim _ token.toList (List.prefix_refl _)
  unfold parse? at read
  dsimp only at read
  split_ifs at read
  split at read
  · cases read
    simpa using whole
  · rename_i file digits found
    have begins : file <+: trim token.toList := ⟨_, (eq_of_splitAtLastColon? found).symm⟩
    split at read
    · cases read
      simpa using trimStart_of_prefix_trim begins
    · cases read
      simpa using whole

/-- A position that is read is read again from its text. Of all positions, these are the ones whose
file's name does not begin with white space, whatever else it holds and whatever the line; and only
from white space is none read. -/
theorem text_normal_form :
    (∀ token p, parse? token = some p → parse? p.text = some p) ∧
    (∀ p : Position, parse? p.text = some p ↔ ∀ c ∈ p.file.toList.head?, isBlank c = false) ∧
    ∀ token, parse? token = none ↔ ∀ c ∈ token.toList, isBlank c = true := by
  have fixed (p : Position) : parse? p.text = some p ↔ trimStart p.file.toList = p.file.toList := by
    obtain ⟨file, line⟩ := p
    rw [parse?_text]
    simp [String.ext_iff]
  refine ⟨fun token p read => ?_, fun p => ?_, fun token => parse?_eq_none_iff⟩
  · exact (fixed p).mpr (trimStart_file_of_parse? read)
  · rw [fixed, trimStart_eq_self_iff]

/-- A number that is too large for a line stays in the file's name, which is read again whole. -/
theorem text_normal_form_overflow :
    parse? "\ta:+7:4294967296 " = some ⟨"a:+7:4294967296", 0⟩ ∧
      parse? (text ⟨"a:+7:4294967296", 0⟩) = some ⟨"a:+7:4294967296", 0⟩ := by
  have read : parse? "\ta:+7:4294967296 " = some ⟨"a:+7:4294967296", 0⟩ := by decide +kernel
  exact ⟨read, text_normal_form.1 _ _ read⟩

end Position

end ApiCompat
