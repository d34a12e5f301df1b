import ApiCompat.Proofs.Text.Scanning
import ApiCompat.Snapshot.Description

/-! What is left of a text when everything in angle brackets is dropped. Where the brackets close, it
is the text before, between and behind the groups; and the blanks around the text stay around it. -/
namespace ApiCompat

open Text

section Outside

variable {text front back inside : List Char}

theorem outsideBrackets_append (depth : Nat) (front back : List Char) :
    outsideBrackets depth (front ++ back) =
      outsideBrackets depth front ++ outsideBrackets (depthOf depth front) back := by
  induction front generalizing depth with
  | nil => rfl
  | cons c rest ih =>
    simp only [List.cons_append, outsideBrackets, ih, depthOf_cons]
    split_ifs <;> rfl

theorem outsideBrackets_plain (plain : ∀ c ∈ text, c ≠ '<' ∧ c ≠ '>') :
    outsideBrackets 0 text = text := by
  induction text with
  | nil => rfl
  | cons c rest ih =>
    obtain ⟨opens, closes⟩ := plain c List.mem_cons_self
    have level : depthAfter 0 c = 0 := by simp [depthAfter, opens, closes]
    have others := ih fun d hd => plain d (List.mem_cons_of_mem c hd)
    simp [outsideBrackets, level, others, opens, closes]

theorem mem_of_mem_outsideBrackets {depth : Nat} {c : Char} (h : c ∈ outsideBrackets depth text) :
    c ∈ text := by
  induction text generalizing depth with
  | nil => cases h
  | cons d rest ih =>
    rw [outsideBrackets] at h
    split_ifs at h
    · exact List.mem_cons_of_mem d (ih h)
    · exact (List.mem_cons.mp h).elim (· ▸ List.mem_cons_self) fun h => List.mem_cons_of_mem d (ih h)

/-- Nothing of a group is left. -/
theorem outsideBrackets_inside {depth : Nat} (closes : Closes depth inside) :
    outsideBrackets (depth + 1) inside = [] := by
  induction inside generalizing depth with
  | nil => rfl
  | cons c rest ih =>
    obtain ⟨_, behind⟩ := counted_cons_iff.mp closes
    have fits : c = '>' → 0 < depth := by
      rintro rfl
      have down : net '<' '>' ['>'] = -1 := rfl
      have := behind.start_allowed
      omega
    rw [← natCast_depthAfter fits] at behind
    simp [outsideBrackets, depthAfter_succ fits, ih behind]

theorem outsideBrackets_group (closes : Closes 0 inside) (behind : List Char) :
    outsideBrackets 0 ('<' :: (inside ++ '>' :: behind)) = outsideBrackets 0 behind := by
  have group : outsideBrackets 0 ('<' :: (inside ++ ['>'])) = [] := by
    have content : outsideBrackets 1 inside = [] := outsideBrackets_inside closes
    have up : depthAfter 0 '<' = 1 := rfl
    simp [outsideBrackets, up, outsideBrackets_append, content]
  have apart : '<' :: (inside ++ '>' :: behind) = '<' :: (inside ++ ['>']) ++ behind := by simp
  rw [apart, outsideBrackets_append, group, closes.depthOf_group, List.nil_append]

/-- Where the brackets close, the scan leaves the text outside the groups. -/
theorem outsideBrackets_eq_bare {cut : Outline} (outlines : Outlines text cut)
    (closes : Closes 0 text) : outsideBrackets 0 text = cut.bare := by
  have plain {text : List Char} (unopened : '<' ∉ text) (closes : Closes 0 text) :
      outsideBrackets 0 text = text :=
    outsideBrackets_plain ((Outlines.tail unopened).plain_bare closes)
  induction outlines with
  | tail unopened => exact plain unopened closes
  | unclosed unopened stays =>
    have shut := closes.depth_eq
    rw [depthOf_append, Outlines.depthOf_unopened unopened] at shut
    exact absurd shut stays
  | @group before inside behind rest unopened whole _ ih =>
    obtain ⟨start, more⟩ := closes.cut_at (Outlines.depthOf_unopened unopened)
    have apart : '<' :: (inside ++ '>' :: behind) = '<' :: (inside ++ ['>']) ++ behind := by simp
    have rest := (@Closes.cut_at ('<' :: (inside ++ ['>'])) behind (apart ▸ more)
      whole.depthOf_group).2
    rw [outsideBrackets_append, Outlines.depthOf_unopened unopened, plain unopened start,
      outsideBrackets_group whole, ih rest]
    rfl

end Outside

section Trim

variable {lead text trail : List Char}

theorem trim_between (before : ∀ c ∈ lead, isBlank c = true)
    (behind : ∀ c ∈ trail, isBlank c = true) : trim (lead ++ (text ++ trail)) = trim text := by
  have start : trimStart (lead ++ (text ++ trail)) = trimStart (text ++ trail) :=
    List.dropWhile_append_of_pos before
  have ends (part : List Char) : trimEnd (part ++ trail) = trimEnd part := by
    rw [trimEnd, List.reverse_append, List.dropWhile_append_of_pos (by simpa using behind), trimEnd]
  rw [trim, start, trim, trimStart, List.dropWhile_append]
  split_ifs with blank
  · have nothing : trail.dropWhile isBlank = [] := List.dropWhile_eq_nil_iff.mpr behind
    rw [nothing, trimStart, List.isEmpty_iff.mp blank]
  · exact ends _

/-- The blanks around a text are left around what is left of it. -/
theorem trim_outsideBrackets_trim (text : List Char) :
    trim (outsideBrackets 0 (trim text)) = trim (outsideBrackets 0 text) := by
  obtain ⟨lead, trail, same, before, behind⟩ := exists_trim text
  have plain : ∀ c ∈ lead, c ≠ '<' ∧ c ≠ '>' := fun c h => angle_of_isBlank (before c h)
  conv_rhs => rw [same]
  rw [outsideBrackets_append, outsideBrackets_append, depthOf_plain 0 plain,
    outsideBrackets_plain plain,
    trim_between before fun c h => behind c (mem_of_mem_outsideBrackets h)]

end Trim

end ApiCompat
