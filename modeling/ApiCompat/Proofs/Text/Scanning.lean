import ApiCompat.Proofs.Text.Counting
import Mathlib.Data.List.TakeWhile

/-! What the scans over angle brackets find. Each scan is described by the way in which a text is put
together from what the scan gives. The depth that the scans keep is the count of open brackets
wherever nothing is closed too often, and it is never below that count. So a text that ends at depth
zero has no bracket that stays open, and whatever is cut out of a text whose brackets close is such a
text again. -/
namespace ApiCompat.Text

def depthOf (depth : Nat) (text : List Char) : Nat := text.foldl depthAfter depth

section Depth

variable {depth : Nat} {c : Char} {text front back rest : List Char}

theorem depthOf_append (depth : Nat) (front back : List Char) :
    depthOf depth (front ++ back) = depthOf (depthOf depth front) back :=
  List.foldl_append

theorem depthOf_cons (depth : Nat) (c : Char) (rest : List Char) :
    depthOf depth (c :: rest) = depthOf (depthAfter depth c) rest := rfl

/-- One step of the depth is one step of the count, unless a bracket is closed that is not open. -/
theorem natCast_depthAfter (fits : c = '>' → 0 < depth) :
    (depthAfter depth c : Int) = depth + net '<' '>' [c] := by
  unfold depthAfter
  split_ifs with opens closes
  · subst opens
    rfl
  · subst closes
    have down : net '<' '>' ['>'] = -1 := rfl
    have := fits rfl
    omega
  · rw [net_of_ne ⟨opens, closes⟩, Int.add_zero]

theorem le_depthAfter (depth : Nat) (c : Char) :
    depth + net '<' '>' [c] ≤ (depthAfter depth c : Int) := by
  by_cases stray : c = '>' ∧ depth = 0
  · obtain ⟨rfl, rfl⟩ := stray
    decide
  · refine Int.le_of_eq (natCast_depthAfter fun closes => ?_).symm
    exact Nat.pos_of_ne_zero fun nothing => stray ⟨closes, nothing⟩

theorem le_depthOf (depth : Nat) (text : List Char) :
    depth + net '<' '>' text ≤ (depthOf depth text : Int) := by
  induction text generalizing depth with
  | nil => simp [depthOf]
  | cons c rest ih =>
    have step := le_depthAfter depth c
    have later := ih (depthAfter depth c)
    rw [net_cons, depthOf_cons]
    omega

theorem natCast_depthOf
    (within : ∀ front, front <+: text → 0 ≤ (depth : Int) + net '<' '>' front) :
    (depthOf depth text : Int) = depth + net '<' '>' text := by
  induction text generalizing depth with
  | nil => simp [depthOf]
  | cons c rest ih =>
    have first := within [c] (by simp)
    have step : (depthAfter depth c : Int) = depth + net '<' '>' [c] := by
      refine natCast_depthAfter ?_
      rintro rfl
      have down : net '<' '>' ['>'] = -1 := rfl
      omega
    have later := @ih (depthAfter depth c) fun front h => by
      have whole := within (c :: front) (List.cons_prefix_cons.mpr ⟨rfl, h⟩)
      rw [net_cons] at whole
      omega
    rw [net_cons, depthOf_cons]
    omega

theorem Closes.depth_eq (closes : Closes depth text) : depthOf depth text = 0 := by
  have counted := natCast_depthOf closes.within
  have ends := closes.ends
  omega

/-- Deeper by one, a step goes the same way. -/
theorem depthAfter_succ (fits : c = '>' → 0 < depth) :
    depthAfter (depth + 1) c = depthAfter depth c + 1 := by
  unfold depthAfter
  split_ifs with opens closes
  · rfl
  · have := fits closes
    omega
  · rfl

/-- The depth comes back to where it was. -/
theorem Closes.depthOf_group {inside : List Char} (closes : Closes 0 inside) :
    depthOf 0 ('<' :: (inside ++ ['>'])) = 0 := by
  have up : depthAfter 0 '<' = 1 := rfl
  have inner := @natCast_depthOf 1 inside fun front h => by
    have := closes.within front h
    omega
  have ends := closes.ends
  have level : depthOf 1 inside = 1 := by omega
  rw [depthOf_cons, up, depthOf_append, level]
  rfl

/-- A text with as many brackets of either sort that ends at depth zero closes nothing too often. -/
theorem closes_of_depthOf (shut : depthOf 0 text = 0) (even : net '<' '>' text = 0) :
    Closes 0 text := by
  refine ⟨fun front h => ?_, by omega⟩
  obtain ⟨back, rfl⟩ := h
  have behind := le_depthOf (depthOf 0 front) back
  rw [← depthOf_append, shut] at behind
  rw [net_append] at even
  omega

theorem Closes.cut_at (closes : Closes 0 (front ++ back)) (shut : depthOf 0 front = 0) :
    Closes 0 front ∧ Closes 0 back := by
  have counted := @natCast_depthOf 0 front fun part h =>
    closes.within part (h.trans (List.prefix_append front back))
  exact closes.cut (by omega)

theorem depthOf_plain (depth : Nat) (plain : ∀ c ∈ text, c ≠ '<' ∧ c ≠ '>') :
    depthOf depth text = depth := by
  induction text with
  | nil => rfl
  | cons c rest ih =>
    have apart := plain c List.mem_cons_self
    have same : depthAfter depth c = depth := by simp [depthAfter, apart]
    rw [depthOf_cons, same]
    exact ih fun d hd => plain d (List.mem_cons_of_mem c hd)

theorem Closes.strip {trail : List Char} (closes : Closes 0 (front ++ trail))
    (plain : ∀ c ∈ trail, c ≠ '<' ∧ c ≠ '>') : Closes 0 front := by
  have shut := closes.depth_eq
  rw [depthOf_append, depthOf_plain _ plain] at shut
  exact (closes.cut_at shut).1

theorem closes_plain (plain : ∀ c ∈ text, c ≠ '<' ∧ c ≠ '>') : Closes 0 text :=
  closes_of_depthOf (depthOf_plain 0 plain) (net_plain plain)

theorem Closes.append (closes : Closes 0 front) (closes' : Closes 0 back) :
    Closes 0 (front ++ back) := by
  refine closes_of_depthOf ?_ ?_
  · rw [depthOf_append, closes.depth_eq]
    exact closes'.depth_eq
  · have ends := closes.ends
    have ends' := closes'.ends
    rw [net_append]
    omega

theorem Closes.group {inside : List Char} (closes : Closes 0 inside) :
    Closes 0 ('<' :: (inside ++ ['>'])) := by
  refine closes_of_depthOf closes.depthOf_group ?_
  have ends := closes.ends
  have up : net '<' '>' ['<'] = 1 := rfl
  have down : net '<' '>' ['>'] = -1 := rfl
  rw [net_cons, net_append]
  omega

theorem Closes.intercalate {glue : List Char} (between : Closes 0 glue)
    {texts : List (List Char)} (each : ∀ text ∈ texts, Closes 0 text) :
    Closes 0 (glue.intercalate texts) := by
  induction texts with
  | nil => exact closes_plain (by simp)
  | cons text texts ih =>
    have first := each text List.mem_cons_self
    have others := ih fun text h => each text (List.mem_cons_of_mem _ h)
    cases texts with
    | nil => rwa [List.intercalate_singleton]
    | cons next rest =>
      rw [List.intercalate_cons_cons]
      exact (first.append between).append others

end Depth

section Trim

theorem exists_trimEnd (text : List Char) :
    ∃ trail, text = trimEnd text ++ trail ∧ ∀ c ∈ trail, isBlank c = true := by
  refine ⟨(text.reverse.takeWhile isBlank).reverse, ?_, fun c h => ?_⟩
  · rw [trimEnd, ← List.reverse_append, List.takeWhile_append_dropWhile, List.reverse_reverse]
  · exact List.mem_takeWhile_imp (List.mem_reverse.mp h)

theorem exists_trim (text : List Char) : ∃ lead trail, text = lead ++ (trim text ++ trail) ∧
    (∀ c ∈ lead, isBlank c = true) ∧ ∀ c ∈ trail, isBlank c = true := by
  obtain ⟨trail, ends, behind⟩ := exists_trimEnd (trimStart text)
  refine ⟨text.takeWhile isBlank, trail, ?_, fun c h => List.mem_takeWhile_imp h, behind⟩
  rw [trim, ← ends, trimStart, List.takeWhile_append_dropWhile]

theorem angle_of_isBlank {c : Char} (blank : isBlank c = true) : c ≠ '<' ∧ c ≠ '>' := by
  constructor <;>
  · rintro rfl
    cases blank

theorem depthOf_trim (text : List Char) : depthOf 0 (trim text) = depthOf 0 text := by
  obtain ⟨lead, trail, same, before, behind⟩ := exists_trim text
  conv_rhs => rw [same]
  rw [depthOf_append, depthOf_append, depthOf_plain 0 fun c h => angle_of_isBlank (before c h),
    depthOf_plain _ fun c h => angle_of_isBlank (behind c h)]

theorem Closes.trim {text : List Char} (closes : Closes 0 text) : Closes 0 (trim text) := by
  obtain ⟨lead, trail, same, before, behind⟩ := exists_trim text
  rw [same] at closes
  have inner := (closes.cut_at (depthOf_plain 0 fun c h => angle_of_isBlank (before c h))).2
  exact inner.strip fun c h => angle_of_isBlank (behind c h)

end Trim

/-- The pieces of a text, cut from the left at separators outside every bracket. -/
inductive Pieces (separator : Char) : List Char → List (List Char) → Prop where
  | last (text : List Char) : Pieces separator text [text]
  | cut {first rest : List Char} {pieces : List (List Char)} : depthOf 0 first = 0 →
      Pieces separator rest pieces → Pieces separator (first ++ separator :: rest) (first :: pieces)

section Pieces

variable {separator : Char} {text : List Char} {pieces : List (List Char)}

theorem pieces_splitFrom (separator : Char) (before text : List Char) : ∃ piece pieces,
    splitFrom separator (depthOf 0 before) text = piece :: pieces ∧
      Pieces separator (before ++ text) ((before ++ piece) :: pieces) := by
  induction text generalizing before with
  | nil =>
    refine ⟨[], [], rfl, ?_⟩
    rw [List.append_nil]
    exact .last before
  | cons c rest ih =>
    rw [splitFrom]
    split_ifs with here
    · obtain ⟨rfl, shut⟩ := here
      obtain ⟨piece, pieces, same, later⟩ := ih []
      refine ⟨[], piece :: pieces, by rw [shut, ← same]; rfl, ?_⟩
      rw [List.append_nil]
      exact .cut shut later
    · obtain ⟨piece, pieces, same, later⟩ := ih (before ++ [c])
      have step : depthOf 0 (before ++ [c]) = depthAfter (depthOf 0 before) c := depthOf_append ..
      rw [step] at same
      refine ⟨c :: piece, pieces, by rw [same, extendFirst], ?_⟩
      simpa using later

theorem pieces_splitTopLevel (separator : Char) (text : List Char) :
    Pieces separator text (splitTopLevel separator text) := by
  obtain ⟨piece, pieces, same, cut⟩ := pieces_splitFrom separator [] text
  have whole : splitTopLevel separator text = piece :: pieces := same
  rw [whole]
  exact cut

theorem Pieces.closes (cut : Pieces separator text pieces) (plain : separator ≠ '<' ∧ separator ≠ '>')
    (closes : Closes 0 text) : ∀ piece ∈ pieces, Closes 0 piece := by
  induction cut with
  | last text =>
    intro piece h
    cases List.mem_singleton.mp h
    exact closes
  | @cut first rest pieces shut _ ih =>
    obtain ⟨here, later⟩ := closes.cut_at shut
    have level : depthOf 0 [separator] = 0 := by simp [depthOf, depthAfter, plain]
    have behind := (@Closes.cut_at [separator] rest later level).2
    intro piece h
    rcases List.mem_cons.mp h with rfl | h
    · exact here
    · exact ih behind piece h

/-- A bracket that stays open is still open at the end of some piece. -/
theorem Pieces.exists_depthOf (cut : Pieces separator text pieces)
    (plain : separator ≠ '<' ∧ separator ≠ '>') :
    ∃ piece ∈ pieces, depthOf 0 piece = depthOf 0 text := by
  induction cut with
  | last text => exact ⟨text, List.mem_singleton_self text, rfl⟩
  | @cut first rest pieces shut _ ih =>
    obtain ⟨piece, h, same⟩ := ih
    refine ⟨piece, List.mem_cons_of_mem first h, ?_⟩
    have level : depthAfter 0 separator = 0 := by simp [depthAfter, plain]
    rw [same, depthOf_append, shut, depthOf_cons, level]

/-- How many separators stand where nothing is open, when `start` angle brackets are open before. -/
def outside (separator : Char) (start : Int) (text : List Char) : Nat :=
  (List.range text.length).countP fun i =>
    text[i]? == some separator && start + net '<' '>' (text.take i) == 0

theorem outside_cons (separator : Char) (start : Int) (c : Char) (rest : List Char) :
    outside separator start (c :: rest) = outside separator (start + net '<' '>' [c]) rest +
      if c = separator ∧ start = 0 then 1 else 0 := by
  have later : (fun i => (c :: rest)[i]? == some separator &&
      start + net '<' '>' ((c :: rest).take i) == 0) ∘ Nat.succ = fun i =>
        rest[i]? == some separator && start + net '<' '>' [c] + net '<' '>' (rest.take i) == 0 := by
    funext i
    have shift : net '<' '>' (c :: rest.take i) = net '<' '>' [c] + net '<' '>' (rest.take i) :=
      net_cons c _
    simp [shift, Int.add_assoc]
  rw [outside, List.length_cons, List.range_succ_eq_map, List.countP_cons, List.countP_map, later]
  simp [outside]

/-- Where brackets close, there is one piece more than there are separators outside them. -/
theorem length_splitFrom {depth : Nat} (plain : separator ≠ '<' ∧ separator ≠ '>')
    (closes : Closes depth text) :
    (splitFrom separator depth text).length = outside separator depth text + 1 := by
  induction text generalizing depth with
  | nil => rfl
  | cons c rest ih =>
    have behind : Closes (depth + net '<' '>' [c]) rest := (counted_cons_iff.mp closes).2
    have step : (depthAfter depth c : Int) = depth + net '<' '>' [c] := by
      refine natCast_depthAfter ?_
      rintro rfl
      have fits := behind.start_allowed
      have down : net '<' '>' ['>'] = -1 := rfl
      omega
    have later := ih (step ▸ behind)
    rw [splitFrom, outside_cons, ← step]
    by_cases here : c = separator ∧ depth = 0
    · obtain ⟨rfl, rfl⟩ := here
      have level : depthAfter 0 c = 0 := by simp [depthAfter, plain]
      rw [level] at later ⊢
      simp [later]
    · rw [if_neg here, if_neg (mod_cast here), Nat.add_zero, ← later]
      cases pieces : splitFrom separator (depthAfter depth c) rest with
      | nil => simp [pieces] at later
      | cons piece pieces => rfl

end Pieces

/-- A group ends where as many brackets are closed as were opened, and not before. -/
theorem eq_of_takeGroup {inner : Nat} {text inside behind : List Char}
    (taken : takeGroup inner text = some (inside, behind)) :
    text = inside ++ '>' :: behind ∧ Closes inner inside := by
  induction text generalizing inner inside with
  | nil => cases taken
  | cons c rest ih =>
    rw [takeGroup] at taken
    split_ifs at taken with here
    · obtain ⟨rfl, rfl⟩ := here
      cases taken
      exact ⟨rfl, counted_nil_iff.mpr ⟨Int.le_refl 0, rfl⟩⟩
    · obtain ⟨group, found, same⟩ := Option.map_eq_some_iff.mp taken
      cases same
      obtain ⟨rfl, closes⟩ := ih found
      have step := @natCast_depthAfter inner c fun isClosing =>
        Nat.pos_of_ne_zero fun nothing => here ⟨isClosing, nothing⟩
      refine ⟨rfl, counted_cons_iff.mpr ⟨Int.natCast_nonneg inner, ?_⟩⟩
      rwa [← step]

/-- A bracket without a group stays open. -/
theorem depthOf_of_takeGroup {inner : Nat} {text : List Char} (missing : takeGroup inner text = none) :
    depthOf (inner + 1) text ≠ 0 := by
  induction text generalizing inner with
  | nil => exact Nat.succ_ne_zero inner
  | cons c rest ih =>
    rw [takeGroup] at missing
    split_ifs at missing with here
    have later := ih (Option.map_eq_none_iff.mp missing)
    have fits : c = '>' → 0 < inner := fun closes =>
      Nat.pos_of_ne_zero fun nothing => here ⟨closes, nothing⟩
    rwa [depthOf_cons, depthAfter_succ fits]

/-- How a text is put together from the groups that it is cut at. -/
inductive Outlines : List Char → Outline → Prop where
  | tail {text : List Char} : '<' ∉ text → Outlines text (.tail text)
  | unclosed {before more : List Char} : '<' ∉ before → depthOf 1 more ≠ 0 →
      Outlines (before ++ '<' :: more) (.unclosed before)
  | group {before inside behind : List Char} {rest : Outline} : '<' ∉ before → Closes 0 inside →
      Outlines behind rest →
      Outlines (before ++ '<' :: (inside ++ '>' :: behind)) (.group before inside rest)

theorem outlines_outline (text : List Char) : Outlines text (outline text) := by
  have before (text : List Char) : '<' ∉ text.takeWhile (· != '<') :=
    fun h => absurd (List.mem_takeWhile_imp h) (by decide)
  have whole {text more : List Char} {c : Char} (opening : text.dropWhile (· != '<') = c :: more) :
      text = text.takeWhile (· != '<') ++ '<' :: more := by
    have first := List.head?_dropWhile_not (· != '<') text
    rw [opening] at first
    obtain rfl : c = '<' := by simpa using first
    rw [← opening, List.takeWhile_append_dropWhile]
  fun_induction outline text with
  | case1 text opening =>
    refine .tail fun h => ?_
    exact absurd (List.dropWhile_eq_nil_iff.mp opening '<' h) (by decide)
  | case2 text c more opening taken =>
    have cut : Outlines (text.takeWhile (· != '<') ++ '<' :: more) _ :=
      .unclosed (before text) (depthOf_of_takeGroup taken)
    rwa [← whole opening] at cut
  | case3 text c more opening group taken ih =>
    obtain ⟨same, closes⟩ := eq_of_takeGroup taken
    have cut : Outlines (text.takeWhile (· != '<') ++ '<' :: (group.1 ++ '>' :: group.2)) _ :=
      .group (before text) closes ih
    rwa [← same, ← whole opening] at cut

namespace Outlines

variable {text : List Char} {cut : Outline}

theorem depthOf_unopened {text : List Char} (unopened : '<' ∉ text) : Text.depthOf 0 text = 0 := by
  induction text with
  | nil => rfl
  | cons c rest ih =>
    have other : c ≠ '<' := fun same => unopened (same ▸ List.mem_cons_self)
    have level : depthAfter 0 c = 0 := by simp [depthAfter, other]
    rw [depthOf_cons, level]
    exact ih fun h => unopened (List.mem_cons_of_mem c h)

/-- All groups are closed exactly if the text ends at depth zero. -/
theorem lastPart?_eq_none_iff (outlines : Outlines text cut) :
    cut.lastPart? = none ↔ depthOf 0 text ≠ 0 := by
  induction outlines with
  | tail unopened => simp [Outline.lastPart?, depthOf_unopened unopened]
  | unclosed unopened stays =>
    rw [depthOf_append, depthOf_unopened unopened]
    exact iff_of_true rfl stays
  | @group before inside behind rest unopened closes _ ih =>
    have passed : depthOf 0 ('<' :: (inside ++ '>' :: behind)) = depthOf 0 behind := by
      have whole := depthOf_append 0 ('<' :: (inside ++ ['>'])) behind
      rw [closes.depthOf_group] at whole
      simpa using whole
    rw [depthOf_append, depthOf_unopened unopened, passed]
    exact ih

theorem closes_of_mem_insides (outlines : Outlines text cut) {inside : List Char}
    (h : inside ∈ cut.insides) : Closes 0 inside := by
  induction outlines with
  | tail _ => cases h
  | unclosed _ _ => cases h
  | group _ closes _ ih =>
    rcases List.mem_cons.mp h with rfl | h
    · exact closes
    · exact ih h

/-- The text outside the groups is free of angle brackets. -/
theorem plain_bare (outlines : Outlines text cut) (closes : Closes 0 text) :
    ∀ c ∈ cut.bare, c ≠ '<' ∧ c ≠ '>' := by
  have plain {text : List Char} (unopened : '<' ∉ text) (closes : Closes 0 text) :
      ∀ c ∈ text, c ≠ '<' ∧ c ≠ '>' := by
    have none : text.count '>' = 0 := by
      have ends := closes.ends
      rw [net, List.count_eq_zero_of_not_mem unopened] at ends
      omega
    rintro c h
    exact ⟨fun same => unopened (same ▸ h), fun same => List.count_eq_zero.mp none (same ▸ h)⟩
  induction outlines with
  | tail unopened => exact plain unopened closes
  | unclosed unopened stays =>
    have shut := closes.depth_eq
    rw [depthOf_append, depthOf_unopened unopened] at shut
    exact absurd shut stays
  | @group before inside behind rest unopened whole _ ih =>
    obtain ⟨start, more⟩ := closes.cut_at (depthOf_unopened unopened)
    have apart : '<' :: (inside ++ '>' :: behind) = '<' :: (inside ++ ['>']) ++ behind := by simp
    rw [apart] at more
    intro c h
    rcases List.mem_append.mp h with h | h
    · exact plain unopened start c h
    · exact ih (more.cut_at whole.depthOf_group).2 c h

end Outlines

end ApiCompat.Text
