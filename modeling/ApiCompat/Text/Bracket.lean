/-! Angle brackets in type expressions. A scan counts the open brackets, taking a stray
closing bracket as depth zero. Pieces cut at a separator outside every bracket, joined
again with the separator, give the text back, and every part cut out of a text is no
longer than the text. -/
namespace ApiCompat.Text

def depthAfter (depth : Nat) (c : Char) : Nat :=
  if c = '<' then depth + 1 else if c = '>' then depth - 1 else depth

def extendFirst (c : Char) : List (List Char) → List (List Char)
  | [] => [[c]]
  | piece :: rest => (c :: piece) :: rest

def splitFrom (separator : Char) : Nat → List Char → List (List Char)
  | _, [] => [[]]
  | depth, c :: rest =>
    if c = separator ∧ depth = 0 then [] :: splitFrom separator depth rest
    else extendFirst c (splitFrom separator (depthAfter depth c) rest)

def splitTopLevel (separator : Char) (text : List Char) : List (List Char) :=
  splitFrom separator 0 text

/-- Given the text after an opening bracket and the number of brackets opened since, the text up
to the bracket that closes the first one, and the text behind it. -/
def takeGroup : Nat → List Char → Option (List Char × List Char)
  | _, [] => none
  | inner, c :: rest =>
    if c = '>' ∧ inner = 0 then some ([], rest)
    else (takeGroup (depthAfter inner c) rest).map fun group => (c :: group.1, group.2)

inductive Outline where
  | tail (text : List Char)
  | unclosed (before : List Char)
  | group (before inside : List Char) (rest : Outline)

theorem takeGroup_length {inner : Nat} {text : List Char} {group : List Char × List Char}
    (taken : takeGroup inner text = some group) :
    group.1.length < text.length ∧ group.2.length < text.length := by
  induction text generalizing inner group with
  | nil => simp [takeGroup] at taken
  | cons c rest ih =>
    simp only [takeGroup] at taken
    split at taken
    · cases taken; simp
    · obtain ⟨found, hfound, rfl⟩ := Option.map_eq_some_iff.1 taken
      have h := ih hfound
      exact ⟨by simpa using h.1, by simp only [List.length_cons]; omega⟩

def outline (text : List Char) : Outline :=
  match _opening : text.dropWhile (· != '<') with
  | [] => .tail text
  | _ :: more =>
    match _taken : takeGroup 0 more with
    | none => .unclosed (text.takeWhile (· != '<'))
    | some group => .group (text.takeWhile (· != '<')) group.1 (outline group.2)
termination_by text.length
decreasing_by
  have hmore := (takeGroup_length _taken).2
  have htext := (List.dropWhile_sublist (· != '<') (l := text)).length_le
  rw [_opening, List.length_cons] at htext
  omega

namespace Outline

def insides : Outline → List (List Char)
  | tail _ => []
  | unclosed _ => []
  | group _ inside rest => inside :: rest.insides

def bare : Outline → List Char
  | tail text => text
  | unclosed before => before
  | group before _ rest => before ++ rest.bare

def lastPart? : Outline → Option (List Char)
  | tail text => some text
  | unclosed _ => none
  | group _ _ rest => rest.lastPart?

end Outline

theorem length_lt_of_mem_insides {text inside : List Char}
    (h : inside ∈ (outline text).insides) : inside.length < text.length := by
  fun_induction outline text with
  | case1 text opening => simp [Outline.insides] at h
  | case2 text c more opening taken => simp [Outline.insides] at h
  | case3 text c more opening group taken ih =>
    have hgroup := takeGroup_length taken
    have htext := (List.dropWhile_sublist (· != '<') (l := text)).length_le
    rw [opening, List.length_cons] at htext
    rcases List.mem_cons.1 h with rfl | hrest
    · omega
    · have := ih hrest; omega

theorem length_extendFirst {c : Char} {pieces : List (List Char)} {bound : Nat}
    (h : ∀ piece ∈ pieces, piece.length ≤ bound) :
    ∀ piece ∈ extendFirst c pieces, piece.length ≤ bound + 1 := by
  cases pieces with
  | nil => intro piece hp; simp [extendFirst] at hp; simp [hp]
  | cons first rest =>
    intro piece hp
    rcases List.mem_cons.1 hp with rfl | hr
    · have := h first (by simp); simpa using this
    · have := h piece (List.mem_cons_of_mem _ hr); omega

theorem length_le_of_mem_splitFrom (separator : Char) (depth : Nat) (text : List Char) :
    ∀ piece ∈ splitFrom separator depth text, piece.length ≤ text.length := by
  induction text generalizing depth with
  | nil => simp [splitFrom]
  | cons c rest ih =>
    intro piece hp
    simp only [splitFrom] at hp
    split at hp
    · rcases List.mem_cons.1 hp with rfl | hr
      · simp
      · have := ih depth piece hr; simp only [List.length_cons]; omega
    · exact length_extendFirst (ih _) piece hp

theorem length_le_of_mem_splitTopLevel {separator : Char} {text piece : List Char}
    (h : piece ∈ splitTopLevel separator text) : piece.length ≤ text.length :=
  length_le_of_mem_splitFrom separator 0 text piece h

def balancedFrom : Nat → Bool → List Char → Bool
  | angle, square, [] => angle == 0 && !square
  | angle, square, c :: rest =>
    if c = '<' then balancedFrom (angle + 1) square rest
    else if c = '>' then angle != 0 && balancedFrom (angle - 1) square rest
    else if c = '[' then !square && balancedFrom angle true rest
    else if c = ']' then square && balancedFrom angle false rest
    else balancedFrom angle square rest

/-- The angle brackets pair up by counting, and so do the square brackets, which never nest.
The two kinds are counted apart and may interleave. -/
def balanced (text : List Char) : Bool := balancedFrom 0 false text

end ApiCompat.Text
