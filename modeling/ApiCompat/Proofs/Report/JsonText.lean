import ApiCompat.Proofs.Snapshot.Positions
import ApiCompat.Report.Json

/-! Reading JSON text. The reader knows nothing of layouts: between the parts of a value it passes
over white space of any kind, and of a string it takes every escape. Each value is read back from
its text, with whatever follows it. -/
namespace ApiCompat.Report.Json

def isGap (c : Char) : Bool := c = ' ' || c = '\n' || c = '\r' || c = '\t'

def skip (source : List Char) : List Char := source.dropWhile isGap

def hexDigit? (c : Char) : Option Nat :=
  if '0' ≤ c ∧ c ≤ '9' then some (c.toNat - '0'.toNat)
  else if 'a' ≤ c ∧ c ≤ 'f' then some (c.toNat - 'a'.toNat + 10)
  else if 'A' ≤ c ∧ c ≤ 'F' then some (c.toNat - 'A'.toNat + 10)
  else none

def hexValue? (digits : List Char) : Option Nat :=
  digits.foldlM (fun value c => (hexDigit? c).map (value * 16 + ·)) 0

def unescape? : Char → Option Char
  | '"' => some '"'
  | '\\' => some '\\'
  | '/' => some '/'
  | 'b' => some '\x08'
  | 'f' => some '\x0c'
  | 'n' => some '\n'
  | 'r' => some '\r'
  | 't' => some '\t'
  | _ => none

/-- Puts the character before what is read of a string. -/
def lead (c : Char) (read : Option (List Char × List Char)) : Option (List Char × List Char) :=
  read.map fun (value, rest) => (c :: value, rest)

/-- Reads a string behind its opening quote. -/
def readString : List Char → Option (List Char × List Char)
  | [] => none
  | '"' :: rest => some ([], rest)
  | '\\' :: 'u' :: a :: b :: c :: d :: rest => do
    let code ← hexValue? [a, b, c, d]
    if code.isValidChar then lead (Char.ofNat code) (readString rest) else none
  | '\\' :: c :: rest => do
    let c ← unescape? c
    lead c (readString rest)
  | c :: rest => if c.toNat < 32 then none else lead c (readString rest)

section Sequence

variable {α : Type} (closing : Char) (item : List Char → Option (α × List Char))

/-- Reads items with commas between them; their number is bounded. -/
def readSequence : Nat → List Char → Option (List α × List Char)
  | 0, _ => none
  | bound + 1, source => do
    let (first, rest) ← item source
    match skip rest with
    | [] => none
    | c :: rest =>
      if c = ',' then
        (readSequence bound rest).map fun (others, rest) => (first :: others, rest)
      else if c = closing then some ([first], rest) else none

/-- Reads what stands between brackets, behind the opening one. -/
def readItems (bound : Nat) (source : List Char) : Option (List α × List Char) :=
  match skip source with
  | [] => none
  | c :: rest =>
    if c = closing then some ([], rest) else readSequence closing item bound (c :: rest)

end Sequence

def readMember (value : List Char → Option (Json × List Char)) (source : List Char) :
    Option ((String × Json) × List Char) :=
  match skip source with
  | '"' :: rest => do
    let (key, rest) ← readString rest
    match skip rest with
    | ':' :: rest => (value rest).map fun (value, rest) => ((String.ofList key, value), rest)
    | _ => none
  | _ => none

def readNumber (source : List Char) : Option (Nat × List Char) :=
  (Text.readDecimal? (source.takeWhile Text.isDecimalDigit)).map
    (·, source.dropWhile Text.isDecimalDigit)

/-- Reads a value; the depth is bounded. -/
def readValue : Nat → List Char → Option (Json × List Char)
  | 0, _ => none
  | bound + 1, source =>
    match skip source with
    | '"' :: rest =>
      (readString rest).map fun (value, rest) => (.text (String.ofList value), rest)
    | '[' :: rest =>
      (readItems ']' (readValue bound) bound rest).map fun (items, rest) => (.list items, rest)
    | '\x7b' :: rest => (readItems '\x7d' (readMember (readValue bound)) bound rest).map
        fun (members, rest) => (.object members, rest)
    | rest => (readNumber rest).map fun (n, rest) => (.number n, rest)

def read? (source : String) : Option Json :=
  match readValue source.length source.toList with
  | some (value, rest) => if skip rest = [] then some value else none
  | none => none

/-! Strings. -/

theorem readString_controlEscape {c : Char} (control : c.toNat < 32) (rest : List Char) :
    readString (controlEscape c ++ rest) = lead c (readString rest) := by
  have escaped : ∀ n < 32, controlEscape (Char.ofNat n) =
      ['\\', 'u', '0', '0', Nat.digitChar (n / 16), Nat.digitChar (n % 16)] := by decide
  have value : ∀ n < 32,
      hexValue? ['0', '0', Nat.digitChar (n / 16), Nat.digitChar (n % 16)] = some n := by decide
  have valid : c.toNat.isValidChar := c.valid
  have written := escaped c.toNat control
  rw [Char.ofNat_toNat] at written
  simp [written, readString, value c.toNat control, valid]

theorem readString_escape (c : Char) (rest : List Char) :
    readString (escape c ++ rest) = lead c (readString rest) := by
  unfold escape
  split
  · simp [readString, unescape?]
  · simp [readString, unescape?]
  · simp [readString, unescape?]
  · simp [readString, unescape?]
  · simp [readString, unescape?]
  · simp [readString, unescape?]
  · simp [readString, unescape?]
  · split
    · rename_i control
      exact readString_controlEscape control rest
    · rename_i quote slash _ _ _ _ _ high
      change readString (c :: rest) = _
      rw [readString, if_neg high]
      · exact quote
      · exact fun _ _ _ _ _ same _ => slash same
      · exact fun _ _ same _ => slash same

theorem readString_flatMap (value rest : List Char) :
    readString (value.flatMap escape ++ '"' :: rest) = some (value, rest) := by
  induction value with
  | nil => rfl
  | cons c value ih =>
    rw [List.flatMap_cons, List.append_assoc, readString_escape, ih]
    rfl

/-! Values. -/

def Gap (text : List Char) : Prop := ∀ c ∈ text, isGap c = true

/-- What follows does not go on with a number. -/
def Stops (rest : List Char) : Prop := ∀ c ∈ rest.head?, Text.isDecimalDigit c = false

theorem skip_append {gap : List Char} (blank : Gap gap) {c : Char} (solid : isGap c = false)
    (rest : List Char) : skip (gap ++ c :: rest) = c :: rest := by
  rw [skip, List.dropWhile_append_of_pos blank]
  exact List.dropWhile_cons_of_neg (by simp [solid])

theorem gap_layout (layout : Layout) : Gap layout.gap.toList := by
  cases layout with
  | line => simp [Gap, Layout.gap]
  | indented level =>
    intro c h
    have blank : c = '\n' ∨ c = ' ' := by
      simp only [Layout.gap, String.toList_ofList, List.mem_cons, List.mem_replicate] at h
      exact h.imp_right And.right
    rcases blank with rfl | rfl <;> rfl

theorem isDecimalDigit_of_isGap {c : Char} (blank : isGap c = true) :
    Text.isDecimalDigit c = false := by
  have gap : c = ' ' ∨ c = '\n' ∨ c = '\r' ∨ c = '\t' := by
    simpa [isGap, or_assoc] using blank
  rcases gap with rfl | rfl | rfl | rfl <;> rfl

theorem stops_append {gap : List Char} (blank : Gap gap) {c : Char}
    (other : Text.isDecimalDigit c = false) (rest : List Char) : Stops (gap ++ c :: rest) := by
  intro first h
  cases gap with
  | nil =>
    cases h
    exact other
  | cons b gap =>
    cases h
    exact isDecimalDigit_of_isGap (blank first List.mem_cons_self)

/-- The text is read as the value, wherever it stands. -/
structure ReadsBack {α : Type} (item : List Char → Option (α × List Char)) (written : List Char)
    (value : α) : Prop where
  begins : ∃ c rest, written = c :: rest ∧ isGap c = false ∧ c ≠ ']' ∧ c ≠ '\x7d'
  returns : ∀ gap rest, Gap gap → Stops rest → item (gap ++ (written ++ rest)) = some (value, rest)

section Sequence

variable {α : Type} {item : List Char → Option (α × List Char)} {write : α → List Char}
  {closing : Char} {gap last : List Char}

theorem closing_plain (shut : closing = ']' ∨ closing = '\x7d') :
    isGap closing = false ∧ closing ≠ ',' ∧ Text.isDecimalDigit closing = false := by
  rcases shut with rfl | rfl <;> decide

theorem readSequence_intercalate (shut : closing = ']' ∨ closing = '\x7d') (blank : Gap gap)
    (blank' : Gap last) (rest : List Char) {values : List α} (filled : values ≠ []) {bound : Nat}
    (enough : values.length ≤ bound) (each : ∀ value ∈ values, ReadsBack item (write value) value)
    {front : List Char} (begun : Gap front) :
    readSequence closing item bound (front ++ ((',' :: gap).intercalate (values.map write) ++
      (last ++ closing :: rest))) = some (values, rest) := by
  obtain ⟨solid, mark, stops⟩ := closing_plain shut
  induction values generalizing bound front with
  | nil => exact absurd rfl filled
  | cons value others ih =>
    obtain ⟨first, each⟩ := List.forall_mem_cons.mp each
    obtain ⟨bound, rfl⟩ : ∃ n, bound = n + 1 := ⟨bound - 1, by simp at enough; omega⟩
    cases others with
    | nil =>
      have read := first.returns front _ begun (stops_append blank' stops rest)
      simp [readSequence, read, skip_append blank' solid, mark]
    | cons next others =>
      have read := first.returns front (',' :: (gap ++ ((',' :: gap).intercalate
        ((next :: others).map write) ++ (last ++ closing :: rest)))) begun
        (by simp [Stops, Text.isDecimalDigit])
      have later := ih (by simp) (by simpa using enough) each blank
      have comma := fun rest => @skip_append [] (by simp [Gap]) ',' rfl rest
      simp only [List.map_cons, List.intercalate_cons_cons, List.append_assoc, List.cons_append,
        List.nil_append] at read later comma ⊢
      simp [readSequence, read, comma, later]

/-- The items of a pair of brackets behind the opening one, as a layout puts them. -/
def closed (layout : Layout) (closing : Char) (items : List (List Char)) : List Char :=
  if items = [] then [closing]
  else layout.inner.gap.toList ++ ((',' :: layout.inner.gap.toList).intercalate items ++
    (layout.gap.toList ++ [closing]))

theorem toList_enclose (layout : Layout) (opening closing : Char) (items : List String) :
    (layout.enclose (String.singleton opening) (String.singleton closing) items).toList =
      opening :: closed layout closing (items.map String.toList) := by
  unfold Layout.enclose closed
  cases items with
  | nil => simp
  | cons first rest => simp [String.toList_intercalate]

theorem readItems_closed (layout : Layout) (shut : closing = ']' ∨ closing = '\x7d')
    (rest : List Char) {values : List α} {bound : Nat} (enough : values.length ≤ bound)
    (each : ∀ value ∈ values, ReadsBack item (write value) value) :
    readItems closing item bound (closed layout closing (values.map write) ++ rest) =
      some (values, rest) := by
  obtain ⟨solid, _, _⟩ := closing_plain shut
  cases values with
  | nil =>
    have first := @skip_append [] (by simp [Gap]) closing solid rest
    simp only [List.nil_append] at first
    simp [readItems, closed, first]
  | cons value others =>
    obtain ⟨c, tail, begins, solid', apart, apart'⟩ := (each value List.mem_cons_self).begins
    have other : c ≠ closing := by
      rcases shut with rfl | rfl
      · exact apart
      · exact apart'
    have read := readSequence_intercalate shut (gap_layout layout.inner) (gap_layout layout) rest
      (List.cons_ne_nil value others) enough each (show Gap [] by simp [Gap])
    obtain ⟨after, joined⟩ : ∃ after, (',' :: layout.inner.gap.toList).intercalate
        ((value :: others).map write) = c :: after := by
      cases others with
      | nil => exact ⟨tail, by simp [begins]⟩
      | cons next more => exact ⟨_, by rw [List.map_cons, List.map_cons,
          List.intercalate_cons_cons, begins, List.append_assoc, List.cons_append]⟩
    have first := skip_append (gap_layout layout.inner) solid'
      (after ++ (layout.gap.toList ++ closing :: rest))
    rw [joined] at read
    simp only [List.nil_append, List.cons_append] at read
    simp only [readItems, closed, joined]
    simp [first, other, read]

end Sequence

/-! Each kind of value in turn. What is inside it is shorter, so the bound of its text will do. -/

theorem length_le_intercalate (separator : List Char) {item : List Char}
    {items : List (List Char)} (h : item ∈ items) :
    item.length ≤ (separator.intercalate items).length := by
  induction items with
  | nil => cases h
  | cons first rest ih =>
    cases rest with
    | nil => simp_all
    | cons second rest =>
      rw [List.intercalate_cons_cons]
      simp only [List.length_append]
      rcases List.mem_cons.mp h with rfl | h
      · omega
      · have inside := ih h
        omega

theorem length_items_le (separator : List Char) {items : List (List Char)}
    (filled : ∀ item ∈ items, item ≠ []) : items.length ≤ (separator.intercalate items).length := by
  induction items with
  | nil => simp
  | cons first rest ih =>
    obtain ⟨here, filled⟩ := List.forall_mem_cons.mp filled
    have long := List.length_pos_iff.mpr here
    cases rest with
    | nil =>
      simp
      omega
    | cons second rest =>
      have inside := ih filled
      rw [List.intercalate_cons_cons]
      simp only [List.length_append, List.length_cons] at inside ⊢
      omega

theorem length_le_closed (layout : Layout) (closing : Char) (items : List (List Char)) :
    ((',' :: layout.inner.gap.toList).intercalate items).length + 1 ≤
      (closed layout closing items).length := by
  unfold closed
  split
  · simp_all
  · simp only [List.length_append, List.length_singleton]
    omega

/-- Whatever its layout, the value is read back within the length of its text. -/
def Returns (value : Json) : Prop := ∀ layout bound, (value.write layout).toList.length ≤ bound →
  ReadsBack (readValue bound) (value.write layout).toList value

theorem readNumber_toDigits (n : Nat) {rest : List Char} (stops : Stops rest) :
    readNumber (Nat.toDigits 10 n ++ rest) = some (n, rest) := by
  have digits : ∀ c ∈ Nat.toDigits 10 n, Text.isDecimalDigit c = true :=
    fun c => Text.isDecimalDigit_of_mem_toDigits
  have nothing : rest.takeWhile Text.isDecimalDigit = [] ∧
      rest.dropWhile Text.isDecimalDigit = rest := by
    cases rest with
    | nil => exact ⟨rfl, rfl⟩
    | cons c rest => simp [stops c rfl]
  rw [readNumber, List.takeWhile_append_of_pos digits, List.dropWhile_append_of_pos digits,
    nothing.1, nothing.2, List.append_nil, Text.readDecimal?_toDigits]
  rfl

theorem returns_number (n : Nat) : Returns (.number n) := by
  intro layout bound enough
  have text : ((number n).write layout).toList = Nat.toDigits 10 n := Nat.toList_repr
  obtain ⟨c, tail, begins⟩ := List.exists_cons_of_ne_nil (@Nat.toDigits_ne_nil n 10)
  have digit : Text.isDecimalDigit c = true :=
    Text.isDecimalDigit_of_mem_toDigits (n := n) (begins ▸ List.mem_cons_self)
  have solid : isGap c = false := by
    rw [← Bool.not_eq_true]
    intro blank
    rw [isDecimalDigit_of_isGap blank] at digit
    cases digit
  have apart : ∀ mark ∈ ['"', '[', ']', '\x7b', '\x7d'], c ≠ mark := by
    rintro mark h rfl
    revert digit
    simp only [List.mem_cons, List.not_mem_nil, or_false] at h
    rcases h with rfl | rfl | rfl | rfl | rfl <;> decide
  rw [text] at enough ⊢
  obtain ⟨bound, rfl⟩ : ∃ m, bound = m + 1 := ⟨bound - 1, by simp [begins] at enough; omega⟩
  refine ⟨⟨c, tail, begins, solid, apart _ (by simp), apart _ (by simp)⟩, ?_⟩
  intro gap rest blank stops
  have read := readNumber_toDigits n stops
  rw [begins, List.cons_append] at read ⊢
  rw [readValue, skip_append blank solid]
  split
  · simp_all
  · simp_all
  · simp_all
  · simp_all

theorem toList_quote (value : String) :
    (quote value).toList = '"' :: (value.toList.flatMap escape ++ ['"']) := by
  simp [quote]

theorem returns_text (value : String) : Returns (.text value) := by
  intro layout bound enough
  have text : ((Json.text value).write layout).toList = _ := toList_quote value
  rw [text] at enough ⊢
  obtain ⟨bound, rfl⟩ : ∃ m, bound = m + 1 := ⟨bound - 1, by simp at enough; omega⟩
  refine ⟨⟨'"', _, rfl, rfl, by decide, by decide⟩, ?_⟩
  intro gap rest blank _
  have read := readString_flatMap value.toList rest
  rw [readValue, List.cons_append, skip_append blank rfl, List.append_assoc]
  simp [read]

theorem writeItems_eq_map (layout : Layout) (items : List Json) :
    writeItems layout items = items.map (write layout) := by
  induction items with
  | nil => rfl
  | cons item rest ih => rw [writeItems, ih, List.map_cons]

/-- The member of an object as a layout puts it. -/
def writeMember (layout : Layout) (member : String × Json) : String :=
  quote member.1 ++ layout.colon ++ member.2.write layout

theorem writeMembers_eq_map (layout : Layout) (members : List (String × Json)) :
    writeMembers layout members = members.map (writeMember layout) := by
  induction members with
  | nil => rfl
  | cons member rest ih =>
    obtain ⟨key, value⟩ := member
    rw [writeMembers, ih, List.map_cons]
    rfl

/-- The items between brackets, and each of them, fit into a bound for the whole. -/
theorem fits_of_closed {α : Type} {write : α → List Char} {values : List α} {layout : Layout}
    {closing : Char} {bound : Nat} (filled : ∀ value ∈ values, write value ≠ [])
    (enough : (closed layout closing (values.map write)).length ≤ bound) :
    values.length ≤ bound ∧ ∀ value ∈ values, (write value).length ≤ bound := by
  have whole := length_le_closed layout closing (values.map write)
  have number := length_items_le (',' :: layout.inner.gap.toList) (List.forall_mem_map.mpr filled)
  rw [List.length_map] at number
  refine ⟨by omega, fun value h => ?_⟩
  have one := length_le_intercalate (',' :: layout.inner.gap.toList)
    (List.mem_map_of_mem (f := write) h)
  omega

theorem returns_list {items : List Json} (each : ∀ item ∈ items, Returns item) :
    Returns (.list items) := by
  intro layout bound enough
  let written (item : Json) := (item.write layout.inner).toList
  have text : ((list items).write layout).toList =
      '[' :: closed layout ']' (items.map written) := by
    have whole := toList_enclose layout '[' ']' (items.map (write layout.inner))
    rw [List.map_map] at whole
    rw [write, writeItems_eq_map]
    exact whole
  rw [text] at enough ⊢
  obtain ⟨bound, rfl⟩ : ∃ m, bound = m + 1 := ⟨bound - 1, by simp at enough; omega⟩
  have filled : ∀ item ∈ items, written item ≠ [] := by
    intro item h
    obtain ⟨c, rest, begins, _⟩ := (each item h layout.inner _ (Nat.le_refl _)).begins
    simp [written, begins]
  obtain ⟨number, fits⟩ := fits_of_closed filled (by simpa using enough)
  have back : ∀ item ∈ items, ReadsBack (readValue bound) (written item) item :=
    fun item h => each item h layout.inner bound (fits item h)
  refine ⟨⟨'[', _, rfl, rfl, by decide, by decide⟩, ?_⟩
  intro gap rest blank _
  have read := readItems_closed layout (.inl rfl) rest number back
  rw [readValue, List.cons_append, skip_append blank rfl]
  simp [read]

theorem readsBack_member {layout : Layout} {member : String × Json} {bound : Nat}
    (back : ReadsBack (readValue bound) (member.2.write layout).toList member.2) :
    ReadsBack (readMember (readValue bound)) (writeMember layout member).toList member := by
  have text : (writeMember layout member).toList = '"' :: (member.1.toList.flatMap escape ++
      '"' :: (layout.colon.toList ++ (member.2.write layout).toList)) := by
    simp [writeMember, toList_quote]
  rw [text]
  refine ⟨⟨'"', _, rfl, rfl, by decide, by decide⟩, ?_⟩
  intro gap rest blank stops
  have key := readString_flatMap member.1.toList
    (layout.colon.toList ++ ((member.2.write layout).toList ++ rest))
  obtain ⟨between, blank', colon⟩ :
      ∃ between, Gap between ∧ layout.colon.toList = ':' :: between := by
    cases layout with
    | line => exact ⟨[], by simp [Gap], by simp [Layout.colon]⟩
    | indented level => exact ⟨[' '], by simp [Gap, isGap], by simp [Layout.colon]⟩
  have value := back.returns between rest blank' stops
  have mark := fun rest => @skip_append [] (by simp [Gap]) ':' rfl rest
  rw [colon] at key ⊢
  simp only [List.cons_append, List.append_assoc, List.nil_append] at key mark ⊢
  rw [readMember, skip_append blank rfl]
  simp [key, mark, value]

theorem returns_object {members : List (String × Json)} (each : ∀ m ∈ members, Returns m.2) :
    Returns (.object members) := by
  intro layout bound enough
  let written (member : String × Json) := (writeMember layout.inner member).toList
  have text : ((object members).write layout).toList =
      '\x7b' :: closed layout '\x7d' (members.map written) := by
    have whole := toList_enclose layout '\x7b' '\x7d' (members.map (writeMember layout.inner))
    rw [List.map_map] at whole
    rw [write, writeMembers_eq_map]
    exact whole
  rw [text] at enough ⊢
  obtain ⟨bound, rfl⟩ : ∃ m, bound = m + 1 := ⟨bound - 1, by simp at enough; omega⟩
  have filled : ∀ member ∈ members, written member ≠ [] := by
    intro member _
    simp [written, writeMember, toList_quote]
  obtain ⟨number, fits⟩ := fits_of_closed filled (by simpa using enough)
  have back : ∀ member ∈ members,
      ReadsBack (readMember (readValue bound)) (written member) member := by
    intro member h
    apply readsBack_member
    apply each member h
    have whole := fits member h
    simp only [written, writeMember, String.toList_append, List.length_append] at whole
    omega
  refine ⟨⟨'\x7b', _, rfl, rfl, by decide, by decide⟩, ?_⟩
  intro gap rest blank _
  have read := readItems_closed layout (.inr rfl) rest number back
  rw [readValue, List.cons_append, skip_append blank rfl]
  simp [read]

mutual

theorem returns : ∀ value : Json, Returns value
  | .number n => returns_number n
  | .text value => returns_text value
  | .list items => returns_list (returns_items items)
  | .object members => returns_object (returns_members members)

theorem returns_items : ∀ (items : List Json), ∀ item ∈ items, Returns item
  | [] => fun _ h => nomatch h
  | item :: rest => List.forall_mem_cons.mpr ⟨returns item, returns_items rest⟩

theorem returns_members : ∀ (members : List (String × Json)), ∀ m ∈ members, Returns m.2
  | [] => fun _ h => nomatch h
  | (_, value) :: rest => List.forall_mem_cons.mpr ⟨returns value, returns_members rest⟩

end

/-- A value is read back from its text in every layout, with the line ended. -/
theorem read?_write (value : Json) (layout : Layout) :
    read? (value.write layout ++ "\n") = some value := by
  have fits : (value.write layout).toList.length ≤ (value.write layout ++ "\n").length := by
    rw [String.length_append, String.length_toList]
    exact Nat.le_add_right _ _
  have stops : Stops ['\n'] := by
    simp only [Stops, List.head?_cons, Option.mem_some_iff, forall_eq']
    decide
  have read := (returns value layout _ fits).returns [] ['\n'] (by simp [Gap]) stops
  have text : (value.write layout ++ "\n").toList = (value.write layout).toList ++ ['\n'] :=
    String.toList_append
  rw [List.nil_append, ← text] at read
  rw [read?, read]
  rfl

end ApiCompat.Report.Json
