import ApiCompat.Markup.Attribute

/-! Documents as events. Reading a document gives the events of its element tags in order,
up to its end or its first fault; comments, character data, instructions, document types and
text are passed over. An element's offset is the place right after what was read before its
tag, white space not counted as read. -/
namespace ApiCompat.Markup

structure Tag where
  name : String
  attributes : List (String × String)
  offset : Nat
  deriving DecidableEq, Repr, Inhabited

/-- The value of an attribute; of a repeated one, the last. -/
def Tag.attribute? (tag : Tag) (key : String) : Option String :=
  tag.attributes.reverse.lookup key

inductive Event where
  | start (tag : Tag)
  | empty (tag : Tag)
  | finish (name : String)
  deriving DecidableEq, Repr

structure Reading where
  events : List Event
  fault : Option Error
  deriving Repr

/-- What one tag leads to; names of open elements are kept as bytes, innermost first. -/
inductive Step where
  | stop
  | fault (e : Error)
  | next (event : Option Event) (opened : List (List UInt8)) (rest : List UInt8)

def lessSign : UInt8 := 0x3C

def greaterSign : UInt8 := 0x3E

def slash : UInt8 := 0x2F

def cutAtGreater (bytes : List UInt8) : List UInt8 × List UInt8 :=
  (bytes.takeWhile (· != greaterSign), (bytes.dropWhile (· != greaterSign)).drop 1)

/-- The bytes up to the next closing bracket outside quotes, and those behind it. -/
def cutTag : Option UInt8 → List UInt8 → List UInt8 × List UInt8
  | _, [] => ([], [])
  | none, b :: rest =>
    if b = greaterSign then ([], rest)
    else
      let cut := cutTag (if isQuote b then some b else none) rest
      (b :: cut.1, cut.2)
  | some quote, b :: rest =>
    let cut := cutTag (if b = quote then none else some quote) rest
    (b :: cut.1, cut.2)

/-- The bytes up to the first closing bracket before which `stops` holds of the bytes read, last
one first, and those behind it. -/
def cutWhere (stops : List UInt8 → Bool) (seen : List UInt8) :
    List UInt8 → Option (List UInt8 × List UInt8)
  | [] => none
  | b :: rest =>
    if b = greaterSign ∧ stops seen then some (seen.reverse, rest)
    else cutWhere stops (b :: seen) rest

def bytesOf (text : String) : List UInt8 := text.toUTF8.toList

def startsWithWord (word : String) (bytes : List UInt8) : Bool :=
  let raise (b : UInt8) : UInt8 := if 0x61 ≤ b ∧ b ≤ 0x7A then b - 0x20 else b
  (bytesOf word).isPrefixOf (bytes.map raise)

/-- A comment closes behind two hyphens that are not those that open it. -/
def closesComment : List UInt8 → Bool
  | 0x2D :: 0x2D :: _ :: _ :: _ => true
  | _ => false

def closesCharacterData : List UInt8 → Bool
  | 0x5D :: 0x5D :: _ => true
  | _ => false

def closesDocumentType (seen : List UInt8) : Bool :=
  seen.count lessSign == seen.count greaterSign

/-- Passes over a construct up to where it closes, unless its content has a fault. -/
def passOver (construct : Construct) (stops : List UInt8 → Bool)
    (check : List UInt8 → Option Error) (opened : List (List UInt8)) (bytes : List UInt8) : Step :=
  match cutWhere stops [] bytes with
  | none => .fault (.cutOff construct)
  | some cut =>
    match check cut.1 with
    | some e => .fault e
    | none => .next none opened cut.2

def checkComment (content : List UInt8) : Option Error :=
  if (bytesOf "--").isPrefixOf content then none else some (.cutOff .comment)

def checkCharacterData (content : List UInt8) : Option Error :=
  if startsWithWord "[CDATA[" content then none else some (.cutOff .characterData)

def checkDocumentType (content : List UInt8) : Option Error :=
  if startsWithWord "DOCTYPE" content then
    if (content.drop 7).all isSpace then some .emptyDocumentType else none
  else some (.cutOff .documentType)

def readBang (opened : List (List UInt8)) (bytes : List UInt8) : Step :=
  match bytes with
  | [] => .fault (.cutOff .bang)
  | b :: _ =>
    if b = 0x2D then passOver .comment closesComment checkComment opened bytes
    else if b = 0x5B then
      passOver .characterData closesCharacterData checkCharacterData opened bytes
    else if b = 0x44 ∨ b = 0x64 then
      passOver .documentType closesDocumentType checkDocumentType opened bytes
    else .fault (.unknownBang b)

def readInstruction (opened : List (List UInt8)) (bytes : List UInt8) : Step :=
  let (content, rest) := cutAtGreater bytes
  if content.length ≥ 3 ∧ content.getLast? = some 0x3F then .next none opened rest
  else .fault (.cutOff .instruction)

def shownName (bytes : List UInt8) : String :=
  match Text.Utf8.decode bytes with
  | .ok text => String.ofList text
  | .error _ => ""

def lossyName (bytes : List UInt8) : String := String.ofList (Text.Utf8.decodeLossy bytes)

def trimName (bytes : List UInt8) : List UInt8 :=
  if bytes.all isSpace then bytes else (bytes.reverse.dropWhile isSpace).reverse

/-- A closing tag, from behind its slash: it names the innermost open element. -/
def readEnd (opened : List (List UInt8)) (bytes : List UInt8) : Step :=
  let (content, rest) := cutAtGreater bytes
  match opened with
  | [] => .fault (.mismatchedEnd "" (shownName content))
  | name :: outer =>
    let found := trimName content
    if found = name then .next (some (.finish (lossyName found))) outer rest
    else .fault (.mismatchedEnd (shownName name) (shownName found))

def readStart (offset : Nat) (opened : List (List UInt8)) (bytes : List UInt8) : Step :=
  let (whole, rest) := cutTag none bytes
  let isEmpty := whole.getLast? = some slash
  let content := if isEmpty then whole.dropLast else whole
  let name := content.takeWhile (!isSpace ·)
  match readAttributesFrom content.length (content.dropWhile (!isSpace ·)) with
  | .error e => .fault e
  | .ok attributes =>
    let tag : Tag := ⟨lossyName name, attributes, offset⟩
    if isEmpty then .next (some (.empty tag)) opened rest
    else .next (some (.start tag)) (name :: opened) rest

def readTag (offset : Nat) (opened : List (List UInt8)) (bytes : List UInt8) : Step :=
  match bytes with
  | [] => .stop
  | b :: rest =>
    if b = 0x21 then readBang opened rest
    else if b = slash then readEnd opened rest
    else if b = 0x3F then readInstruction opened bytes
    else readStart offset opened bytes

def faultAtEnd : List (List UInt8) → Option Error
  | [] => none
  | name :: _ => some (.truncated (lossyName name))

/-- The next opening bracket with the place that counts as its offset, and what is behind it. -/
def nextTag? (total : Nat) (bytes : List UInt8) : Option (Nat × List UInt8) :=
  let rest := bytes.dropWhile isSpace
  match rest.dropWhile (· != lessSign) with
  | [] => none
  | _ :: after =>
    some (if rest.head? = some lessSign then total - bytes.length else total - (after.length + 1),
      after)

theorem length_nextTag? {total offset : Nat} {bytes after : List UInt8}
    (h : nextTag? total bytes = some (offset, after)) : after.length < bytes.length := by
  unfold nextTag? at h
  simp only at h
  split at h
  · cases h
  · rename_i b rest hrest
    cases h
    have hspace := (List.dropWhile_sublist isSpace (l := bytes)).length_le
    have hdrop := (List.dropWhile_sublist (· != lessSign) (l := bytes.dropWhile isSpace)).length_le
    rw [hrest, List.length_cons] at hdrop
    omega

theorem length_cutAtGreater (bytes : List UInt8) :
    (cutAtGreater bytes).2.length ≤ bytes.length := by
  have := (List.dropWhile_sublist (· != greaterSign) (l := bytes)).length_le
  simp only [cutAtGreater, List.length_drop]
  omega

theorem length_cutTag (quote : Option UInt8) (bytes : List UInt8) :
    (cutTag quote bytes).2.length ≤ bytes.length := by
  induction bytes generalizing quote with
  | nil => cases quote <;> simp [cutTag]
  | cons b rest ih =>
    cases quote with
    | none =>
      simp only [cutTag]
      split
      · simp
      · exact Nat.le_succ_of_le (ih _)
    | some quote => exact Nat.le_succ_of_le (ih _)

theorem length_cutWhere {stops : List UInt8 → Bool} {seen bytes : List UInt8}
    {cut : List UInt8 × List UInt8} (h : cutWhere stops seen bytes = some cut) :
    cut.2.length ≤ bytes.length := by
  induction bytes generalizing seen with
  | nil => simp [cutWhere] at h
  | cons b rest ih =>
    simp only [cutWhere] at h
    split at h
    · cases h; simp
    · exact Nat.le_succ_of_le (ih h)

theorem length_passOver {construct : Construct} {stops : List UInt8 → Bool}
    {check : List UInt8 → Option Error} {opened opened' : List (List UInt8)}
    {bytes rest : List UInt8} {event : Option Event}
    (h : passOver construct stops check opened bytes = .next event opened' rest) :
    rest.length ≤ bytes.length := by
  unfold passOver at h
  split at h
  · cases h
  · rename_i cut hcut
    split at h
    · cases h
    · cases h
      exact length_cutWhere hcut

theorem length_readBang {opened opened' : List (List UInt8)} {bytes rest : List UInt8}
    {event : Option Event} (h : readBang opened bytes = .next event opened' rest) :
    rest.length ≤ bytes.length := by
  unfold readBang at h
  split at h
  · cases h
  · split at h
    · exact length_passOver h
    · split at h
      · exact length_passOver h
      · split at h
        · exact length_passOver h
        · cases h

theorem length_readTag {offset : Nat} {opened opened' : List (List UInt8)}
    {bytes rest : List UInt8} {event : Option Event}
    (h : readTag offset opened bytes = .next event opened' rest) :
    rest.length ≤ bytes.length := by
  unfold readTag at h
  split at h
  · cases h
  · rename_i b more
    split at h
    · exact Nat.le_succ_of_le (length_readBang h)
    · split at h
      · unfold readEnd at h
        simp only at h
        split at h
        · cases h
        · split at h
          · cases h
            exact Nat.le_succ_of_le (length_cutAtGreater more)
          · cases h
      · split at h
        · unfold readInstruction at h
          simp only at h
          split at h
          · cases h
            exact length_cutAtGreater _
          · cases h
        · unfold readStart at h
          simp only at h
          split at h
          · cases h
          · split at h <;> cases h <;> exact length_cutTag none _

def readFrom (total : Nat) (opened : List (List UInt8)) (bytes : List UInt8) : Reading :=
  match _tag : nextTag? total bytes with
  | none => ⟨[], faultAtEnd opened⟩
  | some (offset, after) =>
    match _step : readTag offset opened after with
    | .stop => ⟨[], faultAtEnd opened⟩
    | .fault e => ⟨[], some e⟩
    | .next event opened' rest =>
      let reading := readFrom total opened' rest
      ⟨event.toList ++ reading.events, reading.fault⟩
termination_by bytes.length
decreasing_by
  have := length_nextTag? _tag
  have := length_readTag _step
  omega

def withoutMark : List UInt8 → List UInt8
  | 0xEF :: 0xBB :: 0xBF :: rest => rest
  | bytes => bytes

def read (document : List UInt8) : Reading :=
  let bytes := withoutMark document
  readFrom bytes.length [] bytes

end ApiCompat.Markup
