import ApiCompat.Toml.Quote

/-! Reading TOML documents: keys, values and lines. Lists and inline tables nest to a fixed
depth. The readers of nested values take a number of steps that is computed from the length
of the text, since every step but a constant number per character consumes one. -/
namespace ApiCompat.Toml

/-- The deepest nesting of values and the longest dotted key. -/
def depthLimit : Nat := 79

def skipBlanks (text : List Char) : List Char := text.dropWhile fun c => c == ' ' || c == '\t'

def skipSpace (inComment : Bool) : List Char → Option (List Char)
  | [] => some []
  | '\r' :: '\n' :: rest => skipSpace false rest
  | '\n' :: rest => skipSpace false rest
  | c :: rest =>
    if inComment then (if isTextChar c then skipSpace true rest else none)
    else if c = ' ' ∨ c = '\t' then skipSpace false rest
    else if c = '#' then skipSpace true rest
    else some (c :: rest)

def afterLineEnd? : List Char → Option (List Char)
  | [] => some []
  | '\r' :: '\n' :: rest => some rest
  | '\n' :: rest => some rest
  | _ => none

def afterLine? (text : List Char) : Option (List Char) :=
  match skipBlanks text with
  | '#' :: rest => afterLineEnd? (rest.dropWhile isTextChar)
  | rest => afterLineEnd? rest

def isKeyChar (c : Char) : Bool :=
  Text.isDecimalDigit c || ('a' ≤ c && c ≤ 'z') || ('A' ≤ c && c ≤ 'Z') || c == '_' || c == '-'

def readKeyPart (text : List Char) : Option (String × List Char) :=
  match text with
  | '"' :: rest => (readBasic rest).map fun found => (String.ofList found.1, found.2)
  | '\'' :: rest => (readLiteral rest).map fun found => (String.ofList found.1, found.2)
  | _ =>
    let part := text.takeWhile isKeyChar
    if part = [] then none else some (String.ofList part, text.dropWhile isKeyChar)

/-- Reads the parts of a key with the blanks around them, at most `limit`: those in front of the
last one, and the last. -/
def readKey (limit : Nat) (text : List Char) : Option ((List String × String) × List Char) :=
  match limit with
  | 0 => none
  | limit + 1 => do
    let (part, rest) ← readKeyPart (skipBlanks text)
    match skipBlanks rest with
    | '.' :: more => do
      let ((parents, key), rest) ← readKey limit more
      return ((part :: parents, key), rest)
    | rest => return (([], part), rest)

mutual

/-- Reads a value; `depth` counts the lists and tables that it may still open. -/
def readValue (steps depth : Nat) (text : List Char) : Option (Value × List Char) :=
  match steps with
  | 0 => none
  | steps + 1 =>
    match text with
    | '[' :: rest =>
      match depth with
      | 0 => none
      | depth + 1 => do
        let (items, rest) ← readItems steps depth rest
        return (.list items, rest)
    | '\x7b' :: rest =>
      match depth with
      | 0 => none
      | depth + 1 => do
        let (pairs, rest) ← readPairs steps depth rest
        let entries ← assignAll [] pairs
        return (.table .inline entries, rest)
    | c :: _ =>
      if c = '"' ∨ c = '\'' then (readString text).map fun found => (.string found.1, found.2)
      else readScalar text
    | [] => none

def readItems (steps depth : Nat) (text : List Char) : Option (List Value × List Char) :=
  match steps with
  | 0 => none
  | steps + 1 => do
    match ← skipSpace false text with
    | ']' :: rest => return ([], rest)
    | start => do
      let (value, rest) ← readValue steps depth start
      match ← skipSpace false rest with
      | ']' :: rest => return ([value], rest)
      | ',' :: rest => do
        let (others, rest) ← readItems steps depth rest
        return (value :: others, rest)
      | _ => none

def readPairs (steps depth : Nat) (text : List Char) : Option (List Assignment × List Char) :=
  match steps with
  | 0 => none
  | steps + 1 =>
    match skipBlanks text with
    | '\x7d' :: rest => some ([], rest)
    | start => readPairsFrom steps depth start

def readPairsFrom (steps depth : Nat) (text : List Char) :
    Option (List Assignment × List Char) :=
  match steps with
  | 0 => none
  | steps + 1 => do
    let ((parents, key), rest) ← readKey depthLimit text
    match rest with
    | '=' :: rest => do
      let (value, rest) ← readValue steps depth (skipBlanks rest)
      match skipBlanks rest with
      | '\x7d' :: rest => return ([⟨parents, key, value⟩], rest)
      | ',' :: rest => do
        let (others, rest) ← readPairsFrom steps depth rest
        return (⟨parents, key, value⟩ :: others, rest)
      | _ => none
    | _ => none

end

def readAssignment (text : List Char) : Option (Assignment × List Char) := do
  let ((parents, key), rest) ← readKey depthLimit text
  match rest with
  | '=' :: rest => do
    let (value, rest) ← readValue (3 * rest.length + 3) depthLimit (skipBlanks rest)
    let rest ← afterLine? rest
    return (⟨parents, key, value⟩, rest)
  | _ => none

def readHeader (text : List Char) : Option (Header × List Char) :=
  match text with
  | '[' :: '[' :: rest => do
    let ((parents, name), rest) ← readKey depthLimit rest
    match rest with
    | ']' :: ']' :: rest => return (.element parents name, ← afterLine? rest)
    | _ => none
  | '[' :: rest => do
    let ((parents, name), rest) ← readKey depthLimit rest
    match rest with
    | ']' :: rest => return (.table parents name, ← afterLine? rest)
    | _ => none
  | _ => none

def readBlocks (steps : Nat) (header : Header) (assignments : List Assignment)
    (text : List Char) : Option (List Block) :=
  let present : Block := ⟨header, assignments.reverse⟩
  match steps with
  | 0 => none
  | steps + 1 =>
    match skipBlanks text with
    | [] => some [present]
    | '[' :: rest => do
      let (next, rest) ← readHeader ('[' :: rest)
      let others ← readBlocks steps next [] rest
      return present :: others
    | c :: rest =>
      if c = '#' ∨ c = '\n' ∨ c = '\r' then do
        readBlocks steps header assignments (← afterLine? (c :: rest))
      else do
        let (assignment, rest) ← readAssignment (c :: rest)
        readBlocks steps header (assignment :: assignments) rest

/-- Reads a document; a byte order mark may stand in front. -/
def read (document : String) : Option Entries := do
  let text := match document.toList with
    | '\uFEFF' :: rest => rest
    | text => text
  let blocks ← readBlocks (text.length + 1) .root [] text
  blocks.foldlM addBlock []

end ApiCompat.Toml
