import ApiCompat.Toml.Scalar

/-! Strings of TOML: basic ones, with escapes, and literal ones, each on one line or over
several. Every reader starts behind the opening quotes. -/
namespace ApiCompat.Toml

/-- Characters that may stand in comments and strings: all but the controls other than tab. -/
def isTextChar (c : Char) : Bool := c == '\t' || (0x20 ≤ c.toNat && c.toNat != 0x7F)

def prepend (front : List Char) (read : Option (List Char × List Char)) :
    Option (List Char × List Char) :=
  read.map fun found => (front ++ found.1, found.2)

def escapedChar? (digits : List Char) : Option Char :=
  if digits.all (isDigitOf 16) then
    let code := digits.foldl (fun n c => n * 16 + digitValue c) 0
    if code.isValidChar then some (Char.ofNat code) else none
  else none

def shortEscape? : Char → Option Char
  | 'b' => some '\x08'
  | 't' => some '\t'
  | 'n' => some '\n'
  | 'f' => some '\x0c'
  | 'r' => some '\r'
  | '"' => some '"'
  | '\\' => some '\\'
  | _ => none

def blankLineAhead (text : List Char) : Bool :=
  match text.dropWhile fun c => c == ' ' || c == '\t' with
  | '\n' :: _ => true
  | '\r' :: '\n' :: _ => true
  | _ => false

def readBasic : List Char → Option (List Char × List Char)
  | [] => none
  | '\\' :: 'u' :: a :: b :: c :: d :: rest => do
    let found ← escapedChar? [a, b, c, d]
    prepend [found] (readBasic rest)
  | '\\' :: 'U' :: a :: b :: c :: d :: e :: f :: g :: h :: rest => do
    let found ← escapedChar? [a, b, c, d, e, f, g, h]
    prepend [found] (readBasic rest)
  | '\\' :: c :: rest => do
    let found ← shortEscape? c
    prepend [found] (readBasic rest)
  | '"' :: rest => some ([], rest)
  | c :: rest => if isTextChar c && c != '\\' then prepend [c] (readBasic rest) else none

def readLiteral : List Char → Option (List Char × List Char)
  | [] => none
  | '\'' :: rest => some ([], rest)
  | c :: rest => if isTextChar c then prepend [c] (readLiteral rest) else none

/-- Reads over several lines. While `skipping`, which a backslash at the end of a line begins,
white space and line ends are left out. Up to two quotes may stand in front of the closing ones. -/
def readLongBasic (skipping : Bool) : List Char → Option (List Char × List Char)
  | [] => none
  | '\r' :: '\n' :: rest =>
    prepend (if skipping then [] else ['\n']) (readLongBasic skipping rest)
  | '\n' :: rest => prepend (if skipping then [] else ['\n']) (readLongBasic skipping rest)
  | '"' :: '"' :: '"' :: '"' :: '"' :: rest => some (['"', '"'], rest)
  | '"' :: '"' :: '"' :: '"' :: rest => some (['"'], rest)
  | '"' :: '"' :: '"' :: rest => some ([], rest)
  | '\\' :: 'u' :: a :: b :: c :: d :: rest => do
    let found ← escapedChar? [a, b, c, d]
    prepend [found] (readLongBasic false rest)
  | '\\' :: 'U' :: a :: b :: c :: d :: e :: f :: g :: h :: rest => do
    let found ← escapedChar? [a, b, c, d, e, f, g, h]
    prepend [found] (readLongBasic false rest)
  | '\\' :: c :: rest =>
    if blankLineAhead (c :: rest) then readLongBasic true (c :: rest)
    else do
      let found ← shortEscape? c
      prepend [found] (readLongBasic false rest)
  | c :: rest =>
    if skipping && (c == ' ' || c == '\t') then readLongBasic true rest
    else if isTextChar c && c != '\\' then prepend [c] (readLongBasic false rest)
    else none

def readLongLiteral : List Char → Option (List Char × List Char)
  | [] => none
  | '\r' :: '\n' :: rest => prepend ['\n'] (readLongLiteral rest)
  | '\n' :: rest => prepend ['\n'] (readLongLiteral rest)
  | '\'' :: '\'' :: '\'' :: '\'' :: '\'' :: rest => some (['\'', '\''], rest)
  | '\'' :: '\'' :: '\'' :: '\'' :: rest => some (['\''], rest)
  | '\'' :: '\'' :: '\'' :: rest => some ([], rest)
  | c :: rest => if isTextChar c then prepend [c] (readLongLiteral rest) else none

def dropFirstLineEnd : List Char → List Char
  | '\r' :: '\n' :: rest => rest
  | '\n' :: rest => rest
  | text => text

def readString (text : List Char) : Option (String × List Char) :=
  let read := match text with
    | '"' :: '"' :: '"' :: rest => readLongBasic false (dropFirstLineEnd rest)
    | '"' :: rest => readBasic rest
    | '\'' :: '\'' :: '\'' :: rest => readLongLiteral (dropFirstLineEnd rest)
    | '\'' :: rest => readLiteral rest
    | _ => none
  read.map fun found => (String.ofList found.1, found.2)

end ApiCompat.Toml
