/-! UTF-8. A byte sequence is read from the front: each step finds a character, a stretch of
bytes that can start no character, or a character cut off by the end. Strict reading reports
the first fault with its index; lenient reading puts one replacement character for each. -/
namespace ApiCompat.Text.Utf8

inductive Fault where
  /-- Bytes that no character starts with, at an index. -/
  | invalid (length index : Nat)
  | incomplete (index : Nat)
  deriving DecidableEq, Repr

def Fault.message : Fault → String
  | invalid length index =>
    "invalid utf-8 sequence of " ++ Nat.repr length ++ " bytes from index " ++ Nat.repr index
  | incomplete index => "incomplete utf-8 byte sequence from index " ++ Nat.repr index

inductive Front where
  | nothing
  | char (c : Char) (rest : List UInt8)
  | invalid (length : Nat) (rest : List UInt8)
  | incomplete

/-- What the first byte of a longer character says about it. -/
structure Lead where
  following : Nat
  value : Nat
  low : UInt8
  high : UInt8

def lead? (b : UInt8) : Option Lead :=
  let value := b.toNat
  if b < 0xC2 then none
  else if b < 0xE0 then some ⟨1, value - 0xC0, 0x80, 0xBF⟩
  else if b < 0xF0 then
    some ⟨2, value - 0xE0, if b = 0xE0 then 0xA0 else 0x80, if b = 0xED then 0x9F else 0xBF⟩
  else if b < 0xF5 then
    some ⟨3, value - 0xF0, if b = 0xF0 then 0x90 else 0x80, if b = 0xF4 then 0x8F else 0xBF⟩
  else none

/-- Reads the bytes that are still to follow; `read` counts those read so far. -/
def continueWith (value read : Nat) (low high : UInt8) : Nat → List UInt8 → Front
  | 0, rest => .char (Char.ofNat value) rest
  | _ + 1, [] => .incomplete
  | n + 1, b :: rest =>
    if low ≤ b ∧ b ≤ high then
      continueWith (value * 64 + (b.toNat - 0x80)) (read + 1) 0x80 0xBF n rest
    else .invalid read (b :: rest)

def front : List UInt8 → Front
  | [] => .nothing
  | b :: rest =>
    if b < 0x80 then .char (Char.ofNat b.toNat) rest
    else
      match lead? b with
      | none => .invalid 1 rest
      | some lead => continueWith lead.value 1 lead.low lead.high lead.following rest

def Front.rest : Front → List UInt8
  | nothing => []
  | char _ rest => rest
  | invalid _ rest => rest
  | incomplete => []

theorem length_rest_continueWith (value read : Nat) (low high : UInt8) (n : Nat)
    (bytes : List UInt8) :
    (continueWith value read low high n bytes).rest.length ≤ bytes.length := by
  induction n generalizing value read low high bytes with
  | zero => simp [continueWith, Front.rest]
  | succ n ih =>
    cases bytes with
    | nil => simp [continueWith, Front.rest]
    | cons b rest =>
      simp only [continueWith]
      split
      · have := ih (value * 64 + (b.toNat - 0x80)) (read + 1) 0x80 0xBF rest
        simp only [List.length_cons]
        omega
      · simp [Front.rest]

theorem length_rest_front (b : UInt8) (bytes : List UInt8) :
    (front (b :: bytes)).rest.length < (b :: bytes).length := by
  simp only [front]
  split
  · simp [Front.rest]
  · split
    · simp [Front.rest]
    · have := length_rest_continueWith
      exact Nat.lt_succ_of_le (this _ _ _ _ _ _)

theorem length_lt_of_front {bytes rest : List UInt8} (h : (front bytes).rest = rest)
    (hne : bytes ≠ []) : rest.length < bytes.length := by
  cases bytes with
  | nil => exact absurd rfl hne
  | cons b bytes => rw [← h]; exact length_rest_front b bytes

def decodeFrom (index : Nat) (bytes : List UInt8) : Except Fault (List Char) :=
  match _front : front bytes with
  | .nothing => .ok []
  | .incomplete => .error (.incomplete index)
  | .invalid length _ => .error (.invalid length index)
  | .char c rest => do
    let text ← decodeFrom (index + (bytes.length - rest.length)) rest
    return c :: text
termination_by bytes.length
decreasing_by
  exact length_lt_of_front (by rw [_front]; rfl) (by rintro rfl; simp [front] at _front)

def decode (bytes : List UInt8) : Except Fault (List Char) := decodeFrom 0 bytes

/-- The text of a byte sequence, with one replacement character for each fault. -/
def decodeLossy (bytes : List UInt8) : List Char :=
  match _front : front bytes with
  | .nothing => []
  | .incomplete => ['\uFFFD']
  | .invalid _ rest => '\uFFFD' :: decodeLossy rest
  | .char c rest => c :: decodeLossy rest
termination_by bytes.length
decreasing_by
  all_goals
    exact length_lt_of_front (by rw [_front]; rfl) (by rintro rfl; simp [front] at _front)

end ApiCompat.Text.Utf8
