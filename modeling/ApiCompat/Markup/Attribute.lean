import ApiCompat.Markup.Error

/-! Attributes of a tag. They are read one after the other from the bytes behind the tag's
name; places are indexes into the tag's content. Keys are read leniently, values strictly. -/
namespace ApiCompat.Markup

def isSpace (b : UInt8) : Bool := b == 0x20 || b == 0x09 || b == 0x0D || b == 0x0A

def isQuote (b : UInt8) : Bool := b == 0x22 || b == 0x27

def equalsSign : UInt8 := 0x3D

def valueText (bytes : List UInt8) : Except Error String := do
  let text ← (Text.Utf8.decode bytes).mapError .malformedText
  let expanded ← (expandEntities text).mapError .entity
  return String.ofList expanded

/-- A key and the bytes that follow its equals sign; `total` is the length of the content, so
that a suffix starts at `total` less its own length. -/
def readKey (total : Nat) (bytes : List UInt8) : Except Error (String × List UInt8) :=
  let endsKey (b : UInt8) : Bool := b == equalsSign || isSpace b
  let key := bytes.take 1 ++ (bytes.drop 1).takeWhile (!endsKey ·)
  match (bytes.drop key.length).dropWhile isSpace with
  | [] => .error (.badAttribute total .keyWithoutEquals)
  | b :: rest =>
    if b = equalsSign then .ok (String.ofList (Text.Utf8.decodeLossy key), rest)
    else .error (.badAttribute (total - (rest.length + 1)) .keyWithoutEquals)

def readValue (total : Nat) (bytes : List UInt8) : Except Error (List UInt8 × List UInt8) :=
  match bytes.dropWhile isSpace with
  | [] => .error (.badAttribute total .valueMissing)
  | quote :: rest =>
    if isQuote quote then
      match rest.dropWhile (· != quote) with
      | [] => .error (.badAttribute total (.quoteUnclosed quote))
      | _ :: after => .ok (rest.takeWhile (· != quote), after)
    else .error (.badAttribute (total - (rest.length + 1)) .valueUnquoted)

theorem length_readKey {total : Nat} {bytes rest : List UInt8} {key : String}
    (h : readKey total bytes = .ok (key, rest)) : rest.length < bytes.length := by
  unfold readKey at h
  simp only at h
  split at h
  · cases h
  · rename_i b after hafter
    split at h
    · cases h
      have hdrop := (List.dropWhile_sublist isSpace (l := bytes.drop
        (bytes.take 1 ++ (bytes.drop 1).takeWhile
          (fun b => !(b == equalsSign || isSpace b))).length)).length_le
      rw [hafter] at hdrop
      simp only [List.length_cons, List.length_drop] at hdrop
      omega
    · cases h

theorem length_readValue {total : Nat} {bytes value rest : List UInt8}
    (h : readValue total bytes = .ok (value, rest)) : rest.length < bytes.length := by
  unfold readValue at h
  split at h
  · cases h
  · rename_i quote inside hinside
    have hbytes := (List.dropWhile_sublist isSpace (l := bytes)).length_le
    rw [hinside, List.length_cons] at hbytes
    split at h
    · split at h
      · cases h
      · rename_i closing after hafter
        cases h
        have hdrop := (List.dropWhile_sublist (· != quote) (l := inside)).length_le
        rw [hafter, List.length_cons] at hdrop
        omega
    · cases h

def readAttributesFrom (total : Nat) (bytes : List UInt8) :
    Except Error (List (String × String)) :=
  match _start : bytes.dropWhile isSpace with
  | [] => .ok []
  | b :: more =>
    match _key : readKey total (b :: more) with
    | .error e => .error e
    | .ok (key, afterKey) =>
      match _value : readValue total afterKey with
      | .error e => .error e
      | .ok (value, rest) => do
        let text ← valueText value
        let others ← readAttributesFrom total rest
        return (key, text) :: others
termination_by bytes.length
decreasing_by
  have hstart := (List.dropWhile_sublist isSpace (l := bytes)).length_le
  rw [_start] at hstart
  have hkey := length_readKey _key
  have hvalue := length_readValue _value
  omega

end ApiCompat.Markup
