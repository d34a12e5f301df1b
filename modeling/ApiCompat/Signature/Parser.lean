import ApiCompat.Signature.Basic
import ApiCompat.Text.Bracket

/-! Reading type expressions and type-parameter lists. A bare name is read as a class unless
it is a primitive; which names are variables is the business of the declaring scope. Only in
a declaration with bounds is the declared name itself a variable, also inside its bounds. -/
namespace ApiCompat

open Text

inductive TypeError where
  | empty
  | unbalanced (text : String)
  | emptyArgument (text : String)
  | danglingBound (text : String)
  deriving DecidableEq, Repr

def TypeError.message : TypeError → String
  | empty => "empty type expression"
  | unbalanced text => "unbalanced brackets in type expression '" ++ text ++ "'"
  | emptyArgument text => "empty type argument in '" ++ text ++ "'"
  | danglingBound text => "dangling bound clause in '" ++ text ++ "'"

namespace Signature

inductive BoundSide where
  | upper
  | lower
  deriving DecidableEq, Repr

def BoundSide.keyword : BoundSide → String
  | upper => "extends"
  | lower => "super"

def withBounds (side : BoundSide) (bounds : List Signature) (s : Signature) : Signature :=
  match side with
  | .upper => { s with extendsBounds := bounds }
  | .lower => { s with superBounds := bounds }

structure BoundClause where
  head : List Char
  side : BoundSide
  tail : List Char

/-- What follows a word at the start of a text, if a blank or the end of the text closes it. -/
def afterWord? (word text : List Char) : Option (List Char) :=
  if word.isPrefixOf text then
    match text.drop word.length with
    | [] => some []
    | ' ' :: rest => some rest
    | _ => none
  else none

def boundsAhead? (text : List Char) : Option (BoundSide × List Char) :=
  match afterWord? BoundSide.upper.keyword.toList text with
  | some tail => some (.upper, tail)
  | none => (afterWord? BoundSide.lower.keyword.toList text).map fun tail => (.lower, tail)

def boundClauseFrom (depth : Nat) (before : List Char) : List Char → Option BoundClause
  | [] => none
  | c :: rest =>
    match if c = ' ' ∧ depth = 0 then boundsAhead? rest else none with
    | some (side, tail) => some ⟨trim before.reverse, side, tail⟩
    | none => boundClauseFrom (depthAfter depth c) (c :: before) rest

def boundClause? (text : List Char) : Option BoundClause := boundClauseFrom 0 [] text

theorem length_afterWord? {word text tail : List Char} (h : afterWord? word text = some tail) :
    tail.length ≤ text.length := by
  unfold afterWord? at h
  split at h
  · split at h
    · cases h; simp
    · rename_i rest hrest
      cases h
      have := congrArg List.length hrest
      simp only [List.length_drop, List.length_cons] at this
      omega
    · cases h
  · cases h

theorem length_boundsAhead? {text tail : List Char} {side : BoundSide}
    (h : boundsAhead? text = some (side, tail)) : tail.length ≤ text.length := by
  unfold boundsAhead? at h
  split at h
  · rename_i found
    cases h
    exact length_afterWord? found
  · obtain ⟨found, hfound, heq⟩ := Option.map_eq_some_iff.1 h
    cases heq
    exact length_afterWord? hfound

theorem length_boundClauseFrom {depth : Nat} {before text : List Char} {clause : BoundClause}
    (h : boundClauseFrom depth before text = some clause) :
    clause.head.length < before.length + text.length ∧ clause.tail.length < text.length := by
  induction text generalizing depth before with
  | nil => simp [boundClauseFrom] at h
  | cons c rest ih =>
    simp only [boundClauseFrom] at h
    split at h
    · rename_i side tail ahead
      cases h
      split at ahead
      · have htail := length_boundsAhead? ahead
        have hhead := length_trim_le before.reverse
        simp only [List.length_reverse] at hhead
        simp only [List.length_cons]
        omega
      · cases ahead
    · have := ih h
      simp only [List.length_cons] at this ⊢
      omega

theorem length_boundClause? {text : List Char} {clause : BoundClause}
    (h : boundClause? text = some clause) :
    clause.head.length < text.length ∧ clause.tail.length < text.length := by
  simpa using length_boundClauseFrom h

def ofBareText (bare : List Char) : Signature :=
  let name := String.ofList (trim (bare.takeWhile (· != '[')))
  let dimension := String.ofList ((bare.dropWhile (· != '[')).filter fun c => !isBlank c)
  { ofName (if primitiveNames.contains name then .primitive else .classType) name with dimension }

/-- Reads one type without ellipsis; `whole` is the expression that errors quote. Of several
argument groups, as in a member of a generic class, those of the innermost type are kept. -/
def readType (whole : String) (text : List Char) : Except TypeError Signature :=
  let body := trim text
  if body = [] then .error (.emptyArgument whole)
  else
    match _clause : boundClause? body with
    | some found =>
      if isBlankText found.tail then .error (.danglingBound whole)
      else do
        let bounds ← (splitTopLevel '&' found.tail).attach.mapM fun ⟨piece, _isPiece⟩ =>
          readType whole piece
        if found.head = ['?'] then
          return anyType.withBounds found.side bounds
        else
          let head ← readType whole found.head
          let declared := { head with kind := .typeVariable }
          return declared.withBounds found.side (markVariablesAll (· == declared.name) bounds)
    | none =>
      if body = ['?'] then .ok anyType
      else do
        let cut := outline body
        let groups ← cut.insides.attach.mapM fun ⟨inside, _isInside⟩ =>
          (splitTopLevel ',' inside).attach.mapM fun ⟨piece, _isPiece⟩ => readType whole piece
        match cut.lastPart? with
        | none => .error (.unbalanced whole)
        | some lastPart =>
          let named := ofBareText cut.bare
          if named.name = "" then .error (.emptyArgument whole)
          else
            let ownGroup := isBlankText (lastPart.takeWhile (· != '['))
            return { named with arguments := if ownGroup then groups.getLastD [] else [] }
termination_by text.length
decreasing_by
  · have := length_le_of_mem_splitTopLevel _isPiece
    have := (length_boundClause? _clause).2
    have : body.length ≤ text.length := length_trim_le text
    omega
  · have := (length_boundClause? _clause).1
    have : body.length ≤ text.length := length_trim_le text
    omega
  · have := length_le_of_mem_splitTopLevel _isPiece
    have := length_lt_of_mem_insides _isInside
    have : body.length ≤ text.length := length_trim_le text
    omega

def splitEllipsis (text : List Char) : List Char × Bool :=
  match text.reverse with
  | '.' :: '.' :: '.' :: rest => (trimEnd rest.reverse, true)
  | _ => (text, false)

def parse (expression : String) : Except TypeError Signature :=
  let text := trim expression.toList
  if text = [] then .error .empty
  else if balanced text = false then .error (.unbalanced (String.ofList text))
  else do
    let (body, varargs) := splitEllipsis text
    let s ← readType expression body
    return { s with varargs }

def readParameter (whole : String) (piece : List Char) : Except TypeError Signature :=
  if isBlankText piece then .error (.emptyArgument whole)
  else do
    let s ← readType whole piece
    return { s with kind := .typeVariable }

def insideBrackets? (text : List Char) : Option (List Char) :=
  match text with
  | '<' :: rest =>
    match rest.reverse with
    | '>' :: inside => some inside.reverse
    | _ => none
  | _ => none

/-- Reads a type-parameter list, brackets included. Every declared name is a variable in all
bounds of the list, so that parameters may refer to one another. -/
def parseParameters (list : String) : Except TypeError (List Signature) :=
  let text := trim list.toList
  if text = [] then .ok []
  else if balanced text = false then .error (.unbalanced (String.ofList text))
  else
    match insideBrackets? text with
    | none => .error (.unbalanced list)
    | some inside => do
      let parameters ← (splitTopLevel ',' inside).mapM (readParameter list)
      let names := parameters.map (·.name)
      return parameters.map (markChildren fun name => names.contains name)

def parseDeclaredName (text : String) : Except TypeError (String × List Signature) :=
  let name := String.ofList (trim (text.toList.takeWhile (· != '<')))
  match text.toList.dropWhile (· != '<') with
  | [] => .ok (name, [])
  | list => do
    let parameters ← parseParameters (String.ofList list)
    return (name, parameters)

end Signature

end ApiCompat
