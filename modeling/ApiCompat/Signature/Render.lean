import ApiCompat.Signature.Basic

/-! Writing signatures. The written form of a type variable shows its bounds once: a variable
that is already being shown is written as its bare name, so a bound that mentions the variable
itself comes to an end. The names shown so far are threaded through the whole signature. -/
namespace ApiCompat.Signature

mutual

/-- The written form, given the variables shown so far, and those shown after it. Of arguments,
lower bounds and upper bounds the first that is present is written. -/
def renderWith (shown : List String) : Signature → String × List String
  | ⟨kind, name, dimension, arguments, supers, uppers, _, _⟩ =>
    if kind = .typeVariable ∧ name ∈ shown then (name, shown)
    else
      let shown := if kind = .typeVariable then name :: shown else shown
      if arguments.isEmpty = false then
        let parts := renderAllWith shown arguments
        (name ++ "<" ++ ", ".intercalate parts.1 ++ ">" ++ dimension, parts.2)
      else if supers.isEmpty = false then
        let parts := renderAllWith shown supers
        (name ++ " super " ++ " & ".intercalate parts.1 ++ dimension, parts.2)
      else if uppers.isEmpty = false then
        let parts := renderAllWith shown uppers
        (name ++ " extends " ++ " & ".intercalate parts.1 ++ dimension, parts.2)
      else (name ++ dimension, shown)

def renderAllWith (shown : List String) : List Signature → List String × List String
  | [] => ([], shown)
  | s :: rest =>
    let first := renderWith shown s
    let others := renderAllWith first.2 rest
    (first.1 :: others.1, others.2)

end

def fullName (s : Signature) : String := (renderWith [] s).1

def displayName (s : Signature) : String :=
  if s.varargs then s.fullName ++ "..." else s.fullName

end ApiCompat.Signature
