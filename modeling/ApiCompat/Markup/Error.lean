import ApiCompat.Markup.Entity
import ApiCompat.Text.Utf8

/-! What can be wrong with a document as markup, and the texts that say so. -/
namespace ApiCompat.Markup

inductive Construct where
  | bang
  | comment
  | characterData
  | documentType
  | instruction
  deriving DecidableEq, Repr

def Construct.label : Construct → String
  | bang => "Bang"
  | comment => "Comment"
  | characterData => "CData"
  | documentType => "DOCTYPE"
  | instruction => "XmlDecl"

inductive AttributeFault where
  | keyWithoutEquals
  | valueMissing
  | valueUnquoted
  | quoteUnclosed (quote : UInt8)
  deriving DecidableEq, Repr

def AttributeFault.message : AttributeFault → String
  | keyWithoutEquals => "attribute key must be directly followed by `=` or space"
  | valueMissing => "`=` must be followed by an attribute value"
  | valueUnquoted => "attribute value must be enclosed in `\"` or `'`"
  | quoteUnclosed quote =>
    "missing closing quote `" ++ EntityFault.byteText quote ++ "` in attribute value"

inductive Error where
  | cutOff (construct : Construct)
  /-- An exclamation mark followed by a byte that starts none of its constructs. -/
  | unknownBang (byte : UInt8)
  | emptyDocumentType
  | mismatchedEnd (expected found : String)
  | malformedText (fault : Text.Utf8.Fault)
  | entity (fault : EntityFault)
  | badAttribute (index : Nat) (fault : AttributeFault)
  | truncated (element : String)
  deriving DecidableEq, Repr

namespace Error

def detail : Error → String
  | cutOff construct => "Unexpected EOF during reading " ++ construct.label
  | unknownBang byte =>
    "Only Comment (`--`), CDATA (`[CDATA[`) and DOCTYPE (`DOCTYPE`) nodes can start with a '!'" ++
      ", but symbol `" ++ EntityFault.byteText byte ++ "` found"
  | emptyDocumentType => "DOCTYPE declaration must not be empty"
  | mismatchedEnd expected found => "Expecting </" ++ expected ++ "> found </" ++ found ++ ">"
  | malformedText fault => "Malformed UTF-8 input: " ++ fault.message
  | entity fault => fault.message
  | badAttribute index fault => "position " ++ Nat.repr index ++ ": " ++ fault.message
  | truncated element => "unexpected end of document inside <" ++ element ++ ">"

def message (e : Error) : String :=
  match e with
  | badAttribute _ _ => "XML attribute error: " ++ e.detail
  | truncated _ => e.detail
  | _ => "XML error: " ++ e.detail

end Error

end ApiCompat.Markup
