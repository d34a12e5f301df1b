import ApiCompat.CommandLine.Code
import ApiCompat.CommandLine.Options
import ApiCompat.Text.ControlSequence
import ApiCompat.Text.Line

/-! What can be wrong with a command line, and the texts that say so. A text repeats what was given
without the control sequences in it, and a text of several lines is cut to the first. -/
namespace ApiCompat.CommandLine

inductive UsageError where
  | unexpectedArgument (argument : String)
  | unexpectedValue (value : String) (switch : Switch)
  | missingValue (option : ValueOption)
  | invalidCode (value : String) (severity : Severity) (fault : CodeFault)
  | invalidFormat (value : String)
  | repeatedOption (option : ValueOption)
  | repeatedSwitch (switch : Switch)
  | conflict (first second : Switch)
  | missingSnapshots
  deriving DecidableEq, Repr

namespace UsageError

def quoted (text : String) : String := "'" ++ text ++ "'"

def given (text : String) : String := quoted (Text.visible text)

def message : UsageError → String
  | unexpectedArgument argument => "unexpected argument " ++ given argument ++ " found"
  | unexpectedValue value switch =>
    "unexpected value " ++ given value ++ " for " ++ quoted switch.text ++
      " found; no more were expected"
  | missingValue option =>
    "a value is required for " ++ quoted option.text ++ " but none was supplied"
  | invalidCode value severity fault =>
    "invalid value " ++ given value ++ " for " ++ quoted (ValueOption.severity severity).text ++
      ": " ++ fault.message
  | invalidFormat value =>
    "invalid value " ++ given value ++ " for " ++ quoted ValueOption.format.text
  | repeatedOption option =>
    "the argument " ++ quoted option.text ++ " cannot be used multiple times"
  | repeatedSwitch switch =>
    "the argument " ++ quoted switch.text ++ " cannot be used multiple times"
  | conflict first second =>
    "the argument " ++ quoted first.text ++ " cannot be used with " ++ quoted second.text
  | missingSnapshots => "the following required arguments were not provided:"

def line (e : UsageError) : String :=
  String.ofList (Text.firstLine ("error: " ++ e.message).toList)

end UsageError

end ApiCompat.CommandLine
