import ApiCompat.Diagnostic.Category

/-! The options of the command line: switches, which stand alone, and options that take a
value. Every option has a name; some switches have a letter as well. -/
namespace ApiCompat.CommandLine

inductive Switch where
  | noColor
  | compact
  | listCategories
  | verbose
  | quiet
  | version
  | help
  deriving DecidableEq, Repr

namespace Switch

def all : List Switch := [noColor, compact, listCategories, verbose, quiet, version, help]

def name : Switch → String
  | noColor => "no-color"
  | compact => "compact"
  | listCategories => "list-categories"
  | verbose => "verbose"
  | quiet => "quiet"
  | version => "version"
  | help => "help"

def letter? : Switch → Option Char
  | verbose => some 'v'
  | quiet => some 'q'
  | version => some 'V'
  | help => some 'h'
  | _ => none

def ofName? (name : String) : Option Switch := all.find? (·.name == name)

def ofLetter? (c : Char) : Option Switch := all.find? (·.letter? == some c)

def text (switch : Switch) : String := "--" ++ switch.name

end Switch

inductive ValueOption where
  | severity (severity : Severity)
  | format
  | config
  deriving DecidableEq, Repr

namespace ValueOption

def all : List ValueOption :=
  [severity .error, severity .warning, severity .hidden, format, config]

def name : ValueOption → String
  | severity .error => "error"
  | severity .warning => "warning"
  | severity .hidden => "hide"
  | format => "format"
  | config => "config"

def valueName : ValueOption → String
  | severity _ => "CODE"
  | format => "FORMAT"
  | config => "PATH"

def ofName? (name : String) : Option ValueOption := all.find? (·.name == name)

def text (option : ValueOption) : String := "--" ++ option.name ++ " <" ++ option.valueName ++ ">"

end ValueOption

end ApiCompat.CommandLine
