/-! The forms of a report: one line for a diagnostic, JSON or a table. -/
namespace ApiCompat.Report

inductive Format where
  | text
  | json
  | table
  deriving DecidableEq, Repr, Inhabited

namespace Format

def all : List Format := [text, json, table]

def name : Format → String
  | text => "text"
  | json => "json"
  | table => "table"

def ofName? (name : String) : Option Format := all.find? (·.name == name)

def ofAnyCase? (name : String) : Option Format := ofName? name.toLower

theorem ofName?_name (format : Format) : ofName? format.name = some format := by
  cases format <;> decide

end Format

end ApiCompat.Report
