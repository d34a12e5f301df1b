import ApiCompat.Diagnostic.Log
import ApiCompat.Report.Json
import ApiCompat.Report.Table

/-! What reports hold: the diagnostics of a comparison with their counts, and the categories
with the severities in force, each as JSON and as a table. -/
namespace ApiCompat.Report

def positionJson (position : Position) : Json :=
  .object [("file", .text position.file), ("line", .number position.line.toNat)]

def diagnosticJson (d : Diagnostic) : Json :=
  .object ([("category", .text d.category.key), ("code", .number d.category.code),
    ("severity", .text d.severity.text), ("message", .text d.message)] ++
    (d.location.map fun position => ("location", positionJson position)).toList)

def comparisonJson (old new : String) (log : Log) : Json :=
  .object [("old", .text old), ("new", .text new), ("errors", .number log.errors),
    ("warnings", .number log.warnings), ("suppressed", .number log.suppressed),
    ("diagnostics", .list (log.sorted.map diagnosticJson))]

def categoryJson (severities : SeverityTable) (c : Category) : Json :=
  .object [("code", .number c.code), ("key", .text c.key),
    ("default", .text c.defaultSeverity.text), ("severity", .text (severities.severity c).text)]

def categoriesJson (severities : SeverityTable) : Json :=
  .list (Category.all.map (categoryJson severities))

def diagnosticRow (d : Diagnostic) : List String :=
  [Nat.repr d.category.code, d.severity.text, (d.location.map Position.text).getD "", d.message]

def diagnosticsTable (diagnostics : List Diagnostic) : Table :=
  ⟨["code", "severity", "location", "message"], diagnostics.map diagnosticRow⟩

def categoryRow (severities : SeverityTable) (c : Category) : List String :=
  [Nat.repr c.code, c.key, c.defaultSeverity.text, (severities.severity c).text]

def categoriesTable (severities : SeverityTable) : Table :=
  ⟨["code", "key", "default", "severity"], Category.all.map (categoryRow severities)⟩

end ApiCompat.Report
