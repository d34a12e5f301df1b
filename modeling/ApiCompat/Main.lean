import ApiCompat.CommandLine.Run

/-! The program. It reads the files that its arguments name, runs and writes the outcome. -/
namespace ApiCompat

open CommandLine

def readPath (path : String) : IO (Except PathFault (List UInt8)) := do
  try
    let content ← IO.FS.readBinFile path
    return .ok content.toList
  catch e =>
    match e with
    | .permissionDenied .. => return .error .denied
    | .inappropriateType .. => return .error .directory
    | _ => return .error .absent

/-- Reads all that a run may read; the standard input only if an operand names it. -/
def gather (arguments : Arguments) : IO Surroundings := do
  let paths := (arguments.config.getD defaultSettingsPath) ::
    arguments.operands.filter (· ≠ standardInputPath)
  let contents ← paths.mapM fun path => return (path, ← readPath path)
  let input ←
    if arguments.operands.contains standardInputPath then (← IO.getStdin).readBinToEnd
    else pure ByteArray.empty
  return ⟨fun path => (contents.lookup path).getD (.error .absent), input.toList⟩

def conclude (outcome : Outcome) : IO UInt32 := do
  IO.print outcome.output
  IO.eprint outcome.errors
  if outcome.errors ≠ "" ∧ ¬ outcome.errors.endsWith "\n" then IO.eprintln ""
  return UInt32.ofNat outcome.status

end ApiCompat

def main (arguments : List String) : IO UInt32 := do
  match ApiCompat.CommandLine.Arguments.parse arguments with
  | .error stop => ApiCompat.conclude stop.outcome
  | .ok parsed => do
    let surroundings ← ApiCompat.gather parsed
    ApiCompat.conclude (parsed.run surroundings)
