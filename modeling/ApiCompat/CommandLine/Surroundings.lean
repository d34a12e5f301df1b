import ApiCompat.Settings
import ApiCompat.Snapshot.Description
import ApiCompat.Snapshot.Linking

/-! What a run can read: files by their paths, and the standard input. Nothing is written. -/
namespace ApiCompat.CommandLine

inductive PathFault where
  | absent
  | denied
  | directory
  deriving DecidableEq, Repr

def PathFault.message : PathFault → String
  | absent => "No such file or directory (os error 2)"
  | denied => "Permission denied (os error 13)"
  | directory => "Is a directory (os error 21)"

structure Surroundings where
  file : String → Except PathFault (List UInt8)
  standardInput : List UInt8

def standardInputPath : String := "-"

def defaultSettingsPath : String := ".apicheckrc.toml"

inductive SettingsFault where
  | path (fault : PathFault)
  | malformedText
  | unparsable
  deriving DecidableEq, Repr

inductive SnapshotFault where
  | path (fault : PathFault)
  | load (e : LoadError)
  deriving DecidableEq, Repr

/-- A directory can be opened, so it is found out only when the markup is read. -/
def SnapshotFault.message : SnapshotFault → String
  | path .directory => "XML error: I/O error: " ++ PathFault.directory.message
  | path fault => "I/O error: " ++ fault.message
  | load e => e.message

namespace Surroundings

def readSettings (s : Surroundings) (path : String) : Except SettingsFault Settings :=
  match s.file path with
  | .error fault => .error (.path fault)
  | .ok bytes =>
    match Text.Utf8.decode bytes with
    | .error _ => .error .malformedText
    | .ok text =>
      match Settings.parse? (String.ofList text) with
      | none => .error .unparsable
      | some settings => .ok settings

/-- The settings of a run: a named file must be usable, and the default one is passed over if it
is not. -/
def settings (s : Surroundings) (named : Option String) :
    Except (String × SettingsFault) Settings :=
  match named with
  | some path => (s.readSettings path).mapError fun fault => (path, fault)
  | none =>
    match s.readSettings defaultSettingsPath with
    | .ok settings => .ok settings
    | .error _ => .ok .none

def document (s : Surroundings) (path : String) : Except PathFault (List UInt8) :=
  if path = standardInputPath then .ok s.standardInput else s.file path

def snapshot (s : Surroundings) (path : String) : Except SnapshotFault Snapshot :=
  match s.document path with
  | .error fault => .error (.path fault)
  | .ok bytes =>
    match Snapshot.load bytes with
    | .error e => .error (.load e)
    | .ok loaded => .ok loaded.resolve

end Surroundings

end ApiCompat.CommandLine
