import ContentTypes.FileSystem.Access
import ContentTypes.Log.Basic
/-!
The places that a text is written to. Every place is attempted, whatever became of those before
it.
-/

namespace ContentTypes

structure Destination where
  /-- What reports call it. -/
  label : String
  directory : Path
  deriving DecidableEq, Repr

namespace Destination

inductive WriteError where
  | directory (path : Path) (e : OsError)
  | file (path : Path) (e : OsError)
  deriving DecidableEq, Repr

def WriteError.message : WriteError → String
  | .directory path e => "failed to create " ++ path.display ++ ": " ++ e.message
  | .file path e => "failed to write " ++ path.display ++ ": " ++ e.message

/-- Where a file of this name goes. -/
def filePath (d : Destination) (fileName : String) : Path :=
  d.directory.child fileName

/-- Makes the directory if it is missing, and writes the file there. -/
def write (d : Destination) (fs : FileSystem) (fileName text : String) :
    FileSystem × Except WriteError Path :=
  match fs.makeDirectories d.directory with
  | (fs', .error e) => (fs', .error (.directory d.directory e))
  | (fs', .ok ()) =>
    match fs'.writeFile (d.filePath fileName) text.toUTF8 with
    | .error e => (fs', .error (.file (d.filePath fileName) e))
    | .ok fs'' => (fs'', .ok (d.filePath fileName))

/-- What became of a destination. -/
structure Attempt where
  destination : Destination
  result : Except WriteError Path

def Attempt.failed (a : Attempt) : Bool :=
  match a.result with
  | .ok _ => false
  | .error _ => true

def Attempt.event (a : Attempt) : Log.Event :=
  match a.result with
  | .ok path =>
    { level := .info, topic := .output,
      message := "created types for " ++ a.destination.label ++ ": " ++ path.display }
  | .error e =>
    { level := .error, topic := .output,
      message := a.destination.label ++ " output failed: " ++ e.message }

/-- Attempts all destinations in their order. -/
def writeAll (fs : FileSystem) (fileName text : String) :
    List Destination → FileSystem × List Attempt
  | [] => (fs, [])
  | d :: ds =>
    let (fs', result) := d.write fs fileName text
    let (fs'', attempts) := writeAll fs' fileName text ds
    (fs'', ⟨d, result⟩ :: attempts)

end Destination
end ContentTypes
