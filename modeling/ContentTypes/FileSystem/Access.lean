import ContentTypes.FileSystem.Resolve
/-!
Reading and writing. An operation that fails changes nothing, except that making a chain of
directories keeps those that were made before the failure.
-/

namespace ContentTypes

/-- Why a file cannot be read as a text. -/
inductive ReadError where
  | os (e : OsError)
  | notUtf8
  deriving DecidableEq, Repr

def ReadError.message : ReadError → String
  | .os e => e.message
  | .notUtf8 => "stream did not contain valid UTF-8"

namespace FileSystem

/-- The location of the directory that a path leads to. -/
def directoryAt (fs : FileSystem) (p : Path) : Except OsError Location :=
  match fs.find true p with
  | .error e => .error e
  | .ok (loc, .directory) => .ok loc
  | .ok (_, _) => .error .notDirectory

def isDirectory (fs : FileSystem) (p : Path) : Bool :=
  match fs.find true p with
  | .ok (_, .directory) => true
  | _ => false

def readBytes (fs : FileSystem) (p : Path) : Except OsError ByteArray :=
  match fs.find true p with
  | .error e => .error e
  | .ok (_, .file content) => .ok content
  | .ok (_, _) => .error .isDirectory

def readText (fs : FileSystem) (p : Path) : Except ReadError String :=
  match fs.readBytes p with
  | .error e => .error (.os e)
  | .ok content =>
    match String.fromUTF8? content with
    | some text => .ok text
    | none => .error .notUtf8

/-- Makes one directory, in a directory that is there already. -/
def makeDirectory (fs : FileSystem) (p : Path) : Except OsError FileSystem := do
  let s ← fs.walk p
  match s.entry with
  | none => .error .alreadyExists
  | some n =>
    match ← fs.lookup s.directory n with
    | some _ => .error .alreadyExists
    | none => fs.place (s.directory ++ [n]) .directory

/-- Makes a directory and those above it that are missing. -/
def makeDirectories (fs : FileSystem) (p : Path) : FileSystem × Except OsError Unit :=
  if p.bytes = [] then (fs, .ok ())
  else
    match fs.makeDirectory p with
    | .ok fs' => (fs', .ok ())
    | .error .notFound =>
      match _h : p.parent? with
      | none => (fs, .error .notFound)
      | some q =>
        match makeDirectories fs q with
        | (fs', .error e) => (fs', .error e)
        | (fs', .ok ()) =>
          match fs'.makeDirectory p with
          | .ok fs'' => (fs'', .ok ())
          | .error e => (fs', if fs'.isDirectory p then .ok () else .error e)
    | .error e => (fs, if fs.isDirectory p then .ok () else .error e)
termination_by p.bytes.length
decreasing_by exact Path.length_parent?_lt _h

/-- Puts a file at the end of a path, in place of one that is there already. -/
def writeFile (fs : FileSystem) (p : Path) (content : ByteArray) : Except OsError FileSystem := do
  let loc ← fs.landing p.endsInSlash (← fs.walk p)
  fs.place loc (.file content)

/-- Puts a link at the end of a path, where nothing may be yet. -/
def makeLink (fs : FileSystem) (p target : Path) : Except OsError FileSystem := do
  let s ← fs.walk p
  match s.entry with
  | none => .error .alreadyExists
  | some n =>
    match ← fs.lookup s.directory n with
    | some _ => .error .alreadyExists
    | none => fs.place (s.directory ++ [n]) (.link target)

end FileSystem
end ContentTypes
