import ContentTypes.Command
/-!
The program. A run works on file systems as values, so everything that it may look at is taken
from the disk before it, and what it changed is put back after it.
-/

namespace ContentTypes

/-- A place on the disk: the names that lead to it from the root. -/
abbrev Place := List String

namespace Place

def ofText (s : String) : Place :=
  (s.splitOn "/").filter (· ≠ "")

def text (p : Place) : String :=
  "/" ++ "/".intercalate p

def location (p : Place) : Location :=
  p.map utf8

end Place

namespace Disk

inductive Found where
  | missing
  | directory
  | file (content : ByteArray)
  /-- A link, and the place that it leads to in the end, if it leads to one. -/
  | link (target : Option Place)

def look (p : Place) : IO Found := do
  let file := System.mkFilePath [p.text]
  try
    match (← file.symlinkMetadata).type with
    | .dir => return .directory
    | .symlink =>
      try
        return .link (some (Place.ofText (← IO.FS.realPath file).toString))
      catch _ => return .link none
    | _ => return .file (← IO.FS.readBinFile file)
  catch _ => return .missing

def names (p : Place) : IO (List String) := do
  try
    let entries ← (System.mkFilePath [p.text]).readDir
    return entries.toList.map (·.fileName)
  catch _ => return []

/-- The working directory, if it has not been removed. -/
def here? : IO (Option Place) := do
  try
    return some (Place.ofText (← IO.currentDir).toString)
  catch _ => return none

/-- A target for links that lead nowhere. -/
def nowhere (p : Place) : Path :=
  .ofString ("/missing" ++ p.text)

def add (fs : FileSystem) (p : Place) (o : Object) : FileSystem :=
  (fs.place p.location o).toOption.getD fs

/-- Adds everything on the way from a place along some names, and says where the way ends if it
ends in a directory. -/
partial def visit (fs : FileSystem) (dir : Place) : List String → IO (FileSystem × Option Place)
  | [] => return (fs, some dir)
  | n :: rest => do
    if n = "." then visit fs dir rest
    else if n = ".." then visit fs dir.dropLast rest
    else
      let here := dir ++ [n]
      match ← look here with
      | .missing => return (fs, none)
      | .directory => visit (add fs here .directory) here rest
      | .file content => return (add fs here (.file content), none)
      | .link none => return (add fs here (.link (nowhere here)), none)
      | .link (some target) =>
        visit (add fs here (.link (.ofString target.text))) [] (target ++ rest)

/-- Adds everything under a directory, through links to places that have not been seen yet. -/
partial def visitTree (fs : FileSystem) (dir : Place) : IO FileSystem := do
  let mut fs := fs
  for n in ← names dir do
    let (fs', reached) ← visit fs dir [n]
    let before := fs
    fs := fs'
    match reached with
    | none => pure ()
    | some p =>
      if p = dir ++ [n] ∨ (before.get? p.location).isNone then fs ← visitTree fs p
  return fs

/-- A relative path is followed from the working directory; without one it leads to nothing. -/
def visitPath (fs : FileSystem) (here : Option Place) (p : Path) :
    IO (FileSystem × Option Place) :=
  match if p.isAbsolute then some [] else here with
  | none => return (fs, none)
  | some dir => visit fs dir (Place.ofText p.display)

/-- Nothing but the way to the working directory. -/
def start (here : Option Place) : IO FileSystem := do
  match here with
  | none => return .stranded
  | some dir =>
    let (fs, _) ← visit .empty [] dir
    if h : fs.get? dir.location = some .directory then return fs.enter dir.location h
    else return fs

/-- Everything that a run with these arguments may look at. -/
def gather (fs : FileSystem) (here : Option Place) (env : Environment) (a : Arguments) :
    IO FileSystem := do
  match Command.root fs a with
  | .error _ => return fs
  | .ok root =>
    let mut fs := fs
    for s in Config.sources env root a.config do
      fs := (← visitPath fs here s.path).1
    match (Config.load fs env root a.config).config with
    | .error _ => return fs
    | .ok c =>
      let settings := (c.merge a.overrides).settings root
      for p in [settings.schemas.entities, settings.schemas.components] do
        let (fs', reached) ← visitPath fs here p
        fs := fs'
        match reached with
        | none => pure ()
        | some place => fs ← visitTree fs place
      for d in Command.destinations settings do
        fs := (← visitPath fs here (d.filePath settings.fileName)).1
      return fs

/-- Puts what is new or has changed on the disk. -/
def store (before after : FileSystem) : IO Unit := do
  for (loc, o) in after.objects do
    if before.get? loc != some o then
      let text := Path.display ⟨loc.flatMap fun n => Path.slash :: n⟩
      match o with
      | .directory => IO.FS.createDir text
      | .file content => IO.FS.writeBinFile text content
      | .link _ => pure ()

end Disk
end ContentTypes

open ContentTypes in
def main (words : List String) : IO UInt32 := do
  let env : Environment :=
    { configHome := ← IO.getEnv "XDG_CONFIG_HOME"
      home := ((← IO.getEnv "HOME").filter (· ≠ "")).map .ofString
      filter := ← IO.getEnv "RUST_LOG" }
  let here ← Disk.here?
  let start ← Disk.start here
  let before ←
    match Arguments.parse words with
    | .ok a => Disk.gather start here env a
    | .error _ => pure start
  let outcome := Command.execute before env words
  Disk.store before outcome.fileSystem
  for e in outcome.events do
    IO.eprintln e.text
  match outcome.error with
  | some e => IO.eprintln ("error: " ++ e)
  | none => pure ()
  IO.print outcome.output
  return outcome.exitCode.toUInt32
