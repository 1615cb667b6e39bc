import ContentTypes.Config.Document
/-!
The files that configuration layers come from: the file of the project, or one that is named
instead and then has to be there, and below it the file of the user. Any of them that is there
has to be sound, whatever the others say.
-/

namespace ContentTypes

/-- What a run takes from the variables around it. -/
structure Environment where
  /-- The directory for configuration files, if it is set. -/
  configHome : Option String
  home : Option Path
  /-- Which events are asked for, if anything is said about it. -/
  filter : Option String := none
  deriving DecidableEq, Repr

namespace Config

inductive LoadError where
  | missing (path : Path)
  | unreadable (path : Path) (e : ReadError)
  | invalid (path : Path)
  deriving DecidableEq, Repr

def LoadError.message : LoadError → String
  | .missing path => "config file " ++ path.display ++ " not found"
  | .unreadable path e => "failed to read " ++ path.display ++ ": " ++ e.message
  | .invalid path => "invalid config " ++ path.display

/-- The layer in a file; none if the file is missing. -/
def ofFile (fs : FileSystem) (path : Path) : Except LoadError (Option Config) :=
  match fs.readText path with
  | .error (.os .notFound) => .ok none
  | .error e => .error (.unreadable path e)
  | .ok text =>
    match ofText? text with
    | none => .error (.invalid path)
    | some c => .ok (some c)

structure Source where
  path : Path
  /-- Whether the file may not be missing. -/
  required : Bool
  deriving DecidableEq, Repr

def projectFileName : String := "strapi-types.toml"

def projectSource (root : Path) (explicit : Option Path) : Source :=
  match explicit with
  | some path => ⟨path, true⟩
  | none => ⟨root.child projectFileName, false⟩

def userSource? (env : Environment) : Option Source := do
  let directory ←
    (env.configHome.map Path.ofString) <|>
      (env.home.map fun home => home.child ".config")
  some ⟨(directory.child "strapi-types").child "config.toml", false⟩

/-- The sources in the order in which they are read, the deciding one first. -/
def sources (env : Environment) (root : Path) (explicit : Option Path) : List Source :=
  projectSource root explicit :: (userSource? env).toList

/-- What reading the sources came to: the files whose layers were sound, and all layers, unless
one of them is not. -/
structure Loading where
  files : List Path
  layers : Except LoadError (List Config)

/-- Reads sources up to the first that fails. -/
def loadAll (fs : FileSystem) : List Source → Loading
  | [] => ⟨[], .ok []⟩
  | s :: rest =>
    match ofFile fs s.path with
    | .error e => ⟨[], .error e⟩
    | .ok none => if s.required then ⟨[], .error (.missing s.path)⟩ else loadAll fs rest
    | .ok (some c) =>
      let l := loadAll fs rest
      ⟨s.path :: l.files, l.layers.map (c :: ·)⟩

def Loading.config (l : Loading) : Except LoadError Config :=
  l.layers.map fun cs => mergeAll cs.reverse

def load (fs : FileSystem) (env : Environment) (root : Path) (explicit : Option Path) : Loading :=
  loadAll fs (sources env root explicit)

end Config
end ContentTypes
