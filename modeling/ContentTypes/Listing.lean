import ContentTypes.FileSystem.Access
/-!
Listings of a directory to a small depth. Entries come depth first, those of one directory in
the order of their names, and links are followed. A link that cannot be followed, or that leads
back to a directory on the way to it, is listed as an error in its place. A directory found in the
listed one is opened by its own path, and an error stands below it in place of its entries if this
fails, as it does for a path that is too long.
-/

namespace ContentTypes

inductive ListError where
  | os (path : Path) (cause : OsError)
  | cycle (path ancestor : Path)
  deriving DecidableEq, Repr

namespace ListError

/-- The path that the error is about. -/
def path : ListError → Path
  | .os p _ => p
  | .cycle p _ => p

def message : ListError → String
  | .os p e => "IO error for operation on " ++ p.display ++ ": " ++ e.message
  | .cycle p a =>
    "File system loop found: " ++ p.display ++ " points to an ancestor " ++ a.display

/-- Whether the error says that a path leads to nothing. -/
def isNotFound : ListError → Bool
  | .os _ .notFound => true
  | _ => false

end ListError

/-- A directory or file that was listed. -/
structure Entry where
  path : Path
  name : Name
  /-- The name of the directory that lists it. -/
  parent : Name
  /-- One for what stands in the listed directory itself. -/
  depth : Nat
  isDirectory : Bool
  deriving DecidableEq, Repr

namespace Listing

/-- A directory on the way from the listed one to an entry. -/
structure Ancestor where
  path : Path
  location : Location
  deriving DecidableEq, Repr

/-- Whether a name in a directory stands for a directory. `ancestors` starts with the innermost. -/
def follow (fs : FileSystem) (ancestors : List Ancestor) (path : Path) (loc : Location) :
    Except ListError Bool :=
  match fs.get? loc with
  | some .directory => .ok true
  | some (.file _) => .ok false
  | none => .error (.os path .notFound)
  | some (.link _) =>
    match fs.find true path with
    | .error e => .error (.os path e)
    | .ok (loc', .directory) =>
      match ancestors.find? (·.location = loc') with
      | some a => .error (.cycle path a.path)
      | none => .ok true
    | .ok (_, _) => .ok false

/-- A name that starts with a point. -/
def isHidden (n : Name) : Bool :=
  n.head? = some Path.dot

/-- Hidden entries count only below the listed directory itself. -/
def isKept (e : Entry) : Bool :=
  e.depth ≠ 1 || !isHidden e.name

/-- The entries of the innermost ancestor, and of the directories in it down to `levels` more. -/
def entries (fs : FileSystem) (levels depth : Nat) (parent : Name) (here : Ancestor)
    (outer : List Ancestor) : List (Except ListError Entry) :=
  (fs.children here.location).flatMap fun name =>
    let path := here.path.join ⟨name⟩
    match follow fs (here :: outer) path (here.location ++ [name]) with
    | .error e => [.error e]
    | .ok isDirectory =>
      let e : Entry := ⟨path, name, parent, depth, isDirectory⟩
      if isKept e then
        .ok e ::
          match levels with
          | 0 => []
          | levels + 1 =>
            if isDirectory then
              match fs.directoryAt path with
              | .error e => [.error (.os path e)]
              | .ok loc => entries fs levels (depth + 1) name ⟨path, loc⟩ (here :: outer)
            else []
      else []

/-- The listing of a directory; what leads to a file has an empty one. -/
def list (fs : FileSystem) (dir : Path) (maxDepth : Nat) :
    Except ListError (List (Except ListError Entry)) :=
  match fs.find true dir with
  | .error e => .error (.os dir e)
  | .ok (loc, .directory) =>
    match maxDepth with
    | 0 => .ok []
    | levels + 1 => .ok (entries fs levels 1 [] ⟨dir, loc⟩ [])
  | .ok (_, _) => .ok []

end Listing
end ContentTypes
