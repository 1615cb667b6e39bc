import ContentTypes.FileSystem.Basic
/-!
Where a path leads. The parts of a path are taken one after another from a directory; a link on
the way is replaced by its target. The last part is kept apart, because what becomes of it
depends on what the path is wanted for.
-/

namespace ContentTypes.FileSystem

/-- How many links may be followed for one path. -/
def linkLimit : Nat := 40

def pathLimit : Nat := 4095

/-- What has the name `n` in the directory `dir`. -/
def lookup (fs : FileSystem) (dir : Location) (n : Name) : Except OsError (Option Object) :=
  if nameLimit < n.length then .error .nameTooLong else .ok (fs.get? (dir ++ [n]))

/-- Where the parts of a path before the last one lead. -/
structure Stop where
  directory : Location
  /-- The last part, unless it is `.` or `..`, which are resolved, or missing. -/
  entry : Option Name
  /-- How many more links may be followed. -/
  links : Nat
  deriving DecidableEq, Repr

/-- The directory in which the parts of `p` start, for a path that stands in `dir`. -/
def start (dir : Location) (p : Path) : Location :=
  if p.isAbsolute then [] else dir

def descend (fs : FileSystem) (links : Nat) (dir : Location) : List Name → Except OsError Stop
  | [] => .ok ⟨dir, none, links⟩
  | n :: rest =>
    if n = [Path.dot] then descend fs links dir rest
    else if n = dots then descend fs links dir.dropLast rest
    else if rest = [] then .ok ⟨dir, some n, links⟩
    else
      match fs.lookup dir n with
      | .error e => .error e
      | .ok none => .error .notFound
      | .ok (some (.file _)) => .error .notDirectory
      | .ok (some .directory) => descend fs links (dir ++ [n]) rest
      | .ok (some (.link t)) =>
        match links with
        | 0 => .error .tooManyLinks
        | links + 1 => descend fs links (start dir t) (t.parts ++ rest)
termination_by parts => (links, parts.length)

theorem links_le_of_descend {fs : FileSystem} {links : Nat} {dir : Location} {parts : List Name}
    {s : Stop} (h : fs.descend links dir parts = .ok s) : s.links ≤ links := by
  fun_induction descend fs links dir parts with
  | case1 => cases h; exact Nat.le_refl _
  | case2 _ _ _ ih => exact ih h
  | case3 _ _ _ _ ih => exact ih h
  | case4 => cases h; exact Nat.le_refl _
  | case5 => cases h
  | case6 => cases h
  | case7 => cases h
  | case8 _ _ _ _ _ _ _ _ ih => exact ih h
  | case9 => cases h
  | case10 _ _ _ _ _ _ _ _ _ ih => exact Nat.le_succ_of_le (ih h)

/-- The start of every resolution: the defects of a path as such come first. -/
def walk (fs : FileSystem) (p : Path) : Except OsError Stop :=
  if 0 ∈ p.bytes then .error .zeroByte
  else if p.bytes = [] then .error .notFound
  else if pathLimit < p.bytes.length then .error .nameTooLong
  else fs.descend linkLimit (start fs.workingDirectory p) p.parts

/-- The object at the end of a path. A link there is followed if asked for, and always if the
path says that it leads to a directory. -/
def settle (fs : FileSystem) (follow mustBeDirectory : Bool) (s : Stop) :
    Except OsError (Location × Object) :=
  match s.entry with
  | none => .ok (s.directory, .directory)
  | some n =>
    match fs.lookup s.directory n with
    | .error e => .error e
    | .ok none => .error .notFound
    | .ok (some .directory) => .ok (s.directory ++ [n], .directory)
    | .ok (some (.file content)) =>
      if mustBeDirectory then .error .notDirectory
      else .ok (s.directory ++ [n], .file content)
    | .ok (some (.link t)) =>
      if follow || mustBeDirectory then
        match _hs : s.links with
        | 0 => .error .tooManyLinks
        | links + 1 =>
          match _h : fs.descend links (start s.directory t) t.parts with
          | .error e => .error e
          | .ok s' => settle fs follow (mustBeDirectory || t.endsInSlash) s'
      else .ok (s.directory ++ [n], .link t)
termination_by s.links
decreasing_by have := links_le_of_descend _h; omega

/-- The object that a path leads to, and its location. -/
def find (fs : FileSystem) (follow : Bool) (p : Path) : Except OsError (Location × Object) := do
  fs.settle follow p.endsInSlash (← fs.walk p)

/-- The location at which a path writes a file, in being or not: links at its end are followed
even where they lead to nothing. -/
def landing (fs : FileSystem) (mustBeDirectory : Bool) (s : Stop) : Except OsError Location :=
  match s.entry with
  | none => .error .isDirectory
  | some n =>
    if mustBeDirectory then .error .isDirectory
    else
      match fs.lookup s.directory n with
      | .error e => .error e
      | .ok none => .ok (s.directory ++ [n])
      | .ok (some .directory) => .error .isDirectory
      | .ok (some (.file _)) => .ok (s.directory ++ [n])
      | .ok (some (.link t)) =>
        match _hs : s.links with
        | 0 => .error .tooManyLinks
        | links + 1 =>
          match _h : fs.descend links (start s.directory t) t.parts with
          | .error e => .error e
          | .ok s' => landing fs t.endsInSlash s'
termination_by s.links
decreasing_by have := links_le_of_descend _h; omega

end ContentTypes.FileSystem
