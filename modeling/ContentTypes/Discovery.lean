import ContentTypes.Diagnostic
/-!
The schema files of a project. Every directory under the entity directory is an entity, and
every file `<group>/<stem>.json` under the component directory a component, hidden entities and
groups aside. A place that cannot be listed costs only itself.
-/

namespace ContentTypes

structure EntityUnit where
  name : String
  schemaPath : Path
  deriving DecidableEq, Repr

/-- The entity with its schema at `<dir>/<name>/content-types/<name>/schema.json`. -/
def EntityUnit.new (dir : Path) (name : String) : EntityUnit :=
  ⟨name, (((dir.child name).child "content-types").child name).child "schema.json"⟩

structure ComponentUnit where
  group : String
  /-- The name of the file without its extension. -/
  stem : String
  path : Path
  deriving DecidableEq, Repr

def ComponentUnit.label (u : ComponentUnit) : String :=
  u.group ++ "/" ++ u.stem

/-- Units in the order of their names, and the places that could not be listed. -/
structure Discovered (α : Type) where
  units : List α
  diagnostics : List Diagnostic
  deriving DecidableEq, Repr

namespace Discovery

/-- The diagnostic for an error within a listing. -/
def diagnostic? (origin : Origin) : Except ListError Entry → Option Diagnostic
  | .error e => some ⟨origin, e.path.display, .listing e⟩
  | .ok _ => none

/-- The units that `unit?` finds in the listing of a directory. -/
def discover {α : Type} (origin : Origin) (maxDepth : Nat) (unit? : Entry → Option α)
    (fs : FileSystem) (dir : Path) : Except DiscoverError (Discovered α) :=
  match Listing.list fs dir maxDepth with
  | .error e => .error ⟨dir, e⟩
  | .ok items => .ok
    { units := items.filterMap fun item => item.toOption.bind unit?
      diagnostics := items.filterMap (diagnostic? origin) }

def entityUnit? (dir : Path) (e : Entry) : Option EntityUnit :=
  if e.isDirectory then some (.new dir (displayBytes e.name)) else none

/-- `hero.json` has the stem `hero`; a name with a second point has none. -/
def jsonStem? (fileName : String) : Option String :=
  if fileName.toList.dropWhile (· ≠ '.') = ".json".toList then
    some (String.ofList (fileName.toList.takeWhile (· ≠ '.')))
  else none

def componentUnit? (e : Entry) : Option ComponentUnit :=
  if e.depth = 2 ∧ !e.isDirectory then
    (jsonStem? (displayBytes e.name)).map fun stem => ⟨displayBytes e.parent, stem, e.path⟩
  else none

end Discovery

def discoverEntities (fs : FileSystem) (dir : Path) :
    Except DiscoverError (Discovered EntityUnit) :=
  Discovery.discover .entity 1 (Discovery.entityUnit? dir) fs dir

def discoverComponents (fs : FileSystem) (dir : Path) :
    Except DiscoverError (Discovered ComponentUnit) :=
  Discovery.discover .component 2 Discovery.componentUnit? fs dir

end ContentTypes
