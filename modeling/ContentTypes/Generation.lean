import ContentTypes.Collision
import ContentTypes.Discovery
import ContentTypes.Layout
/-!
From schema directories to the text of their declarations: units are discovered, each is loaded
and collected, collisions are resolved, and what is kept is laid out. A unit that fails becomes a
diagnostic; only a refused collision stops the generation.
-/

namespace ContentTypes

/-- The declarations that a list of units gives, and a diagnostic for each that gives none. -/
structure Walk where
  declarations : List Declaration
  diagnostics : List Diagnostic
  deriving DecidableEq, Repr

namespace Walk

def ofResults (results : List (Except Diagnostic Declaration)) : Walk where
  declarations := results.filterMap Except.toOption
  diagnostics := results.filterMap fun
    | .ok _ => none
    | .error d => some d

/-- The declaration of one unit: its schema, then its name, then its attributes must be sound. -/
def collect (origin : Origin) (unit : String) {α : Type} (schema : Except Schema.LoadError α)
    (name : α → Except Casing.NamingError String) (attributes : α → Attributes) :
    Except Diagnostic Declaration :=
  match schema with
  | .error e => .error ⟨origin, unit, .load e⟩
  | .ok s =>
    match name s with
    | .error e => .error ⟨origin, unit, .naming e⟩
    | .ok n =>
      match Declaration.collect n origin (attributes s) with
      | .error e => .error ⟨origin, unit, .collect e⟩
      | .ok d => .ok d

def collectEntity (fs : FileSystem) (u : EntityUnit) : Except Diagnostic Declaration :=
  collect .entity u.name (EntitySchema.load fs u.schemaPath)
    (fun s => Declaration.entityName s.singularName) EntitySchema.attributes

def collectComponent (fs : FileSystem) (u : ComponentUnit) : Except Diagnostic Declaration :=
  collect .component u.label (ComponentSchema.load fs u.path)
    (fun _ => Declaration.componentName u.group u.stem) ComponentSchema.attributes

def entities (fs : FileSystem) (us : List EntityUnit) : Walk :=
  ofResults (us.map (collectEntity fs))

def components (fs : FileSystem) (us : List ComponentUnit) : Walk :=
  ofResults (us.map (collectComponent fs))

end Walk

/-- Where the schemas of a project are. -/
structure SchemaDirectories where
  entities : Path
  components : Path
  deriving DecidableEq, Repr

/-- The usual places in a project. -/
def SchemaDirectories.ofProject (root : Path) : SchemaDirectories :=
  let src := root.child "src"
  ⟨src.child "api", src.child "components"⟩

structure Generated where
  /-- Entities first, then components. -/
  declarations : List Declaration
  diagnostics : List Diagnostic
  text : String
  deriving DecidableEq, Repr

namespace Generated

def count (g : Generated) (origin : Origin) : Nat :=
  (g.declarations.filter (·.origin = origin)).length

def skipped (g : Generated) : Nat :=
  g.diagnostics.length

end Generated

/-- What a discovery counts for: a directory that is missing has no units, and one that cannot be
listed otherwise is itself left out. -/
def Discovered.ofResult {α : Type} (origin : Origin) :
    Except DiscoverError (Discovered α) → Discovered α
  | .ok found => found
  | .error e =>
    if e.cause.isNotFound then ⟨[], []⟩
    else ⟨[], [⟨origin, e.directory.display, .unlisted e⟩]⟩

def generate (fs : FileSystem) (dirs : SchemaDirectories) (policy : CollisionPolicy)
    (layout : Layout) : Except CollisionError Generated :=
  let entities := Discovered.ofResult .entity (discoverEntities fs dirs.entities)
  let components := Discovered.ofResult .component (discoverComponents fs dirs.components)
  let entityWalk := Walk.entities fs entities.units
  let componentWalk := Walk.components fs components.units
  match Collision.resolve policy (entityWalk.declarations ++ componentWalk.declarations) with
  | .error e => .error e
  | .ok r => .ok
    { declarations := r.kept
      diagnostics := entities.diagnostics ++ components.diagnostics ++ entityWalk.diagnostics
        ++ componentWalk.diagnostics ++ r.diagnostics
      text := layout.text r.kept }

end ContentTypes
