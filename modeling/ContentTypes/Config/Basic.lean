import ContentTypes.Generation
/-!
Configuration in layers. A layer sets some of eight values; of several layers the last that sets
a value decides, and what no layer sets has a default. Settings are what comes out, with every
path seen from the root of the project.
-/

namespace ContentTypes

/-- One layer. -/
structure Config where
  entities : Option Path := none
  components : Option Path := none
  backendOut : Option Path := none
  frontendOut : Option Path := none
  fileName : Option String := none
  layout : Option Layout := none
  frontend : Option Bool := none
  onCollision : Option CollisionPolicy := none
  deriving DecidableEq, Repr

structure Settings where
  schemas : SchemaDirectories
  backendOut : Path
  frontendOut : Path
  fileName : String
  /-- Whether the frontend gets the text as well. -/
  frontend : Bool
  layout : Layout
  onCollision : CollisionPolicy
  deriving DecidableEq, Repr

namespace Config

/-- The layer that sets nothing. -/
def empty : Config := {}

/-- Two layers in one, of which the second decides. -/
def merge (c d : Config) : Config where
  entities := d.entities <|> c.entities
  components := d.components <|> c.components
  backendOut := d.backendOut <|> c.backendOut
  frontendOut := d.frontendOut <|> c.frontendOut
  fileName := d.fileName <|> c.fileName
  layout := d.layout <|> c.layout
  frontend := d.frontend <|> c.frontend
  onCollision := d.onCollision <|> c.onCollision

/-- Any number of layers in one; the last decides. -/
def mergeAll (cs : List Config) : Config :=
  cs.foldl merge empty

theorem empty_merge (c : Config) : empty.merge c = c := by
  simp [empty, merge]

theorem merge_empty (c : Config) : c.merge empty = c := by
  simp [empty, merge]

/-- What a set path means seen from the root, and what holds if none is set. -/
def place (root : Path) (set : Option Path) (default : Path) : Path :=
  match set with
  | some p => root.join p
  | none => default

def defaultFileName : String := "types.ts"

def defaultBackendOut (root : Path) : Path :=
  (root.child "src").child "types"

def defaultFrontendOut (root : Path) : Path :=
  (((root.child "..").child "frontend").child "src").child "types"

def settings (c : Config) (root : Path) : Settings :=
  let schemas := SchemaDirectories.ofProject root
  { schemas := ⟨place root c.entities schemas.entities, place root c.components schemas.components⟩
    backendOut := place root c.backendOut (defaultBackendOut root)
    frontendOut := place root c.frontendOut (defaultFrontendOut root)
    fileName := c.fileName.getD defaultFileName
    frontend := c.frontend.getD false
    layout := c.layout.getD .pretty
    onCollision := c.onCollision.getD .firstWins }

end Config
end ContentTypes
