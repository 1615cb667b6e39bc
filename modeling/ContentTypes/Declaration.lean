import ContentTypes.Attribute
/-!
Declarations: a name with typed fields, one for each entity or component. Every declaration
starts with the field `id`, of type `number` unless its schema gives another.
-/

namespace ContentTypes

/-- The kind of schema that a declaration comes from. -/
inductive Origin where
  | entity
  | component
  deriving DecidableEq, Repr

def Origin.text : Origin → String
  | .entity => "entity"
  | .component => "component"

structure Declaration where
  name : String
  origin : Origin
  /-- Field names with their type expressions. -/
  fields : List (String × String)
  deriving DecidableEq, Repr

namespace Declaration

/-- The declaration with the field `id` alone. -/
def new (name : String) (origin : Origin) : Declaration :=
  ⟨name, origin, [("id", "number")]⟩

/-- A field that is there already keeps its place and takes the new type. -/
def insert (key type : String) (d : Declaration) : Declaration :=
  { d with fields := Table.put key type d.fields }

/-- The first attribute without a type, and why it has none. -/
structure CollectError where
  key : String
  cause : Attribute.TypeError
  deriving DecidableEq, Repr

def CollectError.message (e : CollectError) : String :=
  "attribute `" ++ e.key ++ "`: " ++ e.cause.message

/-- Inserts the attributes of a schema in their order, up to the first without a type. -/
def collectInto (d : Declaration) : List (String × Json) → Except CollectError Declaration
  | [] => .ok d
  | (key, entry) :: rest =>
    match (Attribute.ofJson entry).typeExpression with
    | .ok type => collectInto (d.insert key type) rest
    | .error e => .error ⟨key, e⟩

def collect (name : String) (origin : Origin) (attributes : List (String × Json)) :
    Except CollectError Declaration :=
  collectInto (new name origin) attributes

/-- The name that an entity is declared under. -/
def entityName (singularName : String) : Except Casing.NamingError String :=
  (Casing.caseName singularName).map (Attribute.entityStem ++ ·)

/-- The name that the component in a file is declared under. -/
def componentName (group stem : String) : Except Casing.NamingError String :=
  Casing.caseName ("components." ++ group ++ "." ++ Casing.pluralize stem)

end Declaration
end ContentTypes
