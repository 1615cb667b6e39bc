import ContentTypes.Casing
import ContentTypes.Json.Printer
/-!
One attribute of a schema: what its JSON entry says about it, and the type expression that it is
declared with. Reading an entry never fails; a modifier of an unexpected shape counts as absent.
-/

namespace ContentTypes

/-- How many of each side a relation joins. -/
inductive Cardinality where
  | oneToOne
  | oneToMany
  | manyToOne
  | manyToMany
  | other (word : String)
  deriving DecidableEq, Repr

namespace Cardinality

def ofString (s : String) : Cardinality :=
  match s with
  | "oneToOne" => .oneToOne
  | "oneToMany" => .oneToMany
  | "manyToOne" => .manyToOne
  | "manyToMany" => .manyToMany
  | s => .other s

/-- Whether there may be many on the related side. -/
def isPlural : Cardinality → Bool
  | .oneToMany | .manyToMany => true
  | _ => false

end Cardinality

namespace Attribute

/-- The tag of an attribute with the modifiers that this tag uses. -/
inductive Kind where
  | uid
  | text
  | richText
  | email
  | time
  | date
  | dynamicZone
  | enumeration (values : List String)
  | json
  | decimal
  | float
  | integer
  | bigInteger
  | component (reference : Option String) (repeatable : Bool)
  | relation (target : Option String) (cardinality : Option Cardinality)
  | media (multiple : Bool)
  /-- Any other tag; none where the tag is absent. -/
  | other (tag : Option String)
  deriving DecidableEq, Repr

end Attribute

structure Attribute where
  /-- Set for an attribute that a plugin provides, which is a string whatever its tag. -/
  customField : Bool
  kind : Attribute.Kind
  deriving DecidableEq, Repr

namespace Attribute

/-! ### Reading an entry -/

def stringField (name : String) (entry : Json) : Option String :=
  (entry.field? name).bind Json.asString?

def flag (name : String) (entry : Json) : Bool :=
  (entry.field? name).any Json.isTruthy

/-- An item that is no string stands for its JSON text. -/
def enumerationValue : Json → String
  | .string s => s
  | v => v.text

def enumerationValues (entry : Json) : List String :=
  (((entry.field? "enum").bind Json.asArray?).getD []).map enumerationValue

/-- A tag that is no string stands for its JSON text, and null for no tag. -/
def otherTag : Option Json → Option String
  | none | some .null => none
  | some v => some (enumerationValue v)

def kindOf (entry : Json) : Kind :=
  match entry.field? "type" with
  | some (.string "uid") => .uid
  | some (.string "text") => .text
  | some (.string "richtext") => .richText
  | some (.string "email") => .email
  | some (.string "time") => .time
  | some (.string "date") => .date
  | some (.string "dynamiczone") => .dynamicZone
  | some (.string "enumeration") => .enumeration (enumerationValues entry)
  | some (.string "json") => .json
  | some (.string "decimal") => .decimal
  | some (.string "float") => .float
  | some (.string "integer") => .integer
  | some (.string "biginteger") => .bigInteger
  | some (.string "component") =>
    .component (stringField "component" entry) (flag "repeatable" entry)
  | some (.string "relation") =>
    .relation (stringField "target" entry)
      ((stringField "relation" entry).map Cardinality.ofString)
  | some (.string "media") => .media (flag "multiple" entry)
  | tag => .other (otherTag tag)

def ofJson (entry : Json) : Attribute where
  customField := flag "customField" entry
  kind := kindOf entry

/-! ### Type expressions -/

/-- Why an attribute has no type: its reference gives no name. -/
inductive TypeError where
  | missingComponent
  | missingTargetSegment (target : String)
  | naming (e : Casing.NamingError)
  deriving DecidableEq, Repr

def TypeError.message : TypeError → String
  | .missingComponent => "component field has no component reference"
  | .missingTargetSegment t => "relation target " ++ Text.quoted t ++ " has no second segment"
  | .naming e => e.message

/-- What the names of entity declarations start with. -/
def entityStem : String := "API"

/-- What the types of component attributes start with. -/
def componentStem : String := "Components"

def listMark (many : Bool) : String :=
  if many then "[]" else ""

/-- What stands between the first point and the second, or the end. -/
def secondSegment? (s : String) : Option String :=
  match s.toList.dropWhile (· ≠ '.') with
  | [] => none
  | _ :: r => some (String.ofList (r.takeWhile (· ≠ '.')))

def caseName (s : String) : Except TypeError String :=
  (Casing.caseName s).mapError .naming

def componentType (reference : Option String) (repeatable : Bool) : Except TypeError String :=
  match reference with
  | none => .error .missingComponent
  | some r => (caseName r).map fun name =>
    componentStem ++ Casing.pluralize name ++ listMark repeatable

def relationType (target : Option String) (cardinality : Option Cardinality) :
    Except TypeError String :=
  let t := target.getD ""
  match secondSegment? t with
  | none => .error (.missingTargetSegment t)
  | some segment => (caseName segment).map fun name =>
    entityStem ++ name ++ listMark (cardinality.any Cardinality.isPlural)

/-- The values between double quotes, as alternatives. -/
def enumerationType (values : List String) : String :=
  " | ".intercalate (values.map fun v => "\"" ++ v ++ "\"")

def kindType : Kind → Except TypeError String
  | .uid | .text | .richText | .email | .time => .ok "string"
  | .date => .ok "Date"
  | .dynamicZone => .ok "any"
  | .enumeration values => .ok (enumerationType values)
  | .json => .ok "JSON"
  | .decimal | .float | .integer | .bigInteger => .ok "number"
  | .component reference repeatable => componentType reference repeatable
  | .relation target cardinality => relationType target cardinality
  | .media multiple => .ok ("Media" ++ listMark multiple)
  | .other tag => .ok (tag.getD "undefined")

/-- The type that an attribute is declared with. Only a reference can fail to give one. -/
def typeExpression (a : Attribute) : Except TypeError String :=
  if a.customField then .ok "string" else kindType a.kind

end Attribute
end ContentTypes
