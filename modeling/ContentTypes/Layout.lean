import ContentTypes.Declaration
/-!
The text of declarations: one `export interface` block each, in one of two layouts, and after
them the supporting types that every text ends with. Names, field names and types are written as
they are, except that single quotes are left out of types.
-/

namespace ContentTypes

inductive Layout where
  /-- All fields on the line of the name. -/
  | compact
  /-- A line for each field, indented by two spaces. -/
  | pretty
  deriving DecidableEq, Repr

namespace Layout

/-- What stands in front of a field. -/
def beforeField : Layout → List Char
  | .compact => []
  | .pretty => ['\n', ' ', ' ']

/-- What stands in front of the closing bracket. -/
def beforeClose : Layout → List Char
  | .compact => []
  | .pretty => ['\n']

def typeText (type : String) : List Char :=
  type.toList.filter (· ≠ '\x27')

def fieldText (l : Layout) (field : String × String) : List Char :=
  l.beforeField ++ field.1.toList ++ [':', ' '] ++ typeText field.2 ++ [';']

/-- One declaration and the blank line after it. -/
def block (l : Layout) (d : Declaration) : List Char :=
  "export interface ".toList ++ d.name.toList ++ [' ', '\x7b']
    ++ d.fields.flatMap l.fieldText ++ l.beforeClose ++ ['\x7d', '\n', '\n']

def blocks (l : Layout) (ds : List Declaration) : List Char :=
  ds.flatMap l.block

theorem blocks_append (l : Layout) (ds es : List Declaration) :
    l.blocks (ds ++ es) = l.blocks ds ++ l.blocks es :=
  List.flatMap_append

end Layout

/-- A type that every text ends with. -/
structure SupportingType where
  name : String
  parameters : String
  lines : List String
  deriving DecidableEq, Repr

namespace SupportingType

def text (t : SupportingType) : List Char :=
  "export interface ".toList ++ t.name.toList ++ t.parameters.toList ++ [' ', '\x7b', '\n']
    ++ t.lines.flatMap (fun line => line.toList ++ ['\n']) ++ ['\x7d', '\n']

/-- Media files, and the envelopes that responses come in. -/
def all : List SupportingType :=
  [⟨"Media", "",
      ["  hash: string;", "  ext: string;", "  mime: string;", "  size: number;",
        "  url: string;"]⟩,
    ⟨"APIResponseCollectionMetadata", "",
      ["  pagination: \x7b", "    page: number;", "    pageSize: number;",
        "    pageCount: number;", "    total: number;", "  \x7d;"]⟩,
    ⟨"APIResponse", "<T>", ["  data: T;"]⟩,
    ⟨"APIResponseCollection", "<T>", ["  data: T[];", "  meta: APIResponseCollectionMetadata;"]⟩]

def names : List String :=
  all.map SupportingType.name

def allText : List Char :=
  ['\n'].intercalate (all.map text)

end SupportingType

namespace Layout

/-- The block of one declaration as a text. -/
def declarationText (l : Layout) (d : Declaration) : String :=
  String.ofList (l.block d)

/-- All declarations in their order, and the supporting types. -/
def text (l : Layout) (ds : List Declaration) : String :=
  String.ofList (l.blocks ds ++ SupportingType.allText)

end Layout
end ContentTypes
