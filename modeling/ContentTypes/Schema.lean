import ContentTypes.FileSystem.Access
import ContentTypes.Json.Reader
/-!
Schema files. An entity schema has an `info` record with the singular name, and both kinds have
attributes, which may be missing or null. Other fields are passed over without a look at them. A
record may also be written as an array of its fields in order.
-/

namespace ContentTypes

open Json

/-- The entries of a schema by name, in the order of the file. -/
abbrev Attributes := List (String × Json)

structure EntitySchema where
  singularName : String
  attributes : Attributes

structure ComponentSchema where
  attributes : Attributes

namespace Schema

/-- Refuses the value that starts with `c`, naming what stands there instead of `expected`. -/
def refuse {α : Type} (expected : String) (c : Char) (s : List Char) : Except Fault α :=
  if c = '[' then .error (.mismatch (.wrongType .sequence expected))
  else if c = '\x7b' then .error (.mismatch (.wrongType .map expected))
  else do
    let (v, _) ← readScalar c s
    .error (.mismatch (.wrongType (.ofValue v) expected))

def readString : Reader String := fun s =>
  match head? s with
  | none => .error .truncated
  | some (c, r) =>
    if c = '"' then (readText r.1).map fun (t, r') => (t, r.trans r')
    else refuse "a string" c r.1

/-- A field that may come once; its value so far is `old`. -/
def readOnce {α : Type} (name : String) (old : Option α) (value : Reader α) : Reader α := fun s =>
  if old.isSome then .error (.mismatch (.repeatedField name)) else afterColon value s

def require {α : Type} (name : String) : Option α → Except Fault α
  | some v => .ok v
  | none => .error (.mismatch (.missingField name))

def infoField : FieldReader (Option String) := fun name old s =>
  if name = "singularName" then
    (readOnce name old readString s).map fun (v, r) => (some v, r)
  else (afterColon passValue s).map fun (_, r) => (old, r)

/-- The singular name in an `info` record. -/
def readInfo : Reader String := fun s =>
  match head? s with
  | none => .error .truncated
  | some (c, r) =>
    if c = '[' then
      match head? r.1 with
      | some (']', _) =>
        .error (.mismatch (.tooShort 0 "struct EntityInfo with 1 element"))
      | _ => do
        let (name, r') ← readString r.1
        let (_, r'') ← readChar ']' r'.1
        .ok (name, (r.trans r').trans r'')
    else if c = '\x7b' then do
      let (name, r') ← readFields infoField none r.1
      let name ← require "singularName" name
      .ok (name, r.trans r')
    else refuse "struct EntityInfo" c r.1

/-- Attributes stand two brackets deep. -/
def readAttributes : Reader Attributes := fun s =>
  match head? s with
  | none => .error .truncated
  | some (c, r) =>
    if c = 'n' then
      (readWord ['u', 'l', 'l'] r.1).map fun r' => ([], r.transUpTo r')
    else if c = '\x7b' then
      (readFields (keepField (readValue (bracketLimit - 2))) [] r.1).map fun (fs, r') =>
        (fs, r.trans r')
    else refuse "a map" c r.1

/-- What is known of an entity schema while its fields are read. -/
structure EntityFields where
  info : Option String
  attributes : Option Attributes

def entityField : FieldReader EntityFields := fun name fs s =>
  if name = "info" then
    (readOnce name fs.info readInfo s).map fun (v, r) => (⟨some v, fs.attributes⟩, r)
  else if name = "attributes" then
    (readOnce name fs.attributes readAttributes s).map fun (v, r) => (⟨fs.info, some v⟩, r)
  else (afterColon passValue s).map fun (_, r) => (fs, r)

/-- The attributes that may follow an item of an array, and the closing bracket. -/
def readLastAttributes : Reader Attributes := fun s =>
  match head? s with
  | none => .error .truncated
  | some (c, r) =>
    if c = ']' then .ok ([], r)
    else if c = ',' then do
      let (fs, r') ← readAttributes r.1
      let (_, r'') ← readChar ']' r'.1
      .ok (fs, (r.trans r').trans r'')
    else .error .malformed

def readEntity : Reader EntitySchema := fun s =>
  match head? s with
  | none => .error .truncated
  | some (c, r) =>
    if c = '[' then
      match head? r.1 with
      | some (']', _) =>
        .error (.mismatch (.tooShort 0 "struct EntitySchema with 2 elements"))
      | _ => do
        let (name, r') ← readInfo r.1
        let (fs, r'') ← readLastAttributes r'.1
        .ok (⟨name, fs⟩, (r.trans r').trans r'')
    else if c = '\x7b' then do
      let (fs, r') ← readFields entityField ⟨none, none⟩ r.1
      let name ← require "info" fs.info
      .ok (⟨name, fs.attributes.getD []⟩, r.trans r')
    else refuse "struct EntitySchema" c r.1

def componentField : FieldReader (Option Attributes) := fun name old s =>
  if name = "attributes" then
    (readOnce name old readAttributes s).map fun (v, r) => (some v, r)
  else (afterColon passValue s).map fun (_, r) => (old, r)

def readComponent : Reader ComponentSchema := fun s =>
  match head? s with
  | none => .error .truncated
  | some (c, r) =>
    if c = '[' then
      match head? r.1 with
      | some (']', r') => .ok (⟨[]⟩, r.trans r')
      | _ => do
        let (fs, r') ← readAttributes r.1
        let (_, r'') ← readChar ']' r'.1
        .ok (⟨fs⟩, (r.trans r').trans r'')
    else if c = '\x7b' then do
      let (fs, r') ← readFields componentField none r.1
      .ok (⟨fs.getD []⟩, r.trans r')
    else refuse "struct ComponentSchema" c r.1

/-- Why a schema file gives no schema. -/
inductive LoadError where
  | unreadable (path : Path) (cause : ReadError)
  | invalid (path : Path) (fault : Fault)
  deriving DecidableEq, Repr

def LoadError.message : LoadError → String
  | .unreadable p e => "failed to read " ++ p.display ++ ": " ++ e.message
  | .invalid p f => "invalid schema in " ++ p.display ++ ": " ++ f.message

/-- The schema in a file, as `schema` reads it. -/
def load {α : Type} (schema : Reader α) (fs : FileSystem) (path : Path) : Except LoadError α :=
  match fs.readText path with
  | .error e => .error (.unreadable path e)
  | .ok text => (readDocument schema text).mapError (.invalid path)

end Schema

def EntitySchema.ofText (text : String) : Except Fault EntitySchema :=
  readDocument Schema.readEntity text

def ComponentSchema.ofText (text : String) : Except Fault ComponentSchema :=
  readDocument Schema.readComponent text

def EntitySchema.load : FileSystem → Path → Except Schema.LoadError EntitySchema :=
  Schema.load Schema.readEntity

def ComponentSchema.load : FileSystem → Path → Except Schema.LoadError ComponentSchema :=
  Schema.load Schema.readComponent

end ContentTypes
