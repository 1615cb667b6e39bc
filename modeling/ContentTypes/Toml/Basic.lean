import ContentTypes.Table
/-!
TOML documents. A document is a list of statements, and its value the table that the statements
build one after another. What may still be added to a table depends on how it came about.
-/

namespace ContentTypes.Toml

/-- How a table came about. -/
inductive Opening where
  /-- By its own header, or as the document. -/
  | header
  /-- As a parent in the header of another table. -/
  | implied
  /-- As a part of a dotted key. -/
  | dotted
  /-- Between curly brackets, where it is complete. -/
  | inlined
  deriving DecidableEq, Repr

inductive Value where
  | string (text : String)
  | boolean (b : Bool)
  | integer (n : Int)
  /-- A number that is not whole, as written. -/
  | float (written : String)
  /-- A date, a time of day or both, as written. -/
  | dateTime (written : String)
  | array (items : List Value)
  | table (opening : Opening) (fields : List (String × Value))
  /-- Tables under headers in double brackets. -/
  | tables (elements : List (List (String × Value)))
  deriving Repr, Inhabited

abbrev Fields := List (String × Value)

/-- A key in its table, with the keys that lead to the table. -/
structure Key where
  path : List String
  last : String
  deriving DecidableEq, Repr

inductive Statement where
  | assign (key : Key) (value : Value)
  /-- Opens a table: the assignments that follow are in there. -/
  | table (key : Key)
  /-- Opens a new last table of an array of tables. -/
  | element (key : Key)
  deriving Repr

namespace Fields

/-- Changes the last table of an array of tables. -/
def changeLast (f : Fields → Option Fields) (elements : List Fields) : Option (List Fields) :=
  match elements.getLast? with
  | none => none
  | some e => (f e).map fun e' => elements.dropLast ++ [e']

/-- Sets a key that has no value yet. A dotted key goes through tables that dotted keys have
opened, and opens those that are missing; it may pass implied tables and arrays of tables, but
not end in one. -/
def assign (key : String) (v : Value) : List String → Fields → Option Fields
  | [], fs => if (Table.get? key fs).isSome then none else some (fs ++ [(key, v)])
  | p :: ps, fs =>
    Table.change? p (fun
      | none => (assign key v ps []).map (.table .dotted)
      | some (.table .dotted es) => (assign key v ps es).map (.table .dotted)
      | some (.table .implied es) =>
        if ps = [] then none else (assign key v ps es).map (.table .implied)
      | some (.tables es) =>
        if ps = [] then none else (changeLast (assign key v ps) es).map .tables
      | some _ => none) fs

/-- Changes the table to which the parts of a header lead; missing ones are implied, and of an
array of tables the last is meant. -/
def within (f : Fields → Option Fields) : List String → Fields → Option Fields
  | [], fs => f fs
  | p :: ps, fs =>
    Table.change? p (fun
      | none => (within f ps []).map (.table .implied)
      | some (.table .inlined _) => none
      | some (.table o es) => (within f ps es).map (.table o)
      | some (.tables es) => (changeLast (within f ps) es).map .tables
      | some _ => none) fs

/-- Opens a table by its header, which it may have only once. -/
def openTable (key : String) (fs : Fields) : Option Fields :=
  Table.change? key (fun
    | none => some (.table .header [])
    | some (.table .implied es) => some (.table .header es)
    | some _ => none) fs

/-- Opens a new last table. -/
def openElement (key : String) (fs : Fields) : Option Fields :=
  Table.change? key (fun
    | none => some (.tables [[]])
    | some (.tables es) => some (.tables (es ++ [[]]))
    | some _ => none) fs

end Fields

/-- A document in the making, and the path of the table that is open. -/
structure Draft where
  fields : Fields
  path : List String
  deriving Repr

def Draft.step (d : Draft) : Statement → Option Draft
  | .assign key v =>
    (Fields.within (Fields.assign key.last v key.path) d.path d.fields).map (⟨·, d.path⟩)
  | .table key =>
    (Fields.within (Fields.openTable key.last) key.path d.fields).map
      (⟨·, key.path ++ [key.last]⟩)
  | .element key =>
    (Fields.within (Fields.openElement key.last) key.path d.fields).map
      (⟨·, key.path ++ [key.last]⟩)

/-- The table that a list of statements builds. -/
def ofStatements? (ss : List Statement) : Option Value := do
  let d ← ss.foldlM Draft.step ⟨[], []⟩
  some (.table .header d.fields)

/-- The complete table that the assignments between curly brackets build. -/
def inlineTable? (assignments : List (Key × Value)) : Option Value := do
  let fs ← assignments.foldlM (fun fs a => Fields.assign a.1.last a.2 a.1.path fs) []
  some (.table .inlined fs)

end ContentTypes.Toml
