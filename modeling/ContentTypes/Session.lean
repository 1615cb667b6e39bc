import ContentTypes.Collision
/-!
A list of declarations under a sequence of changes: new ones, fields put into those that are
there, declarations collected from attributes, and collisions resolved. A change that fails
leaves the list as it is.
-/

namespace ContentTypes.Session

inductive Change where
  /-- A new declaration with fields inserted in order. -/
  | add (name : String) (origin : Origin) (fields : List (String × String))
  /-- A field for the declaration at an index, or for the last one. -/
  | insert (index : Option Nat) (key type : String)
  | collect (name : String) (origin : Origin) (attributes : Attributes)
  | resolve (policy : CollisionPolicy)

inductive Failure where
  | noSuchDeclaration
  | collect (e : Declaration.CollectError)
  | collision (e : CollisionError)
  deriving DecidableEq, Repr

/-- A declaration with its fields inserted one after another. -/
def build (name : String) (origin : Origin) (fields : List (String × String)) : Declaration :=
  fields.foldl (fun d f => d.insert f.1 f.2) (.new name origin)

/-- The list after a change, and what a resolution reported. -/
def apply (ds : List Declaration) : Change → Except Failure (List Declaration × List Diagnostic)
  | .add name origin fields => .ok (ds ++ [build name origin fields], [])
  | .insert index key type =>
    let i := index.getD (ds.length - 1)
    if i < ds.length then .ok (ds.modify i (·.insert key type), [])
    else .error .noSuchDeclaration
  | .collect name origin attributes =>
    match Declaration.collect name origin attributes with
    | .ok d => .ok (ds ++ [d], [])
    | .error e => .error (.collect e)
  | .resolve policy =>
    match Collision.resolve policy ds with
    | .ok r => .ok (r.kept, r.diagnostics)
    | .error e => .error (.collision e)

/-- The list after a change that may have failed. -/
def step (ds : List Declaration) (c : Change) : List Declaration :=
  match apply ds c with
  | .ok (ds', _) => ds'
  | .error _ => ds

def run (cs : List Change) : List Declaration :=
  cs.foldl step []

end ContentTypes.Session
