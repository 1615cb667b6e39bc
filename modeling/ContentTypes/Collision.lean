import ContentTypes.Diagnostic
/-!
Several declarations of one name. A policy keeps the first or the last of each name, keeps all,
or refuses; a list in which every name stands once is left alone under any policy.
-/

namespace ContentTypes

inductive CollisionPolicy where
  | firstWins
  | lastWins
  | keep
  | error
  deriving DecidableEq, Repr

structure UnknownPolicy where
  word : String
  deriving DecidableEq, Repr

def UnknownPolicy.message (e : UnknownPolicy) : String :=
  "unknown collision policy `" ++ e.word
    ++ "` (expected first-wins, last-wins, keep or error)"

namespace CollisionPolicy

def word : CollisionPolicy → String
  | .firstWins => "first-wins"
  | .lastWins => "last-wins"
  | .keep => "keep"
  | .error => "error"

def all : List CollisionPolicy :=
  [.firstWins, .lastWins, .keep, .error]

def ofString (s : String) : Except UnknownPolicy CollisionPolicy :=
  match all.find? (·.word = s) with
  | some p => .ok p
  | none => .error ⟨s⟩

end CollisionPolicy

/-- Two schemas give this name, and that is refused. -/
structure CollisionError where
  name : String
  deriving DecidableEq, Repr

def CollisionError.message (e : CollisionError) : String :=
  "declaration `" ++ e.name ++ "` is produced by more than one schema"

namespace Collision

/-- The first name that comes again later. -/
def repeatedName? : List Declaration → Option String
  | [] => none
  | d :: ds => if ds.any (·.name = d.name) then some d.name else repeatedName? ds

/-- Marks each declaration whose name has not come before; `seen` holds the names so far. -/
def markFirst (seen : List String) : List Declaration → List (Declaration × Bool)
  | [] => []
  | d :: ds => (d, !seen.contains d.name) :: markFirst (d.name :: seen) ds

/-- Marks each declaration whose name does not come again. -/
def markLast (ds : List Declaration) : List (Declaration × Bool) :=
  (markFirst [] ds.reverse).reverse

theorem map_fst_markFirst (seen : List String) (ds : List Declaration) :
    (markFirst seen ds).map Prod.fst = ds := by
  induction ds generalizing seen with
  | nil => rfl
  | cons d ds ih => simp [markFirst, ih]

theorem map_fst_markLast (ds : List Declaration) : (markLast ds).map Prod.fst = ds := by
  simp [markLast, map_fst_markFirst]

def dropped (d : Declaration) : Diagnostic :=
  ⟨d.origin, d.name, .duplicateName⟩

/-- The declarations that are left, and a diagnostic for each of the others. -/
structure Resolution where
  kept : List Declaration
  diagnostics : List Diagnostic
  deriving DecidableEq, Repr

/-- Keeps what is marked, in its order. -/
def keepMarked (marks : List (Declaration × Bool)) : Resolution where
  kept := (marks.filter (·.2)).map (·.1)
  diagnostics := (marks.filter (!·.2)).map fun m => dropped m.1

def resolve (policy : CollisionPolicy) (ds : List Declaration) :
    Except CollisionError Resolution :=
  match repeatedName? ds with
  | none => .ok ⟨ds, []⟩
  | some name =>
    match policy with
    | .keep => .ok ⟨ds, []⟩
    | .error => .error ⟨name⟩
    | .firstWins => .ok (keepMarked (markFirst [] ds))
    | .lastWins => .ok (keepMarked (markLast ds))

end Collision
end ContentTypes
