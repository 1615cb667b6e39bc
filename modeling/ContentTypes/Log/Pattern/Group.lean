import ContentTypes.Log.Pattern.Bracket
import ContentTypes.Text.Alphanumeric
/-!
Whole patterns: groups with branches of items, each of which may be repeated. A pattern is read
piece by piece into a draft, which knows of the open groups no more than their modes and depths.
A pattern is valid if every piece fits, every group is closed and nothing lies too deep.
-/

namespace ContentTypes.Log.Pattern

/-! ### Pieces -/

/-- What a pattern is a sequence of. -/
inductive Piece where
  /-- The start of a group, which may have a name. -/
  | opening (mode : Mode) (name : Option String)
  | closing
  /-- A change of the mode for the rest of the group. -/
  | setting (mode : Mode)
  | bar
  /-- Any of the signs that repeat the item before them. -/
  | repetition
  /-- A symbol or a set, by its depth. -/
  | item (depth : Nat)
  deriving DecidableEq, Repr

/-- Switches what a letter stands for. Some letters have no bearing on whether a pattern is
valid. -/
def Mode.switch? (m : Mode) (on : Bool) (letter : Char) : Option Mode :=
  match letter with
  | 'i' => some { m with ignoresCase := on }
  | 'u' => some { m with wide := on }
  | 'x' => some { m with spaced := on }
  | 'm' | 's' | 'U' | 'R' => some m
  | _ => none

/-- Reads the letters that change a mode, up to a colon, which starts a group, or a closing
parenthesis. Letters after a dash are switched off. `seen` holds what has been read, last first;
nothing may come twice. -/
def readChanges (m : Mode) (seen : List Char) : Reader Piece
  | [] => none
  | c :: s =>
    if c = ':' ∨ c = ')' then
      if seen.head? = some '-' ∨ c = ')' ∧ seen = [] then none
      else some (if c = ':' then .opening m none else .setting m, .tail c s)
    else if seen.contains c then none
    else do
      let m' ← if c = '-' then some m else m.switch? (!seen.contains '-') c
      let (piece, r) ← readChanges m' (c :: seen) s
      some (piece, r.after)

def isNameChar (c : Char) : Bool :=
  c = '_' || c = '.' || c = '[' || c = ']' || Text.isAlphanumeric c

/-- The name of a group and the bracket after it. -/
def readName : Reader String := fun s =>
  if s.head?.any fun c => c = '_' || Text.isAlphabetic c then
    match h : s.dropWhile isNameChar with
    | '>' :: r =>
      some (String.ofList (s.takeWhile isNameChar), ⟨r, by
        have h1 := (List.dropWhile_suffix (l := s) isNameChar).length_le
        rw [h] at h1
        exact h1⟩)
    | _ => none
  else none

/-- What an opening parenthesis starts. -/
def readParenthesis (m : Mode) (s : List Char) : Option (Piece × UpTo s.length) :=
  match m.skip s with
  | ⟨'?' :: 'P' :: '<' :: r, h⟩ =>
    (readName r).map fun (name, r') =>
      (.opening m (some name), UpTo.trans ⟨'?' :: 'P' :: '<' :: r, h⟩ r'.after.after.after.upTo)
  | ⟨'?' :: '<' :: r, h⟩ =>
    (readName r).map fun (name, r') =>
      (.opening m (some name), UpTo.trans ⟨'?' :: '<' :: r, h⟩ r'.after.after.upTo)
  | ⟨'?' :: r, h⟩ =>
    (readChanges m [] r).map fun (piece, r') =>
      (piece, UpTo.trans ⟨'?' :: r, h⟩ r'.after.upTo)
  | r => some (.opening m none, r)

/-- A sign of repetition may be followed by a question mark that makes it reluctant. -/
def readPiece (m : Mode) : Reader Piece
  | [] => none
  | c :: s =>
    if c = '(' then
      (readParenthesis m s).map fun (piece, r) => (piece, r.after)
    else if c = ')' then some (.closing, .tail c s)
    else if c = '|' then some (.bar, .tail c s)
    else if c = '[' then
      (readBracket m s).map fun (depth, r) => (.item depth, r.after)
    else if c = '?' ∨ c = '*' ∨ c = '+' then
      some (.repetition, ⟨if s.head? = some '?' then s.tail else s, by
        have := List.length_tail (l := s)
        split <;> simp only [List.length_cons] <;> omega⟩)
    else if c = '\x7b' then none
    else do
      let (symbol, r) ← readSymbol m (c :: s)
      if symbol.isUsable m then some (.item 0, r) else none

/-! ### Drafts -/

/-- A group whose closing parenthesis has not been read. -/
structure Group where
  mode : Mode := {}
  /-- The branches before the one that is being read. -/
  branches : Row := {}
  items : Row := {}
  /-- The depth of the last item, if it can be repeated. -/
  last : Option Nat := none
  deriving DecidableEq, Repr

namespace Group

def add (g : Group) (depth : Nat) : Group :=
  { g with items := g.items.add depth, last := some depth }

/-- Puts the last item one deeper, and leaves their number as it is. -/
def repeat? (g : Group) : Option Group :=
  g.last.map fun depth =>
    { g with items.depth := max g.items.depth (depth + 1), last := some (depth + 1) }

def branch (g : Group) : Group :=
  { g with branches := g.branches.add g.items.total, items := {}, last := none }

def set (g : Group) (mode : Mode) : Group :=
  { g with mode, items := g.items.add 0, last := none }

def depth (g : Group) : Nat :=
  g.branch.branches.total

end Group

/-- What has been read of a pattern. -/
structure Draft where
  group : Group := {}
  /-- The groups around it, innermost first. -/
  outer : List Group := []
  names : List String := []
  deriving DecidableEq, Repr

/-- Goes on by a piece, if it fits. No two groups have the same name. -/
def Draft.step (d : Draft) : Piece → Option Draft
  | .opening mode name =>
    if name.any (d.names.contains ·) then none
    else some ⟨{ mode }, d.group :: d.outer, name.toList ++ d.names⟩
  | .closing =>
    match d.outer with
    | [] => none
    | g :: outer => some { d with group := g.add (d.group.depth + 1), outer }
  | .setting mode => some { d with group := d.group.set mode }
  | .bar => some { d with group := d.group.branch }
  | .repetition => d.group.repeat?.map fun group => { d with group }
  | .item depth => some { d with group := d.group.add depth }

def readPieces (d : Draft) (s : List Char) : Option Draft :=
  match d.group.mode.skip s with
  | ⟨[], _⟩ => some d
  | ⟨c :: r, _h⟩ => do
    let (piece, rest) ← readPiece d.group.mode (c :: r)
    let d ← d.step piece
    readPieces d rest.1
termination_by s.length
decreasing_by have := rest.2; omega

/-- No pattern may be deeper than this. -/
def depthLimit : Nat := 250

def isValid (s : List Char) : Bool :=
  (readPieces {} s).any fun d => d.outer.isEmpty && d.group.depth ≤ depthLimit

end ContentTypes.Log.Pattern
