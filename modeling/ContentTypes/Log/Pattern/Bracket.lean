import ContentTypes.Log.Pattern.Symbol
/-!
Sets of characters between brackets: members, ranges, named classes, sets in sets, and operators
between sets. Of a set only its depth is kept.
-/

namespace ContentTypes.Log.Pattern

/-- The names that stand between colons. -/
def classNames : List String :=
  ["alnum", "alpha", "ascii", "blank", "cntrl", "digit", "graph", "lower", "print", "punct",
    "space", "upper", "word", "xdigit"]

/-- Reads a named class whose bracket has been read, and says whether it is negated. Whatever is
not spelled as one is a set of its own. -/
def readClass : Reader Bool
  | ':' :: s =>
    let negated := s.head? = some '^'
    let name := if negated then s.tail else s
    match h : name.dropWhile (· ≠ ':') with
    | ':' :: ']' :: r =>
      if classNames.contains (String.ofList (name.takeWhile (· ≠ ':'))) then
        some (negated, ⟨r, by
          have h1 := (List.dropWhile_suffix (l := name) (· ≠ ':')).length_le
          have h2 : name.length ≤ s.length := by
            unfold name
            split <;> simp
          rw [h] at h1
          simp only [List.length_cons] at *
          omega⟩)
      else none
    | _ => none
  | _ => none

/-- Whether a named class can be matched; a negated one holds more than bytes can tell. -/
def isClassUsable (m : Mode) (negated : Bool) : Bool :=
  if m.wide then !m.ignoresCase else !negated

/-- A set whose closing bracket has not been read. -/
structure Bracket where
  /-- The depth of what stands before the last operator. -/
  left : Option Nat := none
  /-- What stands after it. -/
  members : Row := {}
  /-- Whether there have been only dashes yet, which then are members. -/
  atStart : Bool := true
  deriving DecidableEq, Repr

namespace Bracket

def add (b : Bracket) (depth : Nat) : Bracket :=
  { b with members := b.members.add depth, atStart := false }

def depth (b : Bracket) : Nat :=
  match b.left with
  | none => b.members.total
  | some left => max left b.members.total + 1

/-- The operators are `&&`, `--` and `~~`, and what stands before one is its left side. -/
def operate (b : Bracket) : Bracket :=
  { left := some b.depth, atStart := false }

/-- Whether the character is a member because of its place, although it has a meaning elsewhere:
dashes in front, and a closing bracket that would leave the set empty. -/
def takesFirst (b : Bracket) (c : Char) : Bool :=
  b.atStart && (c = '-' || c = ']' && b.members.count = 0)

/-- Adds a member in front. -/
def addFirst (b : Bracket) (c : Char) : Bracket :=
  { b.add 0 with atStart := c = '-' }

end Bracket

/-- What decides whether a dash makes a range: the character after it, where blanks and a first
number sign are passed over if blanks may stand there. -/
def afterDash (m : Mode) (s : List Char) : Option Char :=
  if m.spaced then
    match s.dropWhile Text.isBlank with
    | '#' :: r => (r.dropWhile Text.isBlank).head?
    | r => r.head?
  else s.head?

/-- A member or a range that can be matched. -/
def readMembers (m : Mode) : Reader Unit := fun s => do
  let (first, r) ← readMember m s
  let single := if first.isMember m then some ((), r) else none
  match m.skip r.1 with
  | ⟨'-' :: r', h⟩ =>
    if afterDash m r' = some ']' ∨ afterDash m r' = some '-' then single
    else do
      let next := m.skip r'
      let (last, rest) ← readMember m next.1
      if first.isRange m last then
        some ((), ⟨rest.1, by
          have := rest.2; have := next.2; have := r.2; simp only [List.length_cons] at h; omega⟩)
      else none
  | _ => single

/-- The start of a set whose bracket has been read. A negated one holds more than bytes can
tell. -/
def readOpening (m : Mode) (s : List Char) : Option (UpTo s.length) :=
  match m.skip s with
  | ⟨'^' :: r, h⟩ =>
    if m.wide then some ⟨r, by simp only [List.length_cons] at h; omega⟩ else none
  | r => some r

/-- Whether the text starts with an operator between sets. -/
def startsOperator : List Char → Bool
  | '&' :: '&' :: _ => true
  | '-' :: '-' :: _ => true
  | '~' :: '~' :: _ => true
  | _ => false

/-- Goes on inside the brackets of `b` and `outer`, innermost first, to the end of the last. -/
def readSet (m : Mode) (n : Nat) (outer : List Bracket) (b : Bracket) (s : List Char)
    (hs : s.length ≤ n) : Option (Nat × Before n) :=
  match m.skip s with
  | ⟨[], _⟩ => none
  | ⟨c :: r, h⟩ =>
    have hr : r.length < s.length := h
    if b.takesFirst c then
      if (Symbol.char c false).isMember m then
        readSet m n outer (b.addFirst c) r (by omega)
      else none
    else if c = '[' then
      match readClass r with
      | some (negated, r') =>
        if isClassUsable m negated then
          readSet m n outer (b.add 0) r'.1 (by have := r'.2; omega)
        else none
      | none =>
        match readOpening m r with
        | none => none
        | some r' => readSet m n (b :: outer) {} r'.1 (by have := r'.2; omega)
    else if c = ']' then
      match outer with
      | [] => some (b.depth + 1, ⟨r, Nat.lt_of_lt_of_le hr hs⟩)
      | o :: outer => readSet m n outer (o.add (b.depth + 1)) r (by omega)
    else if startsOperator (c :: r) then
      readSet m n outer b.operate r.tail (by have := List.length_tail (l := r); omega)
    else
      match readMembers m (c :: r) with
      | none => none
      | some (_, r') =>
        readSet m n outer (b.add 0) r'.1 (by
          have := r'.2; simp only [List.length_cons] at this; omega)
termination_by s.length
decreasing_by
  · exact hr
  · have := r'.2; omega
  · have := r'.2; omega
  · exact hr
  · have := List.length_tail (l := r); omega
  · have := r'.2; simp only [List.length_cons] at this; omega

/-- The depth of a set whose opening bracket has been read. -/
def readBracket (m : Mode) : Reader Nat := fun s => do
  let r ← readOpening m s
  readSet m s.length [] {} r.1 r.2

end ContentTypes.Log.Pattern
