import ContentTypes.Text.Blank
import ContentTypes.Text.Rest
/-!
Patterns for the texts of fields: what all their parts have in common, that is the mode in which
they are read, the blanks between them and the way in which depths add up.

Patterns are matched byte by byte and without tables of scripts. In the scope of all characters
there are therefore no named classes and no words, and case cannot be ignored; in the scope of
bytes nothing may match that is only a part of a character.
-/

namespace ContentTypes.Log.Pattern

/-- A reader takes at least one character; it says no more of a text that it refuses than that
it does. -/
abbrev Reader (α : Type) := (s : List Char) → Option (α × Before s.length)

/-- How the rest of a group is to be understood. -/
structure Mode where
  ignoresCase : Bool := false
  /-- Whether the scope is all characters; otherwise it is the bytes. -/
  wide : Bool := true
  /-- Whether blanks and comments may stand between the parts of a pattern. -/
  spaced : Bool := false
  deriving DecidableEq, Repr

/-! ### Blanks -/

/-- Passes over blanks and comments, from inside a comment or not; a comment runs from a number
sign to the end of its line. -/
def skipFrom (inComment : Bool) : List Char → List Char
  | [] => []
  | c :: s =>
    if inComment then skipFrom (c ≠ '\n') s
    else if Text.isBlank c then skipFrom false s
    else if c = '#' then skipFrom true s
    else c :: s

theorem length_skipFrom_le (inComment : Bool) (s : List Char) :
    (skipFrom inComment s).length ≤ s.length := by
  induction s generalizing inComment with
  | nil => simp [skipFrom]
  | cons c s ih =>
    unfold skipFrom
    split
    · exact Nat.le_succ_of_le (ih _)
    · split
      · exact Nat.le_succ_of_le (ih _)
      · split
        · exact Nat.le_succ_of_le (ih _)
        · exact Nat.le_refl _

def Mode.skip (m : Mode) (s : List Char) : UpTo s.length :=
  if m.spaced then ⟨skipFrom false s, length_skipFrom_le false s⟩ else .all s

/-! ### Depth -/

/-- Things that stand side by side, by their number and the greatest of their depths. -/
structure Row where
  count : Nat := 0
  depth : Nat := 0
  deriving DecidableEq, Repr

namespace Row

def add (r : Row) (depth : Nat) : Row :=
  ⟨r.count + 1, max r.depth depth⟩

/-- A thing alone is as deep as it is; two or more are one deeper. -/
def total (r : Row) : Nat :=
  if 2 ≤ r.count then r.depth + 1 else r.depth

end Row
end ContentTypes.Log.Pattern
