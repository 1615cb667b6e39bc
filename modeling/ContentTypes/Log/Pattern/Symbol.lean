import ContentTypes.Log.Pattern.Basic
import ContentTypes.Text.Hex
/-!
The symbols of a pattern: single characters and escapes, and where each of them can be matched.
-/

namespace ContentTypes.Log.Pattern

/-- What a character or an escape stands for. -/
inductive Symbol where
  /-- Itself; `byte` if it is spelled by the two digits of a byte. -/
  | char (c : Char) (byte : Bool)
  /-- The digits, the blanks or the characters of words, or all others. -/
  | named (negated : Bool)
  /-- Any character. -/
  | any
  /-- An end of the text or of a line. -/
  | edge
  /-- An end of a word. -/
  | wordEdge
  deriving DecidableEq, Repr

namespace Symbol

/-- Whether a symbol can be matched on its own. -/
def isUsable (m : Mode) : Symbol → Bool
  | .char c byte =>
    if m.wide then !m.ignoresCase else c.toNat < 0x80 || !(byte || m.ignoresCase)
  | .named negated => !m.wide && !negated
  | .any => m.wide
  | .edge => true
  | .wordEdge => !m.wide

/-- Whether a symbol can be matched as one of several between brackets. -/
def isMember (m : Mode) : Symbol → Bool
  | .char c _ => if m.wide then !m.ignoresCase else c.toNat < 0x80
  | .named negated => !m.wide && !negated
  | .any | .edge | .wordEdge => false

/-- Whether two symbols are the ends of a range of members. -/
def isRange (m : Mode) : Symbol → Symbol → Bool
  | .char c b, .char d b' => c ≤ d && isMember m (.char c b) && isMember m (.char d b')
  | _, _ => false

/-- The symbol that a character denotes after a backslash, where no digits follow. Any character
of ASCII but letters and digits stands for itself. -/
def ofEscape? (c : Char) : Option Symbol :=
  match c with
  | 'd' | 's' | 'w' => some (.named false)
  | 'D' | 'S' | 'W' => some (.named true)
  | 'a' => some (.char '\x07' false)
  | 'f' => some (.char '\x0c' false)
  | 't' => some (.char '\t' false)
  | 'n' => some (.char '\n' false)
  | 'r' => some (.char '\r' false)
  | 'v' => some (.char '\x0b' false)
  | 'A' | 'z' => some .edge
  | 'b' | 'B' | '<' | '>' => some .wordEdge
  | c => if c.toNat < 0x80 ∧ !c.isAlphanum then some (.char c false) else none

/-- The number of digits after a letter that spells a character by its code point. -/
def digitCount? (c : Char) : Option Nat :=
  match c with
  | 'x' => some 2
  | 'u' => some 4
  | 'U' => some 8
  | _ => none

end Symbol

/-- The value of `n` more digits of base sixteen after those of `value`. -/
def readDigits (m : Mode) : (n value : Nat) → (s : List Char) → Option (Nat × UpTo s.length)
  | 0, value, s => some (value, .all s)
  | n + 1, value, s =>
    match m.skip s with
    | ⟨[], _⟩ => none
    | ⟨c :: r, h⟩ => do
      let d ← Text.hexValue? c
      let (value, r') ← readDigits m n (value * 16 + d) r
      some (value, ⟨r'.1, by have := r'.2; simp only [List.length_cons] at h; omega⟩)

/-- The symbol after a backslash. -/
def readEscape (m : Mode) : Reader Symbol
  | [] => none
  | c :: s =>
    match Symbol.digitCount? c with
    | none => (Symbol.ofEscape? c).map fun symbol => (symbol, .tail c s)
    | some n => do
      let (value, r) ← readDigits m n 0 s
      if value.isValidChar then
        some (.char (Char.ofNat value) (n = 2), r.after)
      else none

/-- A symbol between brackets, where only the backslash has a meaning. -/
def readMember (m : Mode) : Reader Symbol
  | [] => none
  | '\\' :: s => (readEscape m s).map fun (symbol, r) => (symbol, r.after)
  | c :: s => some (.char c false, .tail c s)

/-- A symbol outside brackets. -/
def readSymbol (m : Mode) : Reader Symbol
  | '.' :: s => some (.any, .tail '.' s)
  | '^' :: s => some (.edge, .tail '^' s)
  | '$' :: s => some (.edge, .tail '$' s)
  | s => readMember m s

end ContentTypes.Log.Pattern
