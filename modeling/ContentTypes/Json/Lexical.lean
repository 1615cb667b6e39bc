import ContentTypes.Json.Fault
import ContentTypes.Text.Bytes
import ContentTypes.Text.Hex
import ContentTypes.Text.Rest
/-!
The lexical layer of the JSON reader: blanks, words, strings and numerals. Every reader returns
what is left of the text together with the bound on its length.

A text is read from front to back and the first defect decides. Values that nobody looks at are
only passed over: their strings may hold unpaired surrogates, their numerals any magnitude.
-/

namespace ContentTypes.Json

/-- A reader takes at least one character. -/
abbrev Reader (α : Type) := (s : List Char) → Except Fault (α × Before s.length)

def isBlank (c : Char) : Bool :=
  c = ' ' || c = '\t' || c = '\n' || c = '\r'

def skipBlank (s : List Char) : List Char :=
  s.dropWhile isBlank

theorem length_skipBlank_le (s : List Char) : (skipBlank s).length ≤ s.length :=
  (List.dropWhile_suffix _).length_le

/-- The first character that is not blank, and what follows it. -/
def head? (s : List Char) : Option (Char × Before s.length) :=
  match h : skipBlank s with
  | [] => none
  | c :: r => some (c, ⟨r, by have := length_skipBlank_le s; rw [h] at this; exact this⟩)

/-- The one character `c`, after blanks. -/
def readChar (c : Char) : Reader Unit := fun s =>
  match head? s with
  | none => .error .truncated
  | some (d, r) => if d = c then .ok ((), r) else .error .malformed

/-- The rest `w` of a word whose first letter has been read. -/
def readWord : (w s : List Char) → Except Fault (UpTo s.length)
  | [], s => .ok (.all s)
  | _ :: _, [] => .error .truncated
  | c :: w, d :: s =>
    if c = d then (readWord w s).map UpTo.cons
    else .error .malformed

/-! ### Strings -/

/-- Four hexadecimal digits. A text of fewer than four bytes is too short whatever it holds. -/
def readHex4 : Reader Nat
  | a :: b :: c :: d :: r =>
    match Text.hexValue? a, Text.hexValue? b, Text.hexValue? c, Text.hexValue? d with
    | some a, some b, some c, some d =>
      .ok (((a * 16 + b) * 16 + c) * 16 + d, ⟨r, by simp only [List.length_cons]; omega⟩)
    | _, _, _, _ => .error .malformed
  | s => .error (if Text.byteCount s < 4 then .truncated else .malformed)

def isHighSurrogate (n : Nat) : Bool := 0xD800 ≤ n && n < 0xDC00

def isLowSurrogate (n : Nat) : Bool := 0xDC00 ≤ n && n < 0xE000

/-- The second half of a surrogate pair, which must follow the first half `high` at once. -/
def readLowSurrogate (high : Nat) : Reader Char
  | [] => .error .truncated
  | ['\\'] => .error .truncated
  | '\\' :: 'u' :: s => do
    let (low, r) ← readHex4 s
    if isLowSurrogate low then
      .ok (Char.ofNat (0x10000 + (high - 0xD800) * 0x400 + (low - 0xDC00)),
        r.after.after)
    else .error .malformed
  | _ => .error .malformed

def shortEscape? : Char → Option Char
  | '"' => some '"'
  | '\\' => some '\\'
  | '/' => some '/'
  | 'b' => some '\x08'
  | 'f' => some '\x0c'
  | 'n' => some '\n'
  | 'r' => some '\r'
  | 't' => some '\t'
  | _ => none

/-- What follows a backslash. -/
def readEscape : Reader Char
  | [] => .error .truncated
  | c :: s =>
    if c = 'u' then do
      let (n, r) ← readHex4 s
      if isLowSurrogate n then .error .malformed
      else if isHighSurrogate n then do
        let (d, r') ← readLowSurrogate n r.1
        .ok (d, (r.trans r').after)
      else .ok (Char.ofNat n, r.after)
    else
      match shortEscape? c with
      | some d => .ok (d, .tail c s)
      | none => .error .malformed

/-- The characters up to the closing quote, `acc` holding those already read, last first. -/
def readChars (n : Nat) (acc : List Char) (s : List Char) (h : s.length ≤ n) :
    Except Fault (List Char × Before n) :=
  match s with
  | [] => .error .truncated
  | c :: s =>
    if c = '"' then .ok (acc.reverse, ⟨s, h⟩)
    else if c = '\\' then do
      let (d, r) ← readEscape s
      readChars n (d :: acc) r.1 (by have := r.2; simp only [List.length_cons] at h; omega)
    else if c.toNat < 0x20 then .error .malformed
    else readChars n (c :: acc) s (Nat.le_of_succ_le h)
termination_by s.length
decreasing_by
  · have := r.2; simp only [List.length_cons]; omega
  · simp

/-- The text of a string whose opening quote has been read. -/
def readText : Reader String := fun s =>
  (readChars s.length [] s (length_le_self s)).map fun (cs, r) => (String.ofList cs, r)

/-- Passes over what follows a backslash: the four digits of a code need not make sense. -/
def passEscape : Reader Unit
  | [] => .error .truncated
  | c :: s =>
    if c = 'u' then do
      let (_, r) ← readHex4 s
      .ok ((), r.after)
    else
      match shortEscape? c with
      | some _ => .ok ((), .tail c s)
      | none => .error .malformed

def passChars (n : Nat) (s : List Char) (h : s.length ≤ n) : Except Fault (Before n) :=
  match s with
  | [] => .error .truncated
  | c :: s =>
    if c = '"' then .ok ⟨s, h⟩
    else if c = '\\' then do
      let (_, r) ← passEscape s
      passChars n r.1 (by have := r.2; simp only [List.length_cons] at h; omega)
    else if c.toNat < 0x20 then .error .malformed
    else passChars n s (Nat.le_of_succ_le h)
termination_by s.length
decreasing_by
  · have := r.2; simp only [List.length_cons]; omega
  · simp

def passText : Reader Unit := fun s =>
  (passChars s.length s (length_le_self s)).map fun r => ((), r)

/-- A string as the name of a field, after blanks. -/
def readName : Reader String := fun s =>
  match head? s with
  | none => .error .truncated
  | some (c, r) =>
    if c = '"' then
      (readText r.1).map fun (t, r') => (t, r.trans r')
    else .error .malformed

def passName : Reader Unit := fun s =>
  match head? s with
  | none => .error .truncated
  | some (c, r) =>
    if c = '"' then
      (passText r.1).map fun (_, r') => ((), r.trans r')
    else .error .malformed

/-! ### Numerals -/

/-- The digits of a numeral without its sign. -/
structure Numeral where
  whole : List Char
  /-- The digits after the point, if there is one. -/
  fraction : Option (List Char)
  exponent : Option Int
  deriving DecidableEq, Repr

def digitsValue (ds : List Char) : Nat :=
  ds.foldl (fun n c => n * 10 + (c.toNat - '0'.toNat)) 0

/-- The digits in front and what follows them. -/
def splitDigits (s : List Char) : List Char × UpTo s.length :=
  (s.takeWhile Char.isDigit, .dropWhile Char.isDigit s)

/-- The digits in front, of which there must be one. -/
def readDigits (s : List Char) : Except Fault (List Char × UpTo s.length) :=
  match s with
  | [] => .error .truncated
  | c :: r => if c.isDigit then .ok (splitDigits (c :: r)) else .error .malformed

/-- The digits in front of the point: a zero stands alone. -/
def readWhole : Reader (List Char)
  | [] => .error .truncated
  | c :: s =>
    if !c.isDigit then .error .malformed
    else if c = '0' then
      if s.head?.any Char.isDigit then .error .malformed else .ok (['0'], .tail c s)
    else
      let (ds, r) := splitDigits s
      .ok (c :: ds, r.after)

def readFraction (s : List Char) : Except Fault (Option (List Char) × UpTo s.length) :=
  match s with
  | '.' :: s => (readDigits s).map fun (ds, r) => (some ds, r.cons)
  | s => .ok (none, .all s)

/-- The sign of an exponent (minus or not) and its digits. -/
def readSigned (s : List Char) : Except Fault (Int × UpTo s.length) :=
  match s with
  | '-' :: s => (readDigits s).map fun (ds, r) =>
    (-(digitsValue ds : Int), r.cons)
  | '+' :: s => (readDigits s).map fun (ds, r) =>
    ((digitsValue ds : Int), r.cons)
  | s => (readDigits s).map fun (ds, r) => ((digitsValue ds : Int), r)

def readExponent (s : List Char) : Except Fault (Option Int × UpTo s.length) :=
  match s with
  | c :: s =>
    if c = 'e' ∨ c = 'E' then
      (readSigned s).map fun (e, r) => (some e, r.cons)
    else .ok (none, .all (c :: s))
  | [] => .ok (none, .all [])

def readNumeral : Reader Numeral := fun s => do
  let (whole, r) ← readWhole s
  let (fraction, r') ← readFraction r.1
  let (exponent, r'') ← readExponent r'.1
  .ok (⟨whole, fraction, exponent⟩, (r.transUpTo r').transUpTo r'')

/-- Passes over a numeral, where even a text that ends in it counts as malformed. -/
def passNumeral : Reader Unit := fun s =>
  match readNumeral s with
  | .ok (_, r) => .ok ((), r)
  | .error _ => .error .malformed

end ContentTypes.Json
