import ContentTypes.Text.Hex
import ContentTypes.Text.Rest
/-!
The lexical layer of the TOML reader: blanks, comments and the four kinds of strings. A line ends
with a line feed, which a carriage return may precede; in strings of several lines both become a
line feed.
-/

namespace ContentTypes.Toml

/-- A reader takes at least one character; it says no more of a text that it refuses than that
it does. -/
abbrev Reader (α : Type) := (s : List Char) → Option (α × Before s.length)

def isBlank (c : Char) : Bool :=
  c = ' ' || c = '\t'

/-- Whether a character may stand in comments and, apart from quotes and backslashes, in
strings. -/
def isPlain (c : Char) : Bool :=
  c = '\t' || 0x20 ≤ c.toNat && c.toNat ≠ 0x7F

def skipBlank (s : List Char) : List Char :=
  s.dropWhile isBlank

theorem length_skipBlank_le (s : List Char) : (skipBlank s).length ≤ s.length :=
  (List.dropWhile_suffix _).length_le

def readLineEnd : Reader Unit
  | '\n' :: s => some ((), .tail '\n' s)
  | '\r' :: '\n' :: s => some ((), (Before.tail '\n' s).after)
  | _ => none

/-- Passes over blanks and line ends. -/
def skipLines (s : List Char) : UpTo s.length :=
  match s with
  | [] => .all []
  | c :: s =>
    if isBlank c then
      (skipLines s).cons
    else
      match readLineEnd (c :: s) with
      | none => .all (c :: s)
      | some (_, r) => r.upTo.trans (skipLines r.1)
termination_by s.length
decreasing_by
  · simp
  · exact r.2

/-- Passes over blanks, line ends and comments. -/
def skipGap (s : List Char) : UpTo s.length :=
  match skipLines s with
  | ⟨[], h⟩ => ⟨[], h⟩
  | ⟨c :: r, h⟩ =>
    if c = '#' then
      let r' := (UpTo.dropWhile isPlain r).trans (skipGap (r.dropWhile isPlain))
      UpTo.trans ⟨c :: r, h⟩ r'.cons
    else ⟨c :: r, h⟩
termination_by s.length
decreasing_by
  have := (List.dropWhile_suffix (l := r) isPlain).length_le
  simp only [List.length_cons] at h
  omega

/-! ### Escapes -/

/-- The character with the hexadecimal number in front, of `n + 1` digits. -/
def readCode (n : Nat) : Reader Char := fun s =>
  match s with
  | [] => none
  | c :: r => do
    let ds ← ((c :: r).take (n + 1)).mapM Text.hexValue?
    let code := ds.foldl (fun m d => m * 16 + d) 0
    if ds.length = n + 1 ∧ code.isValidChar then
      some (Char.ofNat code, ⟨(c :: r).drop (n + 1), by
        simp only [List.length_drop, List.length_cons]; omega⟩)
    else none

/-- What follows a backslash. -/
def readEscape : Reader Char
  | [] => none
  | c :: s =>
    let short (d : Char) : Option (Char × Before (c :: s).length) := some (d, .tail c s)
    let long (n : Nat) : Option (Char × Before (c :: s).length) :=
      (readCode n s).map fun (d, r) => (d, r.after)
    match c with
    | '"' => short '"'
    | '\\' => short '\\'
    | 'b' => short '\x08'
    | 't' => short '\t'
    | 'n' => short '\n'
    | 'f' => short '\x0c'
    | 'r' => short '\r'
    | 'u' => long 3
    | 'U' => long 7
    | _ => none

/-- A line end after a backslash and blanks, and all blanks and line ends after it. -/
def readFold : Reader Unit := fun s =>
  match readLineEnd (skipBlank s) with
  | none => none
  | some (_, r) =>
    let r' := skipLines r.1
    some ((), ⟨r'.1, by have := r.2; have := r'.2; have := length_skipBlank_le s; omega⟩)

/-! ### Strings -/

/-- The characters up to the double quote that closes a string of one line, `acc` holding those
already read, last first. -/
def readBasic (n : Nat) (acc : List Char) (s : List Char) (h : s.length ≤ n) :
    Option (String × Before n) :=
  match s with
  | [] => none
  | c :: s =>
    if c = '"' then some (String.ofList acc.reverse, ⟨s, h⟩)
    else if c = '\\' then do
      let (d, r) ← readEscape s
      readBasic n (d :: acc) r.1 (by have := r.2; simp only [List.length_cons] at h; omega)
    else if isPlain c then readBasic n (c :: acc) s (Nat.le_of_succ_le h)
    else none
termination_by s.length
decreasing_by
  · have := r.2; simp only [List.length_cons]; omega
  · simp

/-- The characters up to the single quote that closes a string of one line; a backslash stands
for itself. -/
def readLiteral : Reader String := fun s =>
  match h : s.dropWhile fun c => isPlain c && c ≠ '\x27' with
  | '\x27' :: r => some (String.ofList (s.takeWhile fun c => isPlain c && c ≠ '\x27'), ⟨r, by
      have := (List.dropWhile_suffix (l := s) fun c => isPlain c && c ≠ '\x27').length_le
      rw [h] at this
      exact this⟩)
  | _ => none

/-- The end of a string of several lines whose closing quotes `q` have been read: up to two more
belong to the string. -/
def closing (q : Char) (n : Nat) (acc : List Char) (s : List Char) (h : s.length < n) :
    String × Before n :=
  let more := (s.take 2).takeWhile (· = q)
  (String.ofList (acc.reverse ++ more), ⟨s.drop more.length, by
    simp only [List.length_drop]; omega⟩)

/-- The characters up to the three quotes `q` that close a string of several lines; in single
quotes a backslash stands for itself. -/
def readLines (q : Char) (n : Nat) (acc : List Char) (s : List Char) (h : s.length ≤ n) :
    Option (String × Before n) :=
  match s with
  | [] => none
  | c :: s =>
    if c = q ∧ s.take 2 = [q, q] then
      some (closing q n acc (s.drop 2) (by
        simp only [List.length_cons, List.length_drop] at *; omega))
    else if c = '\\' ∧ q = '"' then
      match readFold s with
      | some (_, r) =>
        readLines q n acc r.1 (by have := r.2; simp only [List.length_cons] at h; omega)
      | none =>
        match readEscape s with
        | some (d, r) =>
          readLines q n (d :: acc) r.1 (by have := r.2; simp only [List.length_cons] at h; omega)
        | none => none
    else if isPlain c then readLines q n (c :: acc) s (Nat.le_of_succ_le h)
    else
      match readLineEnd (c :: s) with
      | some (_, r) => readLines q n ('\n' :: acc) r.1 (by have := r.2; omega)
      | none => none
termination_by s.length
decreasing_by
  · have := r.2; simp only [List.length_cons]; omega
  · have := r.2; simp only [List.length_cons]; omega
  · simp
  · exact r.2

/-- A string of several lines whose opening quotes have been read; a line end right after them
does not count. -/
def readBlock (q : Char) : Reader String := fun s =>
  match readLineEnd s with
  | some (_, r) => readLines q s.length [] r.1 r.length_le
  | none => readLines q s.length [] s (length_le_self s)

/-- A string of one line whose opening quote has been read. -/
def readLine (q : Char) : Reader String := fun s =>
  if q = '"' then readBasic s.length [] s (length_le_self s) else readLiteral s

/-- A string of either kind whose first quote has been read. -/
def readString (q : Char) : Reader String := fun s =>
  if s.take 2 = [q, q] then
    (readBlock q (s.drop 2)).map fun (t, r) =>
      (t, ⟨r.1, by have := r.2; simp only [List.length_drop] at this; omega⟩)
  else readLine q s

end ContentTypes.Toml
