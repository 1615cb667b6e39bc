import ContentTypes.Toml.Text
import ContentTypes.Toml.Word
/-!
The TOML reader: keys, values with a bound on the depth of brackets, statements and documents.
-/

namespace ContentTypes.Toml

/-- Neither the parts of a key nor the brackets around a value may be as many as this. -/
def depthLimit : Nat := 80

/-- The one character `c`, after blanks. -/
def readChar (c : Char) : Reader Unit := fun s =>
  match h : skipBlank s with
  | [] => none
  | d :: r =>
    if d = c then some ((), ⟨r, by have := length_skipBlank_le s; rw [h] at this; exact this⟩)
    else none

/-! ### Keys -/

def isBareKeyChar (c : Char) : Bool :=
  c.isAlphanum || c = '-' || c = '_'

/-- One part of a key, after blanks: a bare word or a string of one line. -/
def readKeyPart : Reader String := fun s =>
  match h : skipBlank s with
  | [] => none
  | c :: r =>
    let hr : r.length < s.length := by have := length_skipBlank_le s; rw [h] at this; exact this
    if c = '"' ∨ c = '\x27' then
      (readLine c r).map fun (t, r') => (t, ⟨r'.1, Nat.lt_trans r'.2 hr⟩)
    else if isBareKeyChar c then
      some (String.ofList (c :: r.takeWhile isBareKeyChar), ⟨r.dropWhile isBareKeyChar,
        Nat.lt_of_le_of_lt (List.dropWhile_suffix _).length_le hr⟩)
    else none

/-- The parts of a key after the first, `acc` holding those already read, last first. -/
def readKeyParts (n : Nat) (acc : List String) (s : List Char) (h : s.length < n) :
    Option (List String × Before n) :=
  match readChar '.' s with
  | none => some (acc.reverse, ⟨s, h⟩)
  | some (_, r) =>
    match readKeyPart r.1 with
    | none => none
    | some (p, r') => readKeyParts n (p :: acc) r'.1 (by have := r.2; have := r'.2; omega)
termination_by s.length
decreasing_by have := r.2; have := r'.2; omega

def readKey : Reader Key := fun s => do
  let (p, r) ← readKeyPart s
  let (ps, r') ← readKeyParts s.length [p] r.1 r.length_lt
  if depthLimit ≤ ps.length then none else some (⟨ps.dropLast, ps.getLastD p⟩, r')

/-! ### Values -/

/-- A value without brackets that starts with `c`. A date and a time of day may also stand with
a space between them. -/
def readScalar (c : Char) (s : List Char) : Option (Value × UpTo s.length) :=
  if c = '"' ∨ c = '\x27' then
    (readString c s).map fun (t, r) => (.string t, r.upTo)
  else
    let word := c :: s.takeWhile isWordChar
    let rest := s.dropWhile isWordChar
    have hrest : rest.length ≤ s.length := (List.dropWhile_suffix _).length_le
    let time := (rest.drop 1).takeWhile isWordChar
    if isDate word ∧ rest.head? = some ' ' ∧ isTimeOffset time then
      some (.dateTime (String.ofList (word ++ ' ' :: time)),
        ⟨(rest.drop 1).drop time.length, by simp only [List.length_drop]; omega⟩)
    else (Value.ofWord? word).map fun v => (v, ⟨rest, hrest⟩)

section Containers

variable (value : Reader Value)

/-- The items of an array, where `value` reads one; `acc` holds those already read, last first.
A comma may follow the last. -/
def readItems (n : Nat) (acc : List Value) (s : UpTo n) : Option (List Value × Before n) :=
  match skipGap s.1 with
  | ⟨[], _⟩ => none
  | ⟨c :: r, h⟩ =>
    if c = ']' then some (acc.reverse, s.transBefore ⟨r, h⟩)
    else
      match value (c :: r) with
      | none => none
      | some (v, r') =>
        match skipGap r'.1 with
        | ⟨[], _⟩ => none
        | ⟨d :: r'', h'⟩ =>
          let rest := (s.trans ⟨c :: r, h⟩).transBefore (r'.trans ⟨r'', h'⟩)
          if d = ',' then readItems n (v :: acc) rest.upTo
          else if d = ']' then some ((v :: acc).reverse, rest)
          else none
termination_by s.1.length
decreasing_by exact Nat.lt_of_lt_of_le (r'.trans ⟨r'', h'⟩).2 h

/-- A key, the sign of equality and what `value` reads after blanks. -/
def readAssignment : Reader (Key × Value) := fun s => do
  let (k, r) ← readKey s
  let (_, r') ← readChar '=' r.1
  let (v, r'') ← value (skipBlank r'.1)
  some ((k, v), ⟨r''.1, by
    have := r.2; have := r'.2; have := r''.2; have := length_skipBlank_le r'.1; omega⟩)

/-- The assignments of an inline table after a first one. -/
def readMoreAssignments (n : Nat) (acc : List (Key × Value)) (s : List Char) (h : s.length < n) :
    Option (List (Key × Value) × Before n) :=
  match readChar '\x7d' s with
  | some (_, r) => some (acc.reverse, ⟨r.1, Nat.lt_trans r.2 h⟩)
  | none =>
    match readChar ',' s with
    | none => none
    | some (_, r) =>
      match readAssignment value r.1 with
      | none => none
      | some (a, r') =>
        readMoreAssignments n (a :: acc) r'.1 (by have := r.2; have := r'.2; omega)
termination_by s.length
decreasing_by have := r.2; have := r'.2; omega

/-- The assignments of an inline table whose opening bracket has been read. No line may end
between them, and no comma may follow the last. -/
def readAssignments : Reader (List (Key × Value)) := fun s =>
  match readChar '\x7d' s with
  | some (_, r) => some ([], r)
  | none =>
    match readAssignment value s with
    | none => none
    | some (a, r) => readMoreAssignments value s.length [a] r.1 r.length_lt

end Containers

/-- A value within which at most `depth` brackets are open at once. -/
def readValue (depth : Nat) : Reader Value
  | [] => none
  | c :: s =>
    let scalar : Option (Value × Before (c :: s).length) :=
      (readScalar c s).map fun (v, r) => (v, r.after)
    match depth with
    | 0 => if c = '[' ∨ c = '\x7b' then none else scalar
    | depth + 1 =>
      if c = '[' then
        (readItems (readValue depth) s.length [] (.all s)).map fun (vs, r) =>
          (.array vs, r.after)
      else if c = '\x7b' then do
        let (as, r) ← readAssignments (readValue depth) s
        let v ← inlineTable? as
        some (v, r.after)
      else scalar

/-! ### Statements -/

/-- The brackets of a header and the key between them. -/
def readHeader : Reader Statement
  | '[' :: '[' :: s => do
    let (k, r) ← readKey s
    let (_, r') ← readChar ']' r.1
    match r' with
    | ⟨']' :: rest, h⟩ =>
      some (.element k, (r.trans (Before.trans ⟨']' :: rest, h⟩ (.tail ']' rest))).after.after)
    | _ => none
  | '[' :: s => do
    let (k, r) ← readKey s
    let (_, r') ← readChar ']' r.1
    some (.table k, (r.trans r').after)
  | _ => none

def readStatement : Reader Statement := fun s =>
  if s.head? = some '[' then readHeader s
  else (readAssignment (readValue (depthLimit - 1)) s).map fun (a, r) => (.assign a.1 a.2, r)

/-- What may stand between the end of a statement and the next line: blanks and a comment. -/
def skipTail (s : List Char) : List Char :=
  match skipBlank s with
  | '#' :: r => r.dropWhile isPlain
  | r => r

theorem length_skipTail_le (s : List Char) : (skipTail s).length ≤ s.length := by
  have hs := length_skipBlank_le s
  unfold skipTail
  split
  · next r hr =>
    have hr' := (UpTo.dropWhile isPlain r).2
    rw [hr] at hs
    exact Nat.le_trans hr' (Nat.le_of_succ_le hs)
  · exact hs

/-- The statements of a document, each on lines of its own. -/
def readStatements (acc : List Statement) (s : List Char) : Option (List Statement) :=
  match skipGap s with
  | ⟨[], _⟩ => some acc.reverse
  | ⟨c :: r, _h⟩ => do
    let (st, r') ← readStatement (c :: r)
    match _h' : skipTail r'.1 with
    | [] => some (st :: acc).reverse
    | d :: r'' => do
      let (_, next) ← readLineEnd (d :: r'')
      readStatements (st :: acc) next.1
termination_by s.length
decreasing_by
  have _hr := r'.2
  have _hnext := next.2
  have htail := length_skipTail_le r'.1
  rw [_h'] at htail
  omega

/-- The table that a text denotes; a byte order mark in front does not count. -/
def parse? (text : String) : Option Value := do
  let s := match text.toList with
    | '\uFEFF' :: s => s
    | s => s
  ofStatements? (← readStatements [] s)

end ContentTypes.Toml
