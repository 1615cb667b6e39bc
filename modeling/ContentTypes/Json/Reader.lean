import ContentTypes.Json.Magnitude
/-!
The JSON reader proper: arrays and objects over readers for their parts, whole values with a
bound on the depth of brackets, and the pass over a value that nobody looks at, which has no such
bound.
-/

namespace ContentTypes.Json

/-- The rest of a scalar that starts with `c`. -/
def readScalar (c : Char) (s : List Char) : Except Fault (Json × UpTo s.length) :=
  match c with
  | 'n' => (readWord ['u', 'l', 'l'] s).map (.null, ·)
  | 't' => (readWord ['r', 'u', 'e'] s).map (.bool true, ·)
  | 'f' => (readWord ['a', 'l', 's', 'e'] s).map (.bool false, ·)
  | '"' => (readText s).map fun (t, r) => (.string t, r.upTo)
  | '-' => do
    let (a, r) ← readNumeral s
    match a.value? true with
    | some n => .ok (.number n, r.upTo)
    | none => .error .malformed
  | c => do
    let (a, r) ← readNumeral (c :: s)
    match a.value? false with
    | some n => .ok (.number n, r.ofCons)
    | none => .error .malformed

def passScalar (c : Char) (s : List Char) : Except Fault (UpTo s.length) :=
  match c with
  | 'n' => readWord ['u', 'l', 'l'] s
  | 't' => readWord ['r', 'u', 'e'] s
  | 'f' => readWord ['a', 'l', 's', 'e'] s
  | '"' => (passText s).map fun (_, r) => r.upTo
  | '-' => (passNumeral s).map fun (_, r) => r.upTo
  | c => (passNumeral (c :: s)).map fun (_, r) => r.ofCons

section Containers

variable {α σ : Type}

/-- The items after the first, `acc` holding those already read, last first. -/
def readMoreItems (item : Reader α) (n : Nat) (acc : List α) (s : List Char) (h : s.length < n) :
    Except Fault (List α × Before n) :=
  match head? s with
  | none => .error .truncated
  | some (c, r) =>
    if c = ']' then .ok (acc.reverse, ⟨r.1, Nat.lt_trans r.2 h⟩)
    else if c = ',' then do
      let (v, r') ← item r.1
      readMoreItems item n (v :: acc) r'.1 (by have := r.2; have := r'.2; omega)
    else .error .malformed
termination_by s.length
decreasing_by have := r.2; have := r'.2; omega

/-- The items of an array whose opening bracket has been read. -/
def readItems (item : Reader α) : Reader (List α) := fun s =>
  match head? s with
  | none => .error .truncated
  | some (c, r) =>
    if c = ']' then .ok ([], r)
    else do
      let (v, r') ← item s
      readMoreItems item s.length [v] r'.1 r'.length_lt

/-- A reader for one field of an object, given its name and what was gathered so far; it starts
in front of the colon. -/
abbrev FieldReader (σ : Type) := String → σ → Reader σ

def readMoreFields (field : FieldReader σ) (n : Nat) (st : σ) (s : List Char) (h : s.length < n) :
    Except Fault (σ × Before n) :=
  match head? s with
  | none => .error .truncated
  | some (c, r) =>
    if c = '\x7d' then .ok (st, ⟨r.1, Nat.lt_trans r.2 h⟩)
    else if c = ',' then do
      let (name, r') ← readName r.1
      let (st', r'') ← field name st r'.1
      readMoreFields field n st' r''.1 (by have := r.2; have := r'.2; have := r''.2; omega)
    else .error .malformed
termination_by s.length
decreasing_by have := r.2; have := r'.2; have := r''.2; omega

/-- The fields of an object whose opening bracket has been read. -/
def readFields (field : FieldReader σ) (st : σ) : Reader σ := fun s =>
  match head? s with
  | none => .error .truncated
  | some (c, r) =>
    if c = '\x7d' then .ok (st, r)
    else do
      let (name, r') ← readName s
      let (st', r'') ← field name st r'.1
      readMoreFields field s.length st' r''.1 (r'.length_trans_lt r'')

/-- A colon and then what `value` reads. -/
def afterColon (value : Reader α) : Reader α := fun s => do
  let (_, r) ← readChar ':' s
  let (v, r') ← value r.1
  .ok (v, r.trans r')

/-- Keeps every field: a repeated name takes the last value at the first place. -/
def keepField (value : Reader α) : FieldReader (List (String × α)) := fun name fields s =>
  (afterColon value s).map fun (v, r) => (Table.put name v fields, r)

end Containers

/-- A value within which at most `depth` brackets are open at once. -/
def readValue (depth : Nat) : Reader Json := fun s =>
  match head? s with
  | none => .error .truncated
  | some (c, r) =>
    match depth with
    | 0 =>
      if c = '[' ∨ c = '\x7b' then .error .malformed
      else (readScalar c r.1).map fun (v, r') => (v, r.transUpTo r')
    | depth + 1 =>
      if c = '[' then
        (readItems (readValue depth) r.1).map fun (vs, r') => (.array vs, r.trans r')
      else if c = '\x7b' then
        (readFields (keepField (readValue depth)) [] r.1).map fun (fs, r') =>
          (.object fs, r.trans r')
      else (readScalar c r.1).map fun (v, r') => (v, r.transUpTo r')

/-! ### Passing over a value -/

inductive Bracket where
  | square | curly
  deriving DecidableEq, Repr

/-- The name of a field and its colon. -/
def passNameColon : Reader Unit := fun s => do
  let (_, r) ← passName s
  let (_, r') ← readChar ':' r.1
  .ok ((), r.trans r')

mutual

/-- Passes over a value and what closes the brackets `opened` before it, innermost first. -/
def passOver (n : Nat) (opened : List Bracket) (s : UpTo n) : Except Fault (Before n) :=
  match head? s.1 with
  | none => .error .truncated
  | some (c, r) =>
    if c = '[' then
      match head? r.1 with
      | some (']', r') => passRest n opened (s.transBefore (r.trans r'))
      | _ => passOver n (.square :: opened) (s.transBefore r).upTo
    else if c = '\x7b' then
      match head? r.1 with
      | some ('\x7d', r') => passRest n opened (s.transBefore (r.trans r'))
      | _ => do
        let (_, r') ← passNameColon r.1
        passOver n (.curly :: opened) (s.transBefore (r.trans r')).upTo
    else do
      let r' ← passScalar c r.1
      passRest n opened (s.transBefore (r.transUpTo r'))
termination_by s.1.length
decreasing_by
  all_goals
    have hr := r.2
    try have _hr' := r'.2
    simp only [UpTo.transBefore, Before.trans, Before.transUpTo, Before.upTo]
    omega

/-- Passes over the rest of the brackets `opened` after a value. -/
def passRest (n : Nat) (opened : List Bracket) (s : Before n) : Except Fault (Before n) :=
  match opened with
  | [] => .ok s
  | b :: outer =>
    match head? s.1, b with
    | none, _ => .error .truncated
    | some (']', r), .square => passRest n outer (s.trans r)
    | some (',', r), .square => passOver n (.square :: outer) (s.trans r).upTo
    | some ('\x7d', r), .curly => passRest n outer (s.trans r)
    | some (',', r), .curly => do
      let (_, r') ← passNameColon r.1
      passOver n (.curly :: outer) (s.trans (r.trans r')).upTo
    | some _, _ => .error .malformed
termination_by s.1.length
decreasing_by
  all_goals
    have hr := r.2
    try have _hr' := r'.2
    simp only [Before.trans, Before.upTo]
    omega

end

def passValue : Reader Unit := fun s =>
  (passOver s.length [] (.all s)).map fun r => ((), r)

/-! ### Documents -/

/-- What `value` reads, with nothing but blanks after it. -/
def readDocument {α : Type} (value : Reader α) (text : String) : Except Fault α := do
  let (v, r) ← value text.toList
  if (skipBlank r.1).isEmpty then .ok v else .error .malformed

/-- How many brackets may be open at once. -/
def bracketLimit : Nat := 127

def parse (text : String) : Except Fault Json :=
  readDocument (readValue bracketLimit) text

end ContentTypes.Json
