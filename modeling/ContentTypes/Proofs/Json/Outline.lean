import ContentTypes.Json.Reader
import Mathlib
/-!
The grammar of JSON texts, by what a text says rather than by how it is read. An outline keeps the
names and the values of a text and the order of its fields, repeated ones too, and drops blanks
and spelling. The readers are functions of the outline: one that looks at nothing passes over
every value, and one that keeps a value keeps that of the outline.
-/

namespace ContentTypes.Json

/-- What a value says. A scalar that can only be passed over, such as a numeral that is too large
or a string with half a surrogate pair, has no value; such a string names nothing. -/
inductive Outline where
  | scalar (value : Option Json)
  | array (items : List Outline)
  | object (fields : List (Option String × Outline))

namespace Outline

/-- A field, by its name and what it says. -/
abbrev Field := Option String × Outline

section
variable {σ : Type}

/-- One field on top of what was gathered so far. -/
def take (step : String → σ → Outline → Option σ) (st : σ) (f : Field) : Option σ :=
  f.1.bind fun name => step name st f.2

/-- What the fields of an object come to, one after another. -/
def gather (step : String → σ → Outline → Option σ) (st : σ) (fields : List Field) : Option σ :=
  fields.foldlM (take step) st

@[simp] theorem gather_nil (step : String → σ → Outline → Option σ) (st : σ) :
    gather step st [] = some st := rfl

theorem gather_cons (step : String → σ → Outline → Option σ) (st : σ) (f : Field)
    (fields : List Field) :
    gather step st (f :: fields) = (take step st f).bind (gather step · fields) := by
  rw [gather, List.foldlM_cons]
  rfl

end

/-- Puts the value of a field in a table. -/
def keepStep {α : Type} (value? : Outline → Option α) (name : String)
    (table : List (String × α)) (o : Outline) : Option (List (String × α)) :=
  (value? o).map (Table.put name · table)

/-- The value within which at most `depth` brackets are open at once, if it is one. -/
def value? : Nat → Outline → Option Json
  | _, .scalar value => value
  | 0, _ => none
  | depth + 1, .array items => (items.mapM (value? depth)).map .array
  | depth + 1, .object fields => (gather (keepStep (value? depth)) [] fields).map .object

end Outline

/-! ### Spelling -/

/-- What a reader comes to: a value with the rest `r`, or no value and some fault. -/
def Gives {α : Type} {p : List Char → Prop} (result : Except Fault (α × { r // p r }))
    (r : List Char) : Option α → Prop
  | some v => ∃ h, result = .ok (v, ⟨r, h⟩)
  | none => ∃ e, result = .error e

/-- What follows an item of an array or a field of an object, and the closing bracket. -/
inductive Series {α : Type} (element : List Char → α → List Char → Prop) (close : Char) :
    List Char → List α → List Char → Prop
  | stop {s r : List Char} (h : skipBlank s = close :: r) : Series element close s [] r
  | more {s t u r : List Char} {x : α} {xs : List α} (h : skipBlank s = ',' :: t)
      (first : element t x u) (rest : Series element close u xs r) :
      Series element close s (x :: xs) r

/-- What follows an opening bracket, with the closing one. -/
inductive Bracketed {α : Type} (element : List Char → α → List Char → Prop) (close : Char) :
    List Char → List α → List Char → Prop
  | empty {s r : List Char} (h : skipBlank s = close :: r) : Bracketed element close s [] r
  | items {s t u r : List Char} {c : Char} {x : α} {xs : List α} (h : skipBlank s = c :: t)
      (hc : c ≠ close) (first : element s x u) (rest : Series element close u xs r) :
      Bracketed element close s (x :: xs) r

/-- A string in the place of a name, which it is if it can be read. -/
structure Named (s : List Char) (name : Option String) (r : List Char) : Prop where
  pass : ∃ h, passName s = .ok ((), ⟨r, h⟩)
  read : Gives (readName s) r name

/-- A scalar that starts with `c`. -/
structure Scalar (c : Char) (s : List Char) (value : Option Json) (r : List Char) : Prop where
  ne_square : c ≠ '['
  ne_curly : c ≠ '\x7b'
  pass : ∃ h, passScalar c s = .ok ⟨r, h⟩
  read : Gives (readScalar c s) r value

/-- A name, a colon and a value. -/
def Member (element : List Char → Outline → List Char → Prop) (s : List Char)
    (f : Outline.Field) (r : List Char) : Prop :=
  ∃ t u, Named s f.1 t ∧ skipBlank t = ':' :: u ∧ element u f.2 r

/-- A value within which at most `depth` brackets are open at once, and what follows it. -/
def Spells : Nat → List Char → Outline → List Char → Prop
  | _, s, .scalar value, r => ∃ c t, skipBlank s = c :: t ∧ Scalar c t value r
  | 0, _, _, _ => False
  | depth + 1, s, .array items, r =>
    ∃ t, skipBlank s = '[' :: t ∧ Bracketed (Spells depth) ']' t items r
  | depth + 1, s, .object fields, r =>
    ∃ t, skipBlank s = '\x7b' :: t ∧ Bracketed (Member (Spells depth)) '\x7d' t fields r

/-- A text that holds one value, with blanks around it. -/
def Document (text : String) (o : Outline) : Prop :=
  ∃ depth r, Spells depth text.toList o r ∧ skipBlank r = []

/-! ### Shapes and depths -/

variable {s r : List Char} {depth depth' : Nat} {o : Outline}

theorem Spells.exists_scalar {value : Option Json} (h : Spells depth s (.scalar value) r) :
    ∃ c t, skipBlank s = c :: t ∧ Scalar c t value r := by
  cases depth <;> exact h

theorem Spells.exists_array {items : List Outline} (h : Spells depth s (.array items) r) :
    ∃ below t, skipBlank s = '[' :: t ∧ Bracketed (Spells below) ']' t items r := by
  cases depth with
  | zero => exact h.elim
  | succ depth => exact ⟨depth, h⟩

theorem Spells.exists_object {fields : List Outline.Field}
    (h : Spells depth s (.object fields) r) :
    ∃ below t, skipBlank s = '\x7b' :: t ∧
      Bracketed (Member (Spells below)) '\x7d' t fields r := by
  cases depth with
  | zero => exact h.elim
  | succ depth => exact ⟨depth, h⟩

/-- A document that opens with a brace is an object. -/
theorem Document.exists_object {text : String} {rest : List Char} (h : Document text o)
    (hopen : skipBlank text.toList = '\x7b' :: rest) : ∃ fields, o = .object fields := by
  obtain ⟨depth, r, hspells, -⟩ := h
  cases o with
  | scalar value =>
    obtain ⟨c, t, hc, hscalar⟩ := hspells.exists_scalar
    cases hopen.symm.trans hc
    exact absurd rfl hscalar.ne_curly
  | array items =>
    obtain ⟨_, t, hsquare, -⟩ := hspells.exists_array
    cases hopen.symm.trans hsquare
  | object fields => exact ⟨fields, rfl⟩

section
variable {α : Type} {element element' : List Char → α → List Char → Prop} {close : Char}
  {xs : List α}

theorem Series.mono (helement : ∀ s x r, element s x r → element' s x r)
    (h : Series element close s xs r) : Series element' close s xs r := by
  induction h with
  | stop h => exact .stop h
  | more h first _ ih => exact .more h (helement _ _ _ first) ih

theorem Bracketed.mono (helement : ∀ s x r, element s x r → element' s x r)
    (h : Bracketed element close s xs r) : Bracketed element' close s xs r := by
  cases h with
  | empty h => exact .empty h
  | items h hc first rest => exact .items h hc (helement _ _ _ first) (rest.mono helement)

end

theorem Member.mono {element element' : List Char → Outline → List Char → Prop}
    {f : Outline.Field} (helement : ∀ s x r, element s x r → element' s x r)
    (h : Member element s f r) : Member element' s f r := by
  obtain ⟨t, u, hname, hcolon, hvalue⟩ := h
  exact ⟨t, u, hname, hcolon, helement _ _ _ hvalue⟩

theorem Spells.succ (h : Spells depth s o r) : Spells (depth + 1) s o r := by
  induction depth generalizing s o r with
  | zero =>
    cases o with
    | scalar value => exact h
    | array items => exact h.elim
    | object fields => exact h.elim
  | succ depth ih =>
    cases o with
    | scalar value => exact h
    | array items =>
      obtain ⟨t, hopen, hitems⟩ := h
      exact ⟨t, hopen, hitems.mono fun _ _ _ hx => ih hx⟩
    | object fields =>
      obtain ⟨t, hopen, hfields⟩ := h
      exact ⟨t, hopen, hfields.mono fun _ _ _ hf => hf.mono fun _ _ _ hx => ih hx⟩

theorem Spells.mono (hle : depth ≤ depth') (h : Spells depth s o r) : Spells depth' s o r := by
  induction hle with
  | refl => exact h
  | step _ ih => exact ih.succ

section
variable {close : Char}

theorem Series.deepen {xs : List Outline} (hle : depth ≤ depth')
    (h : Series (Spells depth) close s xs r) : Series (Spells depth') close s xs r :=
  h.mono fun _ _ _ hx => hx.mono hle

theorem Member.deepen {f : Outline.Field} (hle : depth ≤ depth')
    (h : Member (Spells depth) s f r) : Member (Spells depth') s f r :=
  h.mono fun _ _ _ hx => hx.mono hle

theorem Series.deepenFields {fs : List Outline.Field} (hle : depth ≤ depth')
    (h : Series (Member (Spells depth)) close s fs r) :
    Series (Member (Spells depth')) close s fs r :=
  h.mono fun _ _ _ hf => hf.deepen hle

end

end ContentTypes.Json
