import ContentTypes.Log.Basic
import ContentTypes.Log.Pattern.Group
import ContentTypes.Text.Bytes
/-!
Directives: which events are shown, and up to which level. A directive is written
`target[span{field}]=level`, where every part but one may be missing, and a field may have a
value after a sign of equality.

The places of the parts are counted in the text without the blanks at its ends, but the parts are
cut from the whole text. Blanks in front therefore shift every part to the left, and a place may
come to lie inside a character, where no text can be cut.
-/

namespace ContentTypes.Log

/-- Shows the events that fit up to a rank. -/
structure Directive where
  /-- Fits the targets that start with this text. -/
  target : Option String := none
  /-- Fits the events that carry a field of this name. -/
  field : Option String := none
  /-- Fits only inside a span or for a value of the field; a run opens no spans and so has no
  such events. -/
  inSpan : Bool := false
  rank : Nat
  deriving DecidableEq, Repr

namespace Directive

def fits (d : Directive) (e : Event) : Bool :=
  !d.inSpan && d.target.all (fun t => t.toList.isPrefixOf e.topic.target.toList)
    && d.field.all (e.fieldNames.contains ·)

/-- How closely a directive describes what it fits: a longer target before a shorter one or none,
and then a field before none. -/
def specificity (d : Directive) : List Nat :=
  d.target.elim 0 (·.length + 1) :: d.field.elim [] (·.toList.map Char.toNat)

/-- Why a text gives no directive. -/
inductive Fault where
  | malformed
  /-- A part would start or end inside a character. -/
  | split
  deriving DecidableEq, Repr

/-! ### Levels -/

/-- A number of the form that ranks have, with a sign or without. -/
def number? (word : List Char) : Option Nat :=
  let digits := if word.head? = some '+' then word.tail else word
  if digits ≠ [] ∧ digits.all Char.isDigit then
    some (digits.foldl (fun n c => 10 * n + (c.toNat - '0'.toNat)) 0)
  else none

/-- The rank that a word asks for: `off`, a level in letters of any case, or a number. -/
def rank? (word : List Char) : Option Nat :=
  match number? word with
  | some n => if n ≤ Level.trace.rank then some n else none
  | none =>
    let lower := (String.ofList word).toLower
    if lower = "off" then some 0
    else (Level.all.find? (·.word.toLower = lower)).map Level.rank

/-- The rank that a level asks for; an empty one asks for all. -/
def levelRank? (level : Option (List Char)) : Option Nat :=
  match level with
  | none | some [] => some Level.trace.rank
  | some word => rank? word

/-! ### Fields -/

/-- A word without the sign in front. -/
def unsigned (word : List Char) : List Char :=
  if word.head? = some '+' ∨ word.head? = some '-' then word.tail else word

def isDigits (word : List Char) : Bool :=
  !word.isEmpty && word.all Char.isDigit

/-- Whether a word is a number: infinite, undefined, or digits with a point among them or not and
an exponent after them or not. -/
def isNumber (word : List Char) : Bool :=
  let magnitude := unsigned word
  if ["inf", "infinity", "nan"].contains (String.ofList magnitude).toLower then true
  else
    let (mantissa, exponent) := magnitude.span fun c => c ≠ 'e' ∧ c ≠ 'E'
    let (whole, fraction) := mantissa.span (· ≠ '.')
    isDigits (whole ++ fraction.tail)
      && (exponent.isEmpty || isDigits (unsigned exponent.tail))

/-- The name of a field, and its value if one is asked for; a second sign of equality ends it. -/
def nameAndValue (field : List Char) : List Char × Option (List Char) :=
  match field.span (· ≠ '=') with
  | (name, []) => (name, none)
  | (name, _ :: rest) => (name, some (rest.takeWhile (· ≠ '=')))

/-- Whether a field can be asked for. A value is a number or a pattern for texts. -/
def isField (field : List Char) : Bool :=
  !field.isEmpty && (nameAndValue field).2.all fun value => isNumber value || Pattern.isValid value

/-! ### Reading -/

/-- The parts of a directive as they are written. -/
structure Form where
  target : Option (List Char) := none
  /-- The span, and the field in it. -/
  span : Option (List Char × Option (List Char)) := none
  /-- What follows the sign of equality. -/
  level : Option (List Char) := none

section Form

variable (text : List Char)

def part (start stop : Nat) : Except Fault (List Char) :=
  match Text.cut? text start stop with
  | some p => .ok p
  | none => .error .split

/-- Reads on after the brackets, where `start` is the place that has been reached. -/
def Form.readLevel (f : Form) (start : Nat) : List Char → Except Fault Form
  | [] => .ok f
  | '=' :: _ => do
    let level ← part text (start + 1) (Text.byteCount text)
    .ok { f with level := some level }
  | _ => .error .malformed

/-- Reads on after the opening bracket of a field. -/
def Form.readField (f : Form) (span : List Char) (start : Nat) (s : List Char) :
    Except Fault Form :=
  let (written, rest) := s.span (· ≠ '\x7d')
  let stop := start + Text.byteCount written
  match rest with
  | [] => .error .malformed
  | _ :: rest => do
    let field ← part text start stop
    if isField field ∧ rest.head? = some ']' then
      Form.readLevel text { f with span := some (span, some field) } (stop + 2) rest.tail
    else .error .malformed

/-- Reads on after the opening bracket of a span. -/
def Form.readSpan (f : Form) (start : Nat) (s : List Char) : Except Fault Form :=
  let (written, rest) := s.span fun c => c ≠ ']' ∧ c ≠ '\x7b'
  let stop := start + Text.byteCount written
  match rest with
  | [] => .error .malformed
  | c :: rest => do
    let span ← part text start stop
    if c = ']' then Form.readLevel text { f with span := some (span, none) } (stop + 1) rest
    else Form.readField text f span (stop + 1) rest

/-- Whether a target or a level may start with the character. -/
def startsName (c : Char) : Bool :=
  c = '-' || c = ':' || c = '_' || Text.isAlphanumeric c

def Form.ofText : Except Fault Form :=
  match Text.trimmed text with
  | [] => .error .malformed
  | '[' :: rest => Form.readSpan text {} 1 rest
  | c :: rest =>
    if startsName c then
      let (written, rest) := (c :: rest).span fun d => d ≠ '=' ∧ d ≠ '['
      let stop := Text.byteCount written
      match rest with
      | [] => .ok { target := some text }
      | d :: after => do
        let target ← part text 0 stop
        if d = '[' then Form.readSpan text { target := some target } (stop + 1) after
        else Form.readLevel text { target := some target } stop rest
    else .error .malformed

end Form

/-- What a form says. A word alone is a level for every target, if it names one. -/
def ofForm? (f : Form) : Option Directive :=
  match f with
  | ⟨target, some (span, field), level⟩ =>
    (levelRank? level).map fun rank =>
      { target := target.map String.ofList
        field := field.map fun t => String.ofList (nameAndValue t).1
        inSpan := field.isNone || span ≠ [] || field.any fun t => (nameAndValue t).2.isSome
        rank }
  | ⟨some word, none, none⟩ =>
    match rank? word with
    | some rank => some { rank }
    | none => some { target := some (String.ofList word), rank := Level.trace.rank }
  | ⟨target, none, level⟩ =>
    (levelRank? level).map fun rank => { target := target.map String.ofList, rank }

def ofText (text : String) : Except Fault Directive := do
  let form ← Form.ofText text.toList
  match ofForm? form with
  | some d => .ok d
  | none => .error .malformed

end Directive
end ContentTypes.Log
