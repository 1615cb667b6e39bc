import ContentTypes.Text.Quoted
/-!
Names for declarations. A text in any spelling (dotted, snake, screaming, camel) is cut into
segments, and the capitalised segments joined form its name. The cut looks only at the class of
each symbol, so it is stated for any alphabet with a classification: characters, or the bytes of
a text, where every byte of a character outside ASCII has the class `other`.
-/

namespace ContentTypes.Casing

/-- What the cut sees of a symbol. -/
inductive Letter where
  | capital | small | digit | other
  deriving DecidableEq, Repr

namespace Letter

def ofCode (n : Nat) : Letter :=
  if 'A'.toNat ≤ n ∧ n ≤ 'Z'.toNat then .capital
  else if 'a'.toNat ≤ n ∧ n ≤ 'z'.toNat then .small
  else if '0'.toNat ≤ n ∧ n ≤ '9'.toNat then .digit
  else .other

def ofChar (c : Char) : Letter := ofCode c.toNat

def ofByte (b : UInt8) : Letter := ofCode b.toNat

end Letter

section Cut

variable {α : Type} (letter : α → Letter)

/-- How many symbols of the class `k` stand in front. -/
def run (k : Letter) (l : List α) : Nat :=
  (l.takeWhile fun a => letter a = k).length

theorem run_le_length (k : Letter) (l : List α) : run letter k l ≤ l.length :=
  (List.takeWhile_prefix _).length_le

/-- Whether a run of capitals may stop in front of this text: at its end, at a symbol that is
neither letter nor digit, or at a capitalised word. -/
def stopsAcronym : List α → Bool
  | [] => true
  | a :: l =>
    match letter a, l with
    | .other, _ => true
    | .capital, b :: _ => letter b = .small
    | _, _ => false

/-- The longest run of at least two capitals that may stop where it does; `n` capitals have
been read already. -/
def acronym (n : Nat) : List α → Option Nat
  | [] => none
  | a :: l =>
    if letter a = .capital then
      acronym (n + 1) l <|> if 2 ≤ n + 1 ∧ stopsAcronym letter l then some (n + 1) else none
    else none

/-- A capital or none, at least one small letter, and the digits after them. -/
def word (l : List α) : Option Nat :=
  let first := if (l.head?.map letter) = some .capital then 1 else 0
  match run letter .small (l.drop first) with
  | 0 => none
  | n + 1 => some (first + (n + 1) + run letter .digit (l.drop (first + (n + 1))))

def capital (l : List α) : Option Nat :=
  if (l.head?.map letter) = some .capital then some 1 else none

def digits (l : List α) : Option Nat :=
  match run letter .digit l with
  | 0 => none
  | n + 1 => some (n + 1)

/-- The length of the segment in front, by the first rule that applies. -/
def segmentLength (l : List α) : Option Nat :=
  acronym letter 0 l <|> word letter l <|> capital letter l <|> digits letter l

/-- The segments in their order; symbols that start none are dropped. -/
def segments : List α → List (List α)
  | [] => []
  | a :: l =>
    match segmentLength letter (a :: l) with
    | some (n + 1) => (a :: l.take n) :: segments (l.drop n)
    | _ => segments l
termination_by l => l.length

/-- The segments as half-open ranges of positions, the text starting at position `start`. -/
def spans (start : Nat) : List α → List (Nat × Nat)
  | [] => []
  | a :: l =>
    match segmentLength letter (a :: l) with
    | some (n + 1) => (start, start + (n + 1)) :: spans (start + (n + 1)) (l.drop n)
    | _ => spans (start + 1) l
termination_by l => l.length

end Cut

inductive NamingError where
  | noSegments (input : String)
  deriving DecidableEq, Repr

def NamingError.message : NamingError → String
  | .noSegments s => "no identifier segment in " ++ Text.quoted s

def capitalise : List Char → List Char
  | [] => []
  | c :: l => c.toUpper :: l.map Char.toLower

/-- The name that a text gives, never empty. -/
def caseName (s : String) : Except NamingError String :=
  match segments Letter.ofChar s.toList with
  | [] => .error (.noSegments s)
  | g :: gs => .ok (String.ofList ((g :: gs).flatMap capitalise))

/-- The plural of a name; one that ends in `s` is its own plural. -/
def pluralize (s : String) : String :=
  if s.toList.getLast? = some 's' then s else s ++ "s"

end ContentTypes.Casing
