import ContentTypes.Text.Hex
import ContentTypes.Toml.Basic
/-!
Values written as a bare word: truth values, numbers, dates and times of day. A word ends where a
blank, a line end, a comma, a closing bracket or a comment starts, and it counts only as a whole.
-/

namespace ContentTypes.Toml

def isWordChar (c : Char) : Bool :=
  !(c = ' ' || c = '\t' || c = '\n' || c = '\r' || c = ',' || c = ']' || c = '\x7d' || c = '#')

/-! ### Digits -/

/-- The groups between underscores. -/
def groups (cs : List Char) : List (List Char) :=
  cs.foldr
    (fun c gs =>
      if c = '_' then [] :: gs
      else match gs with
        | [] => [[c]]
        | g :: gs => (c :: g) :: gs)
    [[]]

/-- The digits of a numeral; an underscore may stand between two of them. -/
def digits? (isDigit : Char → Bool) (cs : List Char) : Option (List Char) :=
  let gs := groups cs
  if gs.all fun g => !g.isEmpty && g.all isDigit then some gs.flatten else none

def isHexDigit (c : Char) : Bool :=
  (Text.hexValue? c).isSome

def digitsValue (base : Nat) (ds : List Char) : Nat :=
  ds.foldl (fun n c => n * base + (Text.hexValue? c).getD 0) 0

/-- The digits of a decimal numeral without its sign: a zero in front stands alone. -/
def whole? (cs : List Char) : Option (List Char) :=
  if cs.head? = some '0' ∧ cs ≠ ['0'] then none else digits? Char.isDigit cs

/-- A sign (minus or not) and what follows it. -/
def splitSign : List Char → Bool × List Char
  | '+' :: cs => (false, cs)
  | '-' :: cs => (true, cs)
  | cs => (false, cs)

/-! ### Numbers -/

def inRange (n : Int) : Bool :=
  -(Nat.pow 2 63 : Int) ≤ n && n < Nat.pow 2 63

def integer? (word : List Char) : Option Int :=
  let inBase (base : Nat) (isDigit : Char → Bool) (cs : List Char) : Option Int :=
    (digits? isDigit cs).map fun ds => (digitsValue base ds : Int)
  let value : Option Int :=
    match word with
    | '0' :: 'x' :: cs => inBase 16 isHexDigit cs
    | '0' :: 'o' :: cs => inBase 8 (fun c => '0' ≤ c && c ≤ '7') cs
    | '0' :: 'b' :: cs => inBase 2 (fun c => c = '0' || c = '1') cs
    | _ =>
      let (negative, cs) := splitSign word
      (whole? cs).map fun ds =>
        let n : Int := digitsValue 10 ds
        if negative then -n else n
  value.filter inRange

/-- From here on a decimal is nearer to infinity than to any double. -/
def tooLarge : Nat := Nat.pow 2 1024 - Nat.pow 2 970

/-- Whether `m * 10 ^ e` is too large for a double. -/
def overflows (m : Nat) (e : Int) : Bool :=
  if m = 0 then false
  else if 0 ≤ e then 400 ≤ e || tooLarge ≤ m * Nat.pow 10 e.toNat
  else
    -- `m` has fewer than `log2 m + 1` decimal digits
    e.natAbs ≤ m.log2 + 1 && tooLarge * Nat.pow 10 e.natAbs ≤ m

/-- Whether a word is a number with a fraction or an exponent, or infinite, or not a number. A
positive number may not be so large that it counts as infinite. -/
def isFloat (word : List Char) : Bool :=
  let (negative, cs) := splitSign word
  if cs = ['i', 'n', 'f'] ∨ cs = ['n', 'a', 'n'] then true
  else
    let (mantissa, exponent) := cs.span fun c => !(c = 'e' || c = 'E')
    let (front, fraction) := mantissa.span fun c => !(c = '.')
    let fraction? := match fraction with
      | [] => some []
      | _ :: f => digits? Char.isDigit f
    let exponent? := match exponent with
      | [] => some (0 : Int)
      | _ :: e =>
        let (below, e) := splitSign e
        (digits? Char.isDigit e).map fun ds =>
          let n : Int := digitsValue 10 ds
          if below then -n else n
    match whole? front, fraction?, exponent? with
    | some w, some f, some e =>
      !(fraction.isEmpty && exponent.isEmpty)
        && (negative || !overflows (digitsValue 10 (w ++ f)) (e - f.length))
    | _, _, _ => false

/-! ### Dates and times -/

/-- A number of `n` digits in front, and what follows it. -/
def fixed? (n : Nat) (cs : List Char) : Option (Nat × List Char) :=
  let ds := cs.take n
  if ds.length = n ∧ ds.all Char.isDigit then some (digitsValue 10 ds, cs.drop n) else none

def daysIn (year month : Nat) : Nat :=
  if month = 2 then
    if year % 4 = 0 ∧ (year % 100 ≠ 0 ∨ year % 400 = 0) then 29 else 28
  else if month = 4 ∨ month = 6 ∨ month = 9 ∨ month = 11 then 30
  else 31

def char? (c : Char) : List Char → Option (List Char)
  | d :: cs => if d = c then some cs else none
  | [] => none

/-- What follows a date. -/
def date? (cs : List Char) : Option (List Char) := do
  let (year, cs) ← fixed? 4 cs
  let (month, cs) ← fixed? 2 (← char? '-' cs)
  let (day, cs) ← fixed? 2 (← char? '-' cs)
  if 1 ≤ month ∧ month ≤ 12 ∧ 1 ≤ day ∧ day ≤ daysIn year month then some cs else none

/-- Hours and minutes, and what follows them. -/
def minutes? (cs : List Char) : Option (List Char) := do
  let (hour, cs) ← fixed? 2 cs
  let (minute, cs) ← fixed? 2 (← char? ':' cs)
  if hour < 24 ∧ minute < 60 then some cs else none

/-- What follows a time of day; a minute may have a leap second. -/
def time? (cs : List Char) : Option (List Char) := do
  let (second, cs) ← fixed? 2 (← char? ':' (← minutes? cs))
  if 60 < second then none
  else
    match cs with
    | '.' :: cs =>
      let (ds, rest) := cs.span Char.isDigit
      if ds.isEmpty then none else some rest
    | cs => some cs

def isOffset : List Char → Bool
  | ['Z'] => true
  | ['z'] => true
  | '+' :: cs => minutes? cs = some []
  | '-' :: cs => minutes? cs = some []
  | _ => false

/-- A time of day with or without an offset. -/
def isTimeOffset (cs : List Char) : Bool :=
  match time? cs with
  | some rest => rest.isEmpty || isOffset rest
  | none => false

def isDate (word : List Char) : Bool :=
  date? word = some []

def isDateTime (word : List Char) : Bool :=
  match date? word with
  | some [] => true
  | some (c :: cs) => (c = 'T' || c = 't') && isTimeOffset cs
  | none => time? word = some []

/-- The value of a word, if it has one. -/
def Value.ofWord? (word : List Char) : Option Value :=
  if word = ['t', 'r', 'u', 'e'] then some (.boolean true)
  else if word = ['f', 'a', 'l', 's', 'e'] then some (.boolean false)
  else if isDateTime word then some (.dateTime (String.ofList word))
  else
    match integer? word with
    | some n => some (.integer n)
    | none => if isFloat word then some (.float (String.ofList word)) else none

end ContentTypes.Toml
