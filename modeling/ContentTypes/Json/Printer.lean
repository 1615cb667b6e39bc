import ContentTypes.Binary64.Shortest
import ContentTypes.Json.Basic
/-!
The compact JSON text of a value: no blanks, object fields in their order, escapes only where
the format demands one.
-/

namespace ContentTypes.Json

/-- From `10 ^ (-5)` up to below `10 ^ 16` a number is written without an exponent. -/
def isPlainExponent (e : Int) : Bool :=
  -5 ≤ e && e < 16

/-- The digits with the point in its place and at least one digit on both sides of it. -/
def plainText (d : Decimal) : List Char :=
  if d.exponent < 0 then
    '0' :: '.' :: List.replicate (-d.exponent - 1).toNat '0' ++ d.digits
  else
    let n := d.exponent.toNat + 1
    let front := d.digits.take n ++ List.replicate (n - d.digits.length) '0'
    let back := d.digits.drop n
    front ++ '.' :: (if back.isEmpty then ['0'] else back)

/-- One digit in front of the point, and an exponent with its sign. -/
def scientificText (d : Decimal) : List Char :=
  let back := d.digits.drop 1
  d.digits.take 1 ++ (if back.isEmpty then [] else '.' :: back)
    ++ 'e' :: (if d.exponent < 0 then '-' else '+') :: Nat.toDigits 10 d.exponent.natAbs

def Number.text : Number → List Char
  | .whole n => if n < 0 then '-' :: Nat.toDigits 10 n.natAbs else Nat.toDigits 10 n.natAbs
  | .real negative x =>
    let d := x.shortest
    (if negative then ['-'] else [])
      ++ if x.isZero then ['0', '.', '0']
        else if isPlainExponent d.exponent then plainText d else scientificText d

def hexDigit (n : Nat) : Char :=
  Nat.digitChar n

def escapedChar (c : Char) : List Char :=
  match c with
  | '"' => ['\\', '"']
  | '\\' => ['\\', '\\']
  | '\x08' => ['\\', 'b']
  | '\x0c' => ['\\', 'f']
  | '\n' => ['\\', 'n']
  | '\r' => ['\\', 'r']
  | '\t' => ['\\', 't']
  | c =>
    if c.toNat < 0x20 then
      ['\\', 'u', '0', '0', hexDigit (c.toNat / 16), hexDigit (c.toNat % 16)]
    else [c]

def stringText (s : String) : List Char :=
  '"' :: s.toList.flatMap escapedChar ++ ['"']

mutual

def chars : Json → List Char
  | .null => ['n', 'u', 'l', 'l']
  | .bool true => ['t', 'r', 'u', 'e']
  | .bool false => ['f', 'a', 'l', 's', 'e']
  | .number n => n.text
  | .string s => stringText s
  | .array [] => ['[', ']']
  | .array (v :: vs) => '[' :: (chars v ++ moreItems vs)
  | .object [] => ['\x7b', '\x7d']
  | .object ((k, v) :: fs) => '\x7b' :: (stringText k ++ ':' :: (chars v ++ moreFields fs))

def moreItems : List Json → List Char
  | [] => [']']
  | v :: vs => ',' :: (chars v ++ moreItems vs)

def moreFields : List (String × Json) → List Char
  | [] => ['\x7d']
  | (k, v) :: fs => ',' :: (stringText k ++ ':' :: (chars v ++ moreFields fs))

end

def text (v : Json) : String :=
  String.ofList (chars v)

end ContentTypes.Json
