import ContentTypes.Binary64
/-!
The shortest decimal that reads back as a given value of the binary format: the fewest digits,
and of those the ones nearest to the value. A grid of decimals with `n` digits holds such a
decimal exactly if one of the two neighbours of the value on that grid is one.
-/

namespace ContentTypes

/-- The decimal `d.ddd * 10 ^ exponent` with the given digits, the point after the first. -/
structure Decimal where
  digits : List Char
  exponent : Int
  deriving DecidableEq, Repr

def digitCount (n : Nat) : Nat :=
  (Nat.toDigits 10 n).length

namespace Binary64

/-- The exponent `e` with `10 ^ e ≤ x < 10 ^ (e + 1)`, for a positive value. -/
def decimalExponent (x : Binary64) : Int :=
  let (n, d) := scale x.significand 1 x.power
  if d ≤ n then digitCount (n / d) - 1 else - digitCount ((d + n - 1) / n - 1)

/-- Whether `c * 10 ^ k` lies in the interval of numbers that round to `x`; its ends belong to it
if the significand is even. -/
def roundsTo (x : Binary64) (c : Nat) (k : Int) : Bool :=
  let m := x.significand
  let below := if m = Nat.pow 2 52 ∧ leastPower < x.power then 1 else 2
  -- Both sides are multiplied by `4`, and by whatever clears their denominators.
  let (u, v) := scale 1 4 x.power
  let lo := (4 * m - below) * u * Nat.pow 10 (-k).toNat
  let hi := (4 * m + 2) * u * Nat.pow 10 (-k).toNat
  let y := c * v * Nat.pow 10 k.toNat
  if m % 2 = 0 then lo ≤ y && y ≤ hi else lo < y && y < hi

/-- The better of the two neighbours of `x` on the grid of multiples of `10 ^ k`, if one of them
reads back as `x`. -/
def onGrid (x : Binary64) (k : Int) : Option Nat :=
  let (u, v) := scale x.significand 1 x.power
  let n := u * Nat.pow 10 (-k).toNat
  let d := v * Nat.pow 10 k.toNat
  let c := n / d
  match roundsTo x c k, roundsTo x (c + 1) k with
  | true, true => some (roundDiv n d)
  | true, false => some c
  | false, true => some (c + 1)
  | false, false => none

/-- The first grid with a hit, from `n` digits up; seventeen digits always give one. -/
def shortestFrom (x : Binary64) (n : Nat) : Nat → Nat × Int
  | 0 => (0, 0)
  | left + 1 =>
    let k := x.decimalExponent - (n - 1 : Nat)
    match x.onGrid k with
    | some c => (c, k)
    | none => shortestFrom x (n + 1) left

/-- The shortest decimal of a positive value. -/
def shortest (x : Binary64) : Decimal :=
  let (c, k) := x.shortestFrom 1 17
  let ds := Nat.toDigits 10 c
  { digits := (ds.reverse.dropWhile (· = '0')).reverse
    exponent := k + (ds.length - 1 : Nat) }

end Binary64
end ContentTypes
