/-!
The non-negative finite values of the 64-bit binary floating format, kept as a significand and a
power of two. Products and quotients are exact integers first and are rounded once, to the
nearest value and on a tie to the even significand.
-/

namespace ContentTypes

/-- The value `significand * 2 ^ power`. -/
structure Binary64 where
  significand : Nat
  power : Int
  deriving DecidableEq, Repr

namespace Binary64

/-- The power of the smallest positive value. -/
def leastPower : Int := -1074

/-- The power of the largest value. -/
def greatestPower : Int := 971

def zero : Binary64 := ⟨0, leastPower⟩

def isZero (x : Binary64) : Bool :=
  x.significand = 0

/-- The quotient to the nearest whole number, a half going to the even neighbour. -/
def roundDiv (n d : Nat) : Nat :=
  let q := n / d
  let r := n % d
  if 2 * r < d then q else if d < 2 * r then q + 1 else q + q % 2

-- Powers are spelled out as `Nat.pow`, which no algebra in scope gives another reading.

/-- `n / d` multiplied by a power of two, again as a quotient. -/
def scale (n d : Nat) (shift : Int) : Nat × Nat :=
  (n * Nat.pow 2 shift.toNat, d * Nat.pow 2 (-shift).toNat)

/-- The power of the value nearest to `n / d * 2 ^ power`, which makes the significand lie
between `2 ^ 52` and `2 ^ 53` unless the value is too small for that. -/
def powerFor (n d : Nat) (power : Int) : Int :=
  let guess := (n.log2 : Int) - d.log2 + power - 53
  let (n', d') := scale n d (power - guess)
  max (if d' * Nat.pow 2 53 ≤ n' then guess + 1 else guess) leastPower

/-- The value nearest to `n / d * 2 ^ power`; none where that lies beyond the largest value. -/
def round (n d : Nat) (power : Int) : Option Binary64 :=
  if n = 0 then some zero
  else
    let q := powerFor n d power
    let (n', d') := scale n d (power - q)
    let m := roundDiv n' d'
    let x : Binary64 := if m = Nat.pow 2 53 then ⟨Nat.pow 2 52, q + 1⟩ else ⟨m, q⟩
    if greatestPower < x.power then none else some x

def ofNat (n : Nat) : Option Binary64 :=
  round n 1 0

def mul (x y : Binary64) : Option Binary64 :=
  round (x.significand * y.significand) 1 (x.power + y.power)

def div (x y : Binary64) : Option Binary64 :=
  round x.significand y.significand (x.power - y.power)

end Binary64
end ContentTypes
