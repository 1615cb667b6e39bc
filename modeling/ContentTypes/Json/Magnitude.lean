import ContentTypes.Json.Lexical
/-!
The number that a numeral denotes. Whole numbers of the 64-bit ranges are exact. Any other
numeral is taken to as many digits as fit a 64-bit significand, which is then multiplied or
divided once by a power of ten, all in the binary format; the result may be off by a unit in the
last place, and that is the meaning of the numeral here.
-/

namespace ContentTypes.Json

/-- Appends digits to a significand while it stays below `2 ^ 64`; the second part counts the
digits left over. -/
def appendDigits (m : Nat) : List Char → Nat × Nat
  | [] => (m, 0)
  | c :: ds =>
    let m' := m * 10 + (c.toNat - '0'.toNat)
    if m' < Nat.pow 2 64 then appendDigits m' ds else (m, ds.length + 1)

/-- The greatest exponent for which the power of ten has a value of the binary format. -/
def greatestTenPower : Nat := 308

def tenPower (e : Nat) : Option Binary64 :=
  Binary64.ofNat (Nat.pow 10 e)

/-- Division by `10 ^ e`, in steps of the greatest power. -/
def divideByTenPower (x : Binary64) (e : Nat) : Option Binary64 :=
  if e ≤ greatestTenPower then do x.div (← tenPower e)
  else if x.isZero then some x
  else do
    let y ← x.div (← tenPower greatestTenPower)
    divideByTenPower y (e - greatestTenPower)
termination_by e
decreasing_by simp only [greatestTenPower] at *; omega

/-- The value of `m * 10 ^ e`; none if it is too large. -/
def magnitude? (m : Nat) (e : Int) : Option Binary64 := do
  let x ← Binary64.ofNat m
  if 0 ≤ e then
    if e ≤ greatestTenPower then x.mul (← tenPower e.toNat)
    else if x.isZero then some x else none
  else divideByTenPower x e.natAbs

/-- The number with the sign put in front; none if it is too large. -/
def Numeral.value? (negative : Bool) (a : Numeral) : Option Number :=
  let n := digitsValue a.whole
  if a.fraction = none ∧ a.exponent = none
      ∧ (if negative then 0 < n ∧ n ≤ Nat.pow 2 63 else n < Nat.pow 2 64) then
    some (.whole (if negative then -n else n))
  else
    let (m, more) := appendDigits 0 a.whole
    let ds := a.fraction.getD []
    let (m, left) := appendDigits m ds
    let e : Int := more - (ds.length - left : Nat) + a.exponent.getD 0
    (magnitude? m e).map (.real negative)

end ContentTypes.Json
