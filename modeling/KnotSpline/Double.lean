import KnotSpline.Decimal.Shortest
import KnotSpline.Scalar

/-! Doubles as scalars. -/

namespace KnotSpline

namespace Decimal

/-- Powers of ten beyond the range of doubles are settled by counting digits. -/
def toFloat (d : Decimal) : Float :=
  let magnitude : Float :=
    let size := d.exponent + length d.digits
    if d.digits = 0 ∨ size < -330 then 0
    else if 310 < size then 1 / 0
    else Float.ofScientific d.digits (decide (d.exponent < 0)) d.exponent.natAbs
  if d.negative then -magnitude else magnitude

end Decimal

namespace Numeral

def toFloat : Numeral → Float
  | finite d => d.toFloat
  | infinite negative => if negative then -1 / 0 else 1 / 0
  | notANumber => 0 / 0

end Numeral

namespace Double

def toInt? (x : Float) : Option Int :=
  if x.isFinite then
    (Dyadic.ofBits x.abs.toBits).toNat?.map fun n => if x < 0 then -(n : Int) else n
  else none

def roundTo (n : Nat) (x : Float) : Decimal :=
  ⟨x.toBits >>> 63 == 1, (Dyadic.ofBits x.abs.toBits).roundTo n, -n⟩

/-- Whether the power of a number is nearer to `2 ^ 1024` than to the largest double below it. -/
def powerOverflows (x : Dyadic) (n : Nat) : Bool :=
  let e := x.exponent * n
  decide ((Nat.pow 2 54 - 1) * Nat.pow 2 (970 - e).toNat ≤
    Nat.pow x.significand n * Nat.pow 2 (e - 970).toNat)

/-- A power of a double. Whether it is in range is decided by exact arithmetic. -/
def pow (x : Float) (n : Nat) : Float :=
  if x.isFinite && decide (1 < x.abs) && powerOverflows (Dyadic.ofBits x.abs.toBits) n then
    if x < 0 ∧ n % 2 = 1 then -1 / 0 else 1 / 0
  else Float.pow x (Float.ofNat n)

end Double

instance : Scalar Float where
  zero := 0
  one := 1
  decidableLT := inferInstance
  decidableLE := inferInstance
  natCast := Float.ofNat
  ofInt? z :=
    let x := Float.ofInt z
    if x.isFinite then some x else none
  ofNumeral := Numeral.toFloat
  toInt? := Double.toInt?
  toNumeral := Numeral.ofFloat
  roundTo := Double.roundTo
  pow := Double.pow
  sqrt := Float.sqrt
  abs := Float.abs
  isFinite := Float.isFinite
  isNaN := Float.isNaN
  epsilon := 1 / 4503599627370496

end KnotSpline
