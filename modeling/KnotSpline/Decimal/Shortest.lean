import KnotSpline.Decimal

/-! The shortest decimal that reads back as a given double. A double is a significand times a power
of two; a decimal reads back as it when it lies between the midpoints to the two neighbours. For
one, two, … digits the two decimals next to the value are tried, in exact arithmetic. -/

namespace KnotSpline

structure Dyadic where
  significand : Nat
  exponent : Int
  /-- The next smaller double is only half as far away as the next larger one. -/
  narrowBelow : Bool

namespace Dyadic

def ofBits (bits : UInt64) : Dyadic :=
  let e := ((bits >>> 52) &&& 0x7ff).toNat
  let f := (bits &&& 0xfffffffffffff).toNat
  if e = 0 then ⟨f, -1074, false⟩ else ⟨f + 0x10000000000000, e - 1075, f == 0 && decide (1 < e)⟩

def toNat? (x : Dyadic) : Option Nat :=
  let n := x.significand * Nat.pow 2 x.exponent.toNat
  let d := Nat.pow 2 (-x.exponent).toNat
  if n % d = 0 then some (n / d) else none

def roundTo (n : Nat) (x : Dyadic) : Nat :=
  Decimal.roundDiv (x.significand * Nat.pow 2 x.exponent.toNat * Nat.pow 10 n)
    (Nat.pow 2 (-x.exponent).toNat)

structure Grid where
  low : Nat
  value : Nat
  high : Nat
  unit : Nat
  closed : Bool

def onGrid (x : Dyadic) (s : Int) : Grid :=
  let q := x.exponent - 2
  let scale := Nat.pow 2 q.toNat * Nat.pow 10 (-s).toNat
  let m := 4 * x.significand
  { low := (if x.narrowBelow then m - 1 else m - 2) * scale
    value := m * scale
    high := (m + 2) * scale
    unit := Nat.pow 10 s.toNat * Nat.pow 2 (-q).toNat
    closed := x.significand % 2 == 0 }

namespace Grid

def contains (g : Grid) (c : Nat) : Bool :=
  let v := c * g.unit
  if g.closed then decide (g.low ≤ v) && decide (v ≤ g.high)
  else decide (g.low < v) && decide (v < g.high)

/-- The multiple next to the value that reads back, the nearer one if both do, the even one of two
that are equally near. -/
def nearest? (g : Grid) : Option Nat :=
  let c := g.value / g.unit
  let below := g.value - c * g.unit
  let above := (c + 1) * g.unit - g.value
  match g.contains c, g.contains (c + 1) with
  | true, true =>
    if below < above then some c
    else if above < below then some (c + 1)
    else if c % 2 = 0 then some c else some (c + 1)
  | true, false => some c
  | false, true => some (c + 1)
  | false, false => none

end Grid

def magnitude (x : Dyadic) : Int :=
  let n := x.significand * Nat.pow 2 x.exponent.toNat
  let d := Nat.pow 2 (-x.exponent).toNat
  let k : Int := (Decimal.length n : Int) - Decimal.length d
  if n * Nat.pow 10 (-k).toNat < d * Nat.pow 10 k.toNat then k else k + 1

/-- Digits and exponent of the shortest decimal that reads back; seventeen digits always suffice. -/
def shortest (x : Dyadic) : Nat × Int :=
  let p := x.magnitude
  let found := (List.range 17).findSome? fun (k : Nat) =>
    let s := p - (k + 1 : Nat)
    ((x.onGrid s).nearest?).map fun c => (c, s)
  found.getD (0, 0)

end Dyadic

namespace Numeral

def ofFloat (x : Float) : Numeral :=
  let bits := x.toBits
  let negative := bits >>> 63 == 1
  if x.isNaN then .notANumber
  else if x.isInf then .infinite negative
  else if bits &&& 0x7fffffffffffffff == 0 then .finite ⟨negative, 0, 0⟩
  else
    let (digits, exponent) := (Dyadic.ofBits bits).shortest
    .finite ⟨negative, digits, exponent⟩

end Numeral

end KnotSpline
