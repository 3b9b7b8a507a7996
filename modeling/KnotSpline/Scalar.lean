import KnotSpline.Decimal

/-! The arithmetic that curves are computed in. Every algorithm of the library is written over
`Scalar`; running programs use `Float`. -/

namespace KnotSpline

class Scalar (α : Type) extends Add α, Sub α, Mul α, Div α, Neg α, Zero α, One α, LT α, LE α where
  decidableLT : DecidableLT α
  decidableLE : DecidableLE α
  natCast : Nat → α
  /-- The nearest scalar to a whole number, if there is one in range. -/
  ofInt? : Int → Option α
  ofNumeral : Numeral → α
  toInt? : α → Option Int
  toNumeral : α → Numeral
  roundTo : Nat → α → Decimal
  pow : α → Nat → α
  sqrt : α → α
  abs : α → α
  isFinite : α → Bool
  isNaN : α → Bool
  /-- The distance from one to the next larger scalar. -/
  epsilon : α

attribute [reducible, instance] Scalar.decidableLT Scalar.decidableLE

namespace Scalar

variable {α : Type} [Scalar α]

def isZero (x : α) : Bool :=
  decide (x ≤ 0) && decide (0 ≤ x)

def ofBool (b : Bool) : α :=
  if b then 1 else 0

end Scalar

end KnotSpline
