/-! Decimal numbers as written: a sign, a whole number and a power of ten, beside the texts that
stand for no number or an infinite one. -/

namespace KnotSpline

/-- The number `±digits · 10 ^ exponent`. -/
structure Decimal where
  negative : Bool
  digits : Nat
  exponent : Int
  deriving DecidableEq, Repr

inductive Numeral
  | finite (d : Decimal)
  | infinite (negative : Bool)
  | notANumber
  deriving DecidableEq, Repr

namespace Decimal

def ofDigits (ds : List Nat) : Nat :=
  ds.foldl (fun n d => 10 * n + d) 0

def ofParts (negative : Bool) (whole fraction : List Nat) (exponent : Int) : Decimal :=
  ⟨negative, ofDigits (whole ++ fraction), exponent - fraction.length⟩

/-- The quotient to the nearest whole number, the even one of two. -/
def roundDiv (n d : Nat) : Nat :=
  let q := n / d
  let r := n % d
  if d < 2 * r ∨ (2 * r = d ∧ q % 2 = 1) then q + 1 else q

def length (n : Nat) : Nat :=
  (Nat.toDigits 10 n).length

end Decimal

end KnotSpline
