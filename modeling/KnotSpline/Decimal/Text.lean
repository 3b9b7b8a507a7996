import KnotSpline.Decimal

/-! Decimals as text. -/

namespace KnotSpline

namespace Decimal

def significant (d : Decimal) : List Char × Int :=
  if d.digits = 0 then (['0'], 1)
  else
    let ds := Nat.toDigits 10 d.digits
    ((ds.reverse.dropWhile (· == '0')).reverse, ds.length + d.exponent)

def zeros (n : Nat) : List Char :=
  List.replicate n '0'

def positional (d : Decimal) : List Char × List Char :=
  if d.digits = 0 then (['0'], [])
  else
    let (ds, point) := d.significant
    if point ≤ 0 then (['0'], zeros (-point).toNat ++ ds)
    else
      let n := point.toNat
      (ds.take n ++ zeros (n - ds.length), ds.drop n)

def exponentText (e : Int) : List Char :=
  let ds := Nat.toDigits 10 e.natAbs
  (if e < 0 then '-' else '+') :: (if ds.length < 2 then '0' :: ds else ds)

/-- Numbers from `10 ^ -4` up to `10 ^ 16` are written positionally with at least one digit after
the point, all others with an exponent. -/
def unsignedText (d : Decimal) : List Char :=
  let (ds, point) := d.significant
  if -4 < point ∧ point ≤ 16 then
    let (whole, fraction) := d.positional
    whole ++ '.' :: (if fraction.isEmpty then ['0'] else fraction)
  else
    let e := 'e' :: exponentText (point - 1)
    match ds with
    | d :: f :: fs => d :: '.' :: f :: fs ++ e
    | ds => ds ++ e

def text (d : Decimal) : String :=
  String.ofList (if d.negative then '-' :: d.unsignedText else d.unsignedText)

end Decimal

namespace Numeral

def text : Numeral → String
  | finite d => d.text
  | infinite negative => if negative then "-inf" else "inf"
  | notANumber => "nan"

end Numeral

end KnotSpline
