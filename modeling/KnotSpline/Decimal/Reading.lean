import KnotSpline.Decimal
import KnotSpline.Text.Class

/-! Numbers written as text by hand: blanks around them, digits of any script, underscores between
digits, a point with digits on one side of it, an exponent, or a word for infinity or no number. -/

namespace KnotSpline.Numeral

open Text

def trimBlanks (cs : List Char) : List Char :=
  ((cs.dropWhile isBlank).reverse.dropWhile isBlank).reverse

def toAsciiDigit (c : Char) : Char :=
  match digit? c with
  | some d => Char.ofNat ('0'.toNat + d)
  | none => c

def dropUnderscores? : Option Char → List Char → Option (List Char)
  | _, [] => some []
  | before, c :: cs =>
    if c = '_' then
      if (before.bind asciiDigit?).isSome && (cs.head?.bind asciiDigit?).isSome then
        dropUnderscores? (some c) cs
      else none
    else (dropUnderscores? (some c) cs).map (c :: ·)

def splitSign : List Char → Bool × List Char
  | '-' :: cs => (true, cs)
  | '+' :: cs => (false, cs)
  | cs => (false, cs)

def exponent? : List Char → Option Int
  | [] => some 0
  | c :: cs =>
    if c = 'e' ∨ c = 'E' then
      let (negative, rest) := splitSign cs
      match spanDigits rest with
      | (d :: ds, []) =>
        let n : Int := Decimal.ofDigits (d :: ds)
        some (if negative then -n else n)
      | _ => none
    else none

def unsigned? (negative : Bool) (cs : List Char) : Option Numeral :=
  let (whole, rest) := spanDigits cs
  let (fraction, rest) :=
    match rest with
    | '.' :: rest => spanDigits rest
    | _ => ([], rest)
  if whole.isEmpty && fraction.isEmpty then none
  else (exponent? rest).map fun e => .finite (.ofParts negative whole fraction e)

def word? (negative : Bool) (cs : List Char) : Option Numeral :=
  let word := String.ofList (cs.map Char.toLower)
  if word = "inf" ∨ word = "infinity" then some (.infinite negative)
  else if word = "nan" then some .notANumber
  else none

def ofChars? (cs : List Char) : Option Numeral := do
  let cs ← dropUnderscores? none ((trimBlanks cs).map toAsciiDigit)
  let (negative, rest) := splitSign cs
  (word? negative rest).or (unsigned? negative rest)

end KnotSpline.Numeral
