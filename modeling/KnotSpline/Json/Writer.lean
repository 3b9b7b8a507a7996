import KnotSpline.Decimal.Text
import KnotSpline.Json
import KnotSpline.Json.Quoted

/-! The layout of JSON that is written with each element on a line of its own. -/

namespace KnotSpline.Json

def writeNumeral : Numeral → List Char
  | .notANumber => "NaN".toList
  | .infinite negative => (if negative then "-Infinity" else "Infinity").toList
  | n => n.text.toList

def newLine (level : Nat) : List Char :=
  '\n' :: List.replicate (4 * level) ' '

end KnotSpline.Json
