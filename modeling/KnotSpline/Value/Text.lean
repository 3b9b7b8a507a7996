import KnotSpline.Decimal.Text
import KnotSpline.Text.Hex
import KnotSpline.Text.Printable
import KnotSpline.Value

/-! Values as they appear in messages. -/

namespace KnotSpline

namespace Text

def escapeNumber (n : Nat) : List Char :=
  if n < 0x100 then '\\' :: 'x' :: hex 2 n
  else if n < 0x10000 then '\\' :: 'u' :: hex 4 n
  else '\\' :: 'U' :: hex 8 n

def escaped (quote : Char) : CodePoint → List Char
  | .char c =>
    if c = quote ∨ c = '\\' then ['\\', c]
    else if c = '\n' then ['\\', 'n']
    else if c = '\r' then ['\\', 'r']
    else if c = '\t' then ['\\', 't']
    else if isPrintable c then [c]
    else escapeNumber c.toNat
  | p => escapeNumber p.toNat

/-- Single quotes, unless the text holds single quotes only. -/
def quoted (t : Text) : String :=
  let holds (c : Char) := t.points.contains (.char c)
  let quote := if holds '\'' && !holds '"' then '"' else '\''
  String.ofList (quote :: t.points.flatMap (escaped quote) ++ [quote])

end Text

def Scalar.text {α : Type} [Scalar α] (x : α) : String :=
  (Scalar.toNumeral x).text

def shapeText : List Nat → String
  | [] => "()"
  | [n] => "(" ++ toString n ++ ",)"
  | ns => "(" ++ ", ".intercalate (ns.map toString) ++ ")"

variable {α : Type} [Scalar α]

def Key.innerText : Key α → String
  | null => "None"
  | bool b => if b then "True" else "False"
  | int z => toString z
  | real x => Scalar.text x
  | text s => s.quoted

namespace Value

mutual

def innerText : Value α → String
  | null => Key.innerText (.null : Key α)
  | bool b => Key.innerText (.bool b : Key α)
  | int z => Key.innerText (.int z : Key α)
  | real x => Key.innerText (.real x)
  | text s => Key.innerText (.text s : Key α)
  | list xs => "[" ++ ", ".intercalate (itemTexts xs) ++ "]"
  | record fields => "\x7b" ++ ", ".intercalate (fieldTexts fields) ++ "\x7d"
  | array a => "array" ++ shapeText a.shape
  | problem _ => "problem"
  | foreign => "object"

def itemTexts : List (Value α) → List String
  | [] => []
  | x :: xs => innerText x :: itemTexts xs

def fieldTexts : Record α → List String
  | [] => []
  | (key, v) :: rest => (key.innerText ++ ": " ++ innerText v) :: fieldTexts rest

end

def display : Value α → Text
  | text s => s
  | v => v.innerText

end Value

end KnotSpline
