import KnotSpline.Fault
import KnotSpline.Json
import KnotSpline.Value.Text

/-! JSON as values, and the names that keys get in JSON. -/

namespace KnotSpline

variable {α : Type}

namespace Json

mutual

def toValue : Json α → Value α
  | null => .null
  | bool b => .bool b
  | int z => .int z
  | real x => .real x
  | text s => .text s
  | list xs => .list (toValues xs)
  | record fields => .record (toFields fields)

def toValues : List (Json α) → List (Value α)
  | [] => []
  | x :: xs => toValue x :: toValues xs

def toFields : List (Text × Json α) → Record α
  | [] => []
  | (name, v) :: fields => (.text name, toValue v) :: toFields fields

end

def isShort (z : Int) : Bool :=
  decide (z.natAbs < Nat.pow 10 maxDigits)

end Json

variable [Scalar α]

namespace Key

def name : Key α → Text
  | null => "null"
  | bool b => if b then "true" else "false"
  | int z => toString z
  | real x =>
    match Scalar.toNumeral x with
    | .notANumber => "NaN"
    | .infinite negative => if negative then "-Infinity" else "Infinity"
    | n => n.text
  | text s => s

def toJsonName (key : Key α) : Except (Fault α) Text :=
  match key with
  | int z => if Json.isShort z then pure key.name else throw .unusable
  | _ => pure key.name

end Key

end KnotSpline
