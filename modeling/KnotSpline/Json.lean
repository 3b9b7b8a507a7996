import KnotSpline.Text

/-! Trees of JSON values. Whole numbers are kept apart from all other numbers. -/

namespace KnotSpline

inductive Json (α : Type) where
  | null
  | bool (b : Bool)
  | int (z : Int)
  | real (x : α)
  | text (s : Text)
  | list (xs : List (Json α))
  | record (fields : List (Text × Json α))

namespace Json

variable {α : Type}

instance : Inhabited (Json α) := ⟨null⟩

/-- Adds a field. The last of equal names counts, at the place of the first. -/
def setField : List (Text × Json α) → Text → Json α → List (Text × Json α)
  | [], name, v => [(name, v)]
  | field :: fields, name, v =>
    if field.1 == name then (name, v) :: fields else field :: setField fields name v

/-- Whole numbers may have this many digits. -/
def maxDigits : Nat := 4300

end Json

end KnotSpline
