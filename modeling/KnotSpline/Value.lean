import KnotSpline.NumArray
import KnotSpline.Scalar
import KnotSpline.Text

/-! Dynamic values: what callers may pass as an argument, and what a problem may carry as
metadata. -/

namespace KnotSpline

inductive Key (α : Type) where
  | null
  | bool (b : Bool)
  | int (z : Int)
  | real (x : α)
  | text (s : Text)

namespace Key

variable {α : Type} [Scalar α]

/-- The whole number that a key stands for; truth values count as 1 and 0. -/
def whole? : Key α → Option Int
  | bool b => some (if b then 1 else 0)
  | int z => some z
  | real x => Scalar.toInt? x
  | _ => none

/-- Whether two keys know the same field. Numbers do when they are equal, of whatever kind they
are; what is no number is equal to nothing. -/
def same (a b : Key α) : Bool :=
  match a, b with
  | null, null => true
  | text s, text t => s == t
  | real x, real y => decide (x ≤ y) && decide (y ≤ x)
  | a, b => a.whole?.isSome && a.whole? == b.whole?

end Key

inductive Value (α : Type) where
  | null
  | bool (b : Bool)
  | int (z : Int)
  | real (x : α)
  | text (s : Text)
  | list (xs : List (Value α))
  | record (fields : List (Key α × Value α))
  | array (a : NumArray α)
  /-- Another problem, by its place in the store. -/
  | problem (id : Nat)
  /-- An object of the caller about which nothing is known. -/
  | foreign

/-- Fields in the order in which their keys were first set. -/
abbrev Record (α : Type) := List (Key α × Value α)

namespace Record

variable {α : Type} [Scalar α]

def get? (r : Record α) (key : Key α) : Option (Value α) :=
  (r.find? fun field => field.1.same key).map (·.2)

def set : Record α → Key α → Value α → Record α
  | [], key, v => [(key, v)]
  | field :: r, key, v =>
    if field.1.same key then (field.1, v) :: r else field :: set r key v

end Record

namespace Value

variable {α : Type}

instance : Inhabited (Value α) := ⟨null⟩

def int? : Value α → Option Int
  | int z => some z
  | bool b => some (if b then 1 else 0)
  | _ => none

end Value

end KnotSpline
