import KnotSpline.Decimal.Reading
import KnotSpline.Fault
import KnotSpline.Scalar

/-! Dynamic values read as scalars and as arrays of scalars. -/

namespace KnotSpline.Value

variable {α : Type} [Scalar α]

def ofInt (z : Int) : Except (Fault α) α :=
  match Scalar.ofInt? z with
  | some x => pure x
  | none => throw .outOfRange

/-- A single value as an array entry: null is no number, texts are read. -/
def toScalar : Value α → Except (Fault α) α
  | null => pure (Scalar.ofNumeral .notANumber)
  | bool b => pure (Scalar.ofBool b)
  | int z => ofInt z
  | real x => pure x
  | text s =>
    match s.chars?.bind Numeral.ofChars? with
    | some n => pure (Scalar.ofNumeral n)
    | none => throw .unusable
  | list _ => throw .unusable
  | _ => throw .wrongKind

mutual

def shape? : Value α → Option (List Nat)
  | list [] => some [0]
  | list (x :: xs) =>
    (shape? x).bind fun s => if allShaped s xs then some ((xs.length + 1) :: s) else none
  | array a => some a.shape
  | _ => some []

def allShaped (s : List Nat) : List (Value α) → Bool
  | [] => true
  | x :: xs => shape? x == some s && allShaped s xs

end

mutual

def leaves : Value α → List (Value α)
  | list xs => leavesOf xs
  | array a => a.entries.map real
  | v => [v]

def leavesOf : List (Value α) → List (Value α)
  | [] => []
  | x :: xs => leaves x ++ leavesOf xs

end

/-- Arrays have at most this many axes. -/
def maxAxes : Nat := 64

def toArray (v : Value α) : Except (Fault α) (NumArray α) :=
  match v.shape? with
  | none => throw .unusable
  | some shape => do
    if maxAxes < shape.length then throw .unusable
    let entries ← v.leaves.mapM toScalar
    pure (.shaped shape entries)

def toNumber : Value α → Except (Fault α) α
  | bool b => pure (Scalar.ofBool b)
  | int z => ofInt z
  | real x => pure x
  | _ => throw .wrongKind

def isTrue : Value α → Bool
  | null => false
  | bool b => b
  | int z => z != 0
  | real x => !Scalar.isZero x
  | text s => !s.isEmpty
  | list xs => !xs.isEmpty
  | record fields => !fields.isEmpty
  | _ => true

def toSize : Value α → Except (Fault α) Nat
  | int z => if z < 0 then throw .unusable else pure z.toNat
  | _ => throw .wrongKind

/-- Differences of whole numbers are exact, all others are taken between scalars. -/
def sub (a b : Value α) : Except (Fault α) (Value α) :=
  match a.int?, b.int? with
  | some m, some n => pure (int (m - n))
  | _, _ =>
    match a, b with
    | real x, _ => do pure (real (x - (← b.toNumber)))
    | _, real y => do pure (real ((← a.toNumber) - y))
    | _, _ => throw .wrongKind

end KnotSpline.Value
