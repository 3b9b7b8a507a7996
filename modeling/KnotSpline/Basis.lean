import KnotSpline.Value.Numeric

/-! The monomial basis and its derivatives: the row that maps the coefficients of a polynomial to
one of its derivatives at a time. -/

namespace KnotSpline

variable {α : Type} [Scalar α]

def fallingFactor : Nat → Nat → α
  | 0, _ => 1
  | d + 1, j => if j ≤ d then 0 else Scalar.natCast (j - d) * fallingFactor d j

def derivativeRow (n d : Nat) : List α :=
  (List.range n).map (fallingFactor d)

def derivativeMatrix (n : Nat) : List (List α) :=
  (List.range n).map (derivativeRow n)

inductive Time (α : Type) where
  | whole (z : Int)
  /-- A scalar from the caller, whose powers have to stay finite. -/
  | given (x : α)
  /-- A scalar from an array, whose powers may become infinite. -/
  | stored (x : α)
  /-- A value without powers. -/
  | other

namespace Time

def ofValue : Value α → Time α
  | .real x => given x
  | v =>
    match v.int? with
    | some z => whole z
    | none => other

def power (t : Time α) (n : Nat) : Except (Fault α) α :=
  match t with
  | whole z => Value.ofInt (Int.pow z n)
  | given x =>
    let y := Scalar.pow x n
    if Scalar.isFinite x && !Scalar.isFinite y then throw .outOfRange else pure y
  | stored x => pure (Scalar.pow x n)
  | other => throw .wrongKind

/-- The time as a scalar; whole numbers have to fit a machine word. -/
def toScalar : Time α → Except (Fault α) α
  | whole z =>
    if -0x8000000000000000 ≤ z ∧ z < 0x10000000000000000 then Value.ofInt z else throw .wrongKind
  | given x => pure x
  | stored x => pure x
  | other => throw .wrongKind

end Time

def timeVector (n : Nat) (t : Time α) (d : Nat) : Except (Fault α) (List α) :=
  (List.range n).mapM fun j =>
    if j < d then pure 0 else if j = d then pure 1 else t.power (j - d)

/-- The time vector for any whole order. A negative order raises all powers, as far as it names a
place of the vector from its end. -/
def timeVectorFrom (n : Nat) (t : Time α) (d : Int) : Except (Fault α) (List α) :=
  if 0 ≤ d then timeVector n t d.toNat
  else if d < -n then throw .indexOutside
  else (List.range n).mapM fun j => t.power (j + d.natAbs)

def evaluationVector (n : Nat) (t : Time α) (d : Nat) : Except (Fault α) (List α) :=
  if n ≤ d then pure (List.replicate n 0)
  else do pure (List.zipWith (· * ·) (derivativeRow n d) (← timeVector n t d))

end KnotSpline
