import KnotSpline.NumArray.Extent
import KnotSpline.Value.Numeric
import KnotSpline.Value.Record

/-! Spline problems: knot times, the number of coefficients of each segment, the number of outputs,
and the system of equations or the solution that has been reached. -/

namespace KnotSpline

structure Equation (α : Type) where
  left : List α
  right : List α

/-- The coefficients of each segment: for each output those of the powers of absolute time. -/
abbrev Solution (α : Type) := List (List (List α))

inductive Phase (α : Type) where
  | building (system : List (Equation α))
  | fitted (system : List (Equation α)) (solution : Solution α)
  /-- A solution from elsewhere, without a system. -/
  | loaded (solution : Solution α)

namespace Phase

variable {α : Type}

def system? : Phase α → Option (List (Equation α))
  | building system => some system
  | fitted system _ => some system
  | loaded _ => none

def solution? : Phase α → Option (Solution α)
  | building _ => none
  | fitted _ solution => some solution
  | loaded solution => some solution

end Phase

structure Problem (α : Type) where
  times : List α
  coefficientCount : Nat
  outputCount : Nat
  rowIndex : Int
  phase : Phase α
  /-- Diagonal entries up to this size count as zero; null stands for a size that follows from the
  largest entry. -/
  rankTolerance : Value α
  metadata : Record α

namespace Problem

variable {α : Type}

def knotCount (p : Problem α) : Nat :=
  p.times.length

def segmentCount (p : Problem α) : Nat :=
  p.knotCount - 1

def dimension (p : Problem α) : Nat :=
  p.segmentCount * p.coefficientCount

def isFitted (p : Problem α) : Bool :=
  p.phase.solution?.isSome

def solution (p : Problem α) : Except (Fault α) (Solution α) :=
  match p.phase.solution? with
  | some x => pure x
  | none => throw .notFitted

def leftRows? (p : Problem α) : Option (List (List α)) :=
  p.phase.system?.map fun system => system.map Equation.left

def rightRows? (p : Problem α) : Option (List (List α)) :=
  p.phase.system?.map fun system => system.map Equation.right

def extent (rows : List (List α)) : Nat × Nat :=
  (rows.length, (rows.head?.map List.length).getD 0)

def summary (p : Problem α) : String :=
  "SplineProblem: nKnots = " ++ toString p.knotCount ++
    ", nSegments = " ++ toString p.segmentCount ++
    ", nCoef = " ++ toString p.coefficientCount ++
    ", nDep = " ++ toString p.outputCount ++
    ", dimension = " ++ toString p.dimension

variable [Scalar α]

def differences (xs : List α) : List α :=
  List.zipWith (fun a b => b - a) xs xs.tail

def durations (p : Problem α) : List α :=
  differences p.times

def knotTimes (times : Value α) : Except (Fault α) (List α) := do
  let array ← times.toArray
  if array.shape.length ≠ 1 then throw (.invalidInput .timesNotFlat)
  let xs := array.entries
  if xs.length < 2 then throw (.invalidInput .tooFewTimes)
  if !xs.all Scalar.isFinite then throw (.invalidInput .timesNotFinite)
  if !(differences xs).all fun d => decide (0 < d) then throw (.invalidInput .timesNotIncreasing)
  pure xs

def count (least : Int) (cause : InvalidInput α) (v : Value α) : Except (Fault α) Nat :=
  match v.int? with
  | some z => if least ≤ z then pure z.toNat else throw (.invalidInput cause)
  | none => throw (.invalidInput cause)

def emptySystem (dimension outputs : Nat) : List (Equation α) :=
  List.replicate dimension ⟨List.replicate dimension 0, List.replicate outputs 0⟩

/-- The factors of all orders, and both sides of the system, have to fit. -/
def checkExtents (coefficients dimension outputs : Nat) : Except (Fault α) Unit := do
  NumArray.checkShape [coefficients, coefficients]
  NumArray.checkShape [dimension, dimension]
  NumArray.checkShape [dimension, outputs]

def create (times coefficientCount outputCount metadata : Value α) :
    Except (Fault α) (Problem α) := do
  let knots ← knotTimes times
  let coefficients ← count 1 .coefficientCount coefficientCount
  let outputs ← count 0 .outputCount outputCount
  checkExtents coefficients ((knots.length - 1) * coefficients) outputs
  let fields ← metadata.toRecord
  pure
    { times := knots
      coefficientCount := coefficients
      outputCount := outputs
      rowIndex := 0
      phase := .building (emptySystem ((knots.length - 1) * coefficients) outputs)
      rankTolerance := .null
      metadata := fields }

end Problem

end KnotSpline
