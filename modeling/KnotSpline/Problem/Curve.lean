import KnotSpline.Basis
import KnotSpline.Problem
import KnotSpline.Reflection

/-! The fitted curve: the segment that owns a time, and values and derivatives at one or many
times. -/

namespace KnotSpline.Problem

variable {α : Type} [Scalar α]

def bisect (xs : List α) (t : α) : Nat → Nat → Nat → Nat
  | 0, lo, _ => lo
  | fuel + 1, lo, hi =>
    if lo < hi then
      let mid := (lo + hi) / 2
      if t < xs.getD mid 0 then bisect xs t fuel lo mid else bisect xs t fuel (mid + 1) hi
    else lo

def countUpTo (xs : List α) (t : α) : Nat :=
  bisect xs t xs.length 0 xs.length

/-- The segment that owns a time; the first and the last one own all times outside the knots. -/
def segmentOf (p : Problem α) (t : α) : Nat :=
  if t ≤ p.times.headD 0 then 0
  else if p.times.getLastD 0 ≤ t then p.segmentCount - 1
  else countUpTo p.times t - 1

def segmentIndex (p : Problem α) (t : Time α) : Except (Fault α) Nat := do
  let x ← t.toScalar
  if Scalar.isNaN x then throw (.invalidInput .nanTime)
  pure (p.segmentOf x)

def naturalOrder (order : Value α) : Except (Fault α) Nat :=
  match order.int? with
  | some z => if 0 ≤ z then pure z.toNat else throw (.invalidInput (.orderNotNatural order))
  | none => throw (.invalidInput (.orderNotNatural order))

def evaluationVector (p : Problem α) (t : Time α) (order : Value α) :
    Except (Fault α) (List α) := do
  KnotSpline.evaluationVector p.coefficientCount t (← naturalOrder order)

def interpolate (p : Problem α) (t : Time α) (order : Value α) : Except (Fault α) (List α) := do
  let solution ← p.solution
  let v ← p.evaluationVector t order
  let i ← p.segmentIndex t
  pure ((solution.getD i []).map (dot v))

def sample (p : Problem α) (times order : Value α) : Except (Fault α) (List (List α)) := do
  let _ ← p.solution
  let _ ← naturalOrder order
  let ts := (← times.toArray).atLeastVector
  if ts.shape.length ≠ 1 then throw (.invalidInput (.sampleShape ts.shape))
  ts.entries.mapM fun t => p.interpolate (.stored t) order

end KnotSpline.Problem
