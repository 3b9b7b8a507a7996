import KnotSpline.Problem
import KnotSpline.Reflection

/-! The rank test: how many diagonal entries of the triangular factor exceed the tolerance. A
tolerance is one number for all entries, or a list with one for each. -/

namespace KnotSpline

variable {α : Type} [Scalar α]

namespace Value

def isText : Value α → Bool
  | text _ => true
  | _ => false

def isNumber : Value α → Bool
  | bool _ | int _ | real _ => true
  | _ => false

/-- A tolerance from a list. Whole numbers beyond the range of scalars count as infinite. -/
def toBound : Value α → Except (Fault α) α
  | int z => pure ((Scalar.ofInt? z).getD (Scalar.ofNumeral (.infinite (decide (z < 0)))))
  | v => v.toNumber

end Value

def stretch {β : Type} (n : Nat) : List β → List β
  | [x] => List.replicate n x
  | xs => xs

namespace Step

/-- How many diagonal entries exceed the tolerances at their places. One tolerance serves all
entries, and one entry is held against all tolerances. -/
def rankAgainst (steps : List (Step α)) (tolerances : List (Value α)) : Except (Fault α) Nat := do
  let entries := stretch tolerances.length (steps.map fun s => Scalar.abs s.diagonal)
  let tolerances := stretch steps.length tolerances
  if entries.length ≠ tolerances.length then throw .unusable
  let bounds ← tolerances.mapM Value.toBound
  pure ((bounds.zip entries).countP fun (b, x) => decide (b < x))

/-- Nested lists of tolerances are held against the diagonal along their last axis, and all entries
that exceed one are counted. -/
def rankAlong (steps : List (Step α)) (tolerances : Value α) : Except (Fault α) Nat :=
  match tolerances.shape? with
  | none => throw .unusable
  | some shape => do
    if Value.maxAxes < shape.length then throw .unusable
    let leaves := tolerances.leaves
    if leaves.any Value.isText && leaves.all fun v => v.isText || v.isNumber then
      throw .incomparable
    let rows := NumArray.pieces (shape.getLastD 1) (NumArray.size shape.dropLast) leaves
    pure ((← rows.mapM (rankAgainst steps)).foldr (· + ·) 0)

end Step

namespace Problem

/-- The tolerance when none has been set: relative to the first diagonal entry, which is the largest
one. -/
def defaultTolerance (p : Problem α) (steps : List (Step α)) : α :=
  let first := (steps.head?.map Step.diagonal).getD 0
  Scalar.natCast p.dimension * Scalar.epsilon * Scalar.abs first

def rank (p : Problem α) (steps : List (Step α)) : Except (Fault α) Nat :=
  match p.rankTolerance with
  | .null => pure (Step.rank (p.defaultTolerance steps) steps)
  | .list xs => Step.rankAlong steps (.list xs)
  | .text _ => throw .incomparable
  | v => do pure (Step.rank (← v.toNumber) steps)

end Problem

end KnotSpline
