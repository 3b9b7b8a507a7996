import KnotSpline.Problem.Rank
import KnotSpline.Table

/-! Solving the linear system for the coefficients of all segments. -/

namespace KnotSpline.Problem

variable {α : Type}

def fitNotice (p : Problem α) : String :=
  "fit: " ++ toString p.rowIndex ++ " rows for " ++ toString p.dimension ++ " unknowns"

def segmentBlocks (p : Problem α) (columns : List (List α)) : Solution α :=
  (List.range p.segmentCount).map fun i =>
    columns.map fun xs => (xs.drop (i * p.coefficientCount)).take p.coefficientCount

variable [Scalar α]

/-- Solves for the coefficients. One triangularization serves all outputs; without outputs there is
nothing to solve. -/
def fit (p : Problem α) : Except (Fault α) (Problem α) :=
  match p.phase.system? with
  | none => throw .noSystem
  | some system => do
    if p.rowIndex < p.dimension then throw (.underdetermined p.rowIndex p.dimension)
    if p.dimension < p.rowIndex then throw (.overdetermined p.rowIndex p.dimension)
    if !system.all fun e => e.left.all Scalar.isFinite then throw .unusable
    let steps := Step.factor p.dimension (Table.columns p.dimension (system.map Equation.left))
    let rank ← p.rank steps
    if rank < p.dimension then throw (.singular rank p.dimension)
    let targets := Table.columns p.outputCount (system.map Equation.right)
    let images := targets.map (Step.reflectInRange steps)
    if 0 < p.outputCount then
      if !system.all fun e => e.right.all Scalar.isFinite then throw .unusable
      if !Step.isFinite steps || !images.all fun b => b.all Scalar.isFinite then throw .unusable
      if steps.any fun s => Scalar.isZero s.diagonal then throw .zeroPivot
    pure { p with phase := .fitted system (p.segmentBlocks (images.map (Step.substitute steps))) }

end KnotSpline.Problem
