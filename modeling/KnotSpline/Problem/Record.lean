import KnotSpline.Problem

/-! Fitted problems as records of their data, and problems from such records. -/

namespace KnotSpline.Problem

variable {α : Type}

def recordType : String := "SplineProblem"

def solutionArray (p : Problem α) (solution : Solution α) : NumArray α :=
  .shaped [p.segmentCount, p.outputCount, p.coefficientCount] solution.flatten.flatten

def toRecord (p : Problem α) : Except (Fault α) (Record α) :=
  match p.phase.solution? with
  | none => throw .notFittedToWrite
  | some solution =>
    pure
      [(.text "type", .text recordType), (.text "times", .array (.vector p.times)),
        (.text "nCoef", .int p.coefficientCount), (.text "nDep", .int p.outputCount),
        (.text "solution", .array (p.solutionArray solution)),
        (.text "metadata", .record p.metadata)]

variable [Scalar α]

def field (r : Record α) (name : String) : Except (Fault α) (Value α) :=
  match r.get? (.text name) with
  | some v => pure v
  | none => throw (.missingField name)

def openRecord (r : Record α) : Except (Fault α) (Problem α) := do
  let times ← field r "times"
  let coefficientCount ← field r "nCoef"
  let outputCount ← field r "nDep"
  create times coefficientCount outputCount ((r.get? (.text "metadata")).getD (.record []))

def solutionOf (p : Problem α) (a : NumArray α) : Except (Fault α) (Solution α) :=
  if a.entries.length = p.segmentCount * p.outputCount * p.coefficientCount then
    pure ((NumArray.pieces (p.outputCount * p.coefficientCount) p.segmentCount a.entries).map
      (NumArray.pieces p.coefficientCount p.outputCount))
  else throw .unusable

def loadSolution (p : Problem α) (r : Record α) : Except (Fault α) (Problem α) := do
  let solution ← p.solutionOf (← (← field r "solution").toArray)
  pure { p with phase := .loaded solution, rowIndex := p.dimension }

def ofRecord (r : Record α) : Except (Fault α) (Problem α) := do
  (← openRecord r).loadSolution r

end KnotSpline.Problem
