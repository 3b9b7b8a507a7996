import KnotSpline.Basis
import KnotSpline.Problem

/-! Constraints at knots and the rows they add to the linear system. -/

namespace KnotSpline

inductive Request (α : Type) where
  | constant (knot order value : Value α)
  | continuity (knot order : Value α)

inductive Constraint (α : Type) where
  | constant (knot order : Nat) (target : List α)
  | continuity (knot order : Nat)

structure Row (α : Type) where
  blocks : List (Nat × List α)
  right : List α

namespace Row

variable {α : Type}

def overwrite (start : Nat) (block xs : List α) : List α :=
  xs.take start ++ block ++ xs.drop (start + block.length)

theorem length_overwrite {start : Nat} {block xs : List α} (h : start + block.length ≤ xs.length) :
    (overwrite start block xs).length = xs.length := by
  simp [overwrite]
  omega

def fill (width : Nat) (row : Row α) (e : Equation α) : Equation α :=
  ⟨row.blocks.foldl (fun xs b => overwrite (b.1 * width) b.2 xs) e.left, row.right⟩

/-- A place in a list of length `n`; negative places count from the end. -/
def place? (n : Nat) (z : Int) : Option Nat :=
  let i := if z < 0 then z + n else z
  if 0 ≤ i ∧ i < n then some i.toNat else none

def fillAll (width : Nat) (system : List (Equation α)) (start : Int) :
    List (Row α) → Except (Fault α) (List (Equation α))
  | [] => pure system
  | row :: rows =>
    match place? system.length start with
    | some i => fillAll width (system.modify i (fill width row)) (start + 1) rows
    | none => throw .indexOutside

end Row

namespace Problem

variable {α : Type} [Scalar α]

def adjoining (p : Problem α) (knot : Nat) : List Nat :=
  (if 0 < knot then [knot - 1] else []) ++ (if knot + 1 < p.knotCount then [knot] else [])

def checkBuilding (p : Problem α) : Except (Fault α) Unit :=
  if p.isFitted then throw .alreadyFitted else pure ()

def checkKnot (p : Problem α) (knot : Value α) : Except (Fault α) Nat :=
  match knot.int? with
  | some z =>
    if 0 ≤ z ∧ z < p.knotCount then pure z.toNat
    else throw (.invalidInput (.knotOutside knot p.knotCount))
  | none => throw (.invalidInput (.knotOutside knot p.knotCount))

def checkOrder (p : Problem α) (order : Value α) : Except (Fault α) Nat :=
  match order.int? with
  | some z =>
    if 0 ≤ z ∧ z < p.coefficientCount then pure z.toNat
    else throw (.invalidInput (.orderOutside order p.coefficientCount))
  | none => throw (.invalidInput (.orderOutside order p.coefficientCount))

def checkRows (p : Problem α) (rows : Nat) : Except (Fault α) Unit :=
  if p.dimension < p.rowIndex + rows then throw (.overdetermined (p.rowIndex + rows) p.dimension)
  else pure ()

/-- A truth value for a knot selects all times at once, which have no powers. -/
def checkSelection (p : Problem α) (knot : Value α) (order : Nat) : Except (Fault α) Unit :=
  match knot with
  | .bool _ => if order + 2 ≤ p.coefficientCount then throw .unusable else pure ()
  | _ => pure ()

/-- All arguments are checked before anything is written. -/
def resolve (p : Problem α) : Request α → Except (Fault α) (Constraint α)
  | .constant knot order value => do
    p.checkBuilding
    let k ← p.checkKnot knot
    let d ← p.checkOrder order
    let target := (← value.toArray).atLeastVector
    if target.shape ≠ [p.outputCount] then
      throw (.invalidInput (.valueShape target.shape p.outputCount))
    p.checkRows (p.adjoining k).length
    p.checkSelection knot d
    pure (.constant k d target.entries)
  | .continuity knot order => do
    p.checkBuilding
    let k ← p.checkKnot knot
    if k = 0 ∨ k + 1 = p.knotCount then throw (.invalidInput (.endKnot knot))
    let d ← p.checkOrder order
    p.checkRows 1
    p.checkSelection knot d
    pure (.continuity k d)

def knotVector (p : Problem α) (knot order : Nat) : Except (Fault α) (List α) :=
  evaluationVector p.coefficientCount (.stored (p.times.getD knot 0)) order

/-- A constant adds a row for each adjoining segment, continuity one row for the difference of the
segments before and after the knot. -/
def rowsOf (p : Problem α) : Constraint α → Except (Fault α) (List (Row α))
  | .constant knot order target => do
    let v ← p.knotVector knot order
    pure ((p.adjoining knot).map fun segment => ⟨[(segment, v)], target⟩)
  | .continuity knot order => do
    let v ← p.knotVector knot order
    pure [⟨[(knot - 1, v), (knot, v.map (- ·))], List.replicate p.outputCount 0⟩]

def register (p : Problem α) (c : Constraint α) : Except (Fault α) (Problem α) :=
  match p.phase with
  | .building system => do
    let rows ← p.rowsOf c
    let system ← Row.fillAll p.coefficientCount system p.rowIndex rows
    pure { p with phase := .building system, rowIndex := p.rowIndex + rows.length }
  | _ => throw .alreadyFitted

def constrain (p : Problem α) (r : Request α) : Except (Fault α) (Problem α) := do
  p.register (← p.resolve r)

end Problem

end KnotSpline
