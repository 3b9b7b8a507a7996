import KnotSpline.Table
import KnotSpline.Value.Numeric

/-! Polynomials in powers of the distance from a center, with one or many outputs: evaluation,
derivatives and moving the center. -/

namespace KnotSpline

namespace Taylor

/-! Coefficients of one output, in increasing powers. -/

variable {α : Type} [Scalar α]

def horner (delta : α) : List α → α
  | [] => 0
  | [c] => c
  | c :: cs => c + horner delta cs * delta

def raise (delta c : α) : List α → List α
  | [] => [c]
  | q :: qs => (c + delta * q) :: raise delta q qs

def recenter (delta : α) (cs : List α) : List α :=
  cs.foldr (raise delta) []

/-- A constant becomes zero and stays one coefficient. -/
def differentiate : List α → List α
  | [] => []
  | [_] => [0]
  | _ :: cs => cs.mapIdx fun k c => c * Scalar.natCast (k + 1)

/-- After as many steps as there are coefficients nothing changes any more. -/
def derivative (n : Nat) (cs : List α) : List α :=
  (List.range (min n cs.length)).foldl (fun cs _ => differentiate cs) cs

end Taylor

inductive Coefficients (α : Type) where
  | single (x : α)
  | powers (length : Nat) (axes : List Nat) (outputs : List (List α))

structure Polynomial (α : Type) where
  order : Value α
  coefficients : Coefficients α
  center : Value α

namespace Coefficients

variable {α : Type} [Scalar α]

def ofArray (a : NumArray α) : Coefficients α :=
  match a.shape with
  | [] => single (a.entries.headD 0)
  | n :: axes =>
    let width := NumArray.size axes
    powers n axes (Table.columns width (NumArray.pieces width n a.entries))

def toArray : Coefficients α → NumArray α
  | single x => .scalar x
  | powers n axes outputs => .shaped (n :: axes) (Table.columns n outputs).flatten

end Coefficients

namespace Polynomial

variable {α : Type} [Scalar α]

def isPositive : Value α → Except (Fault α) Bool
  | .real x => pure (decide (0 < x))
  | v =>
    match v.int? with
    | some z => pure (decide (0 < z))
    | none => throw .wrongKind

def length : Value α → Except (Fault α) Nat
  | .list xs => pure xs.length
  | .text s => pure s.length
  | .record fields => pure fields.length
  | .array ⟨n :: _, _, _⟩ => pure n
  | _ => throw .wrongKind

def isLength (n : Nat) : Value α → Bool
  | .real x => decide (x ≤ Scalar.natCast n) && decide (Scalar.natCast n ≤ x)
  | v => v.int? == some n

def create (order coefficients center : Value α) : Except (Fault α) (Polynomial α) := do
  if !(← isPositive order) then throw .orderNotPositive
  if !isLength (← length coefficients) order then throw .coefficientsNotOrder
  let a ← coefficients.toArray
  pure ⟨order, .ofArray a, center⟩

def evaluate (f : Polynomial α) (x : Value α) : Except (Fault α) (NumArray α) := do
  let delta ← x.sub f.center
  match f.order.int?, f.coefficients with
  | some _, .powers n axes outputs =>
    let d ← if n ≤ 1 then pure 0 else delta.toNumber
    pure (.shaped axes (outputs.map (Taylor.horner d)))
  | _, _ => throw .indexOutside

/-- The derivative with the same center; its order does not drop below one. -/
def derivative (f : Polynomial α) (count : Value α) : Except (Fault α) (Polynomial α) :=
  match count with
  | .real x => if 0 ≤ x then throw .wrongKind else throw .negativeCount
  | v =>
    match v.int?, f.coefficients with
    | none, _ => throw .wrongKind
    | some z, c =>
      if z < 0 then throw .negativeCount
      else
        match c with
        | .single _ => throw .wrongKind
        | .powers n axes outputs =>
          let order := max (n - z.toNat) 1
          pure ⟨.int order, .powers order axes (outputs.map (Taylor.derivative z.toNat)), f.center⟩

/-- Moves the center. Steps of at most `Scalar.epsilon` leave the coefficients alone. -/
def shift (f : Polynomial α) (center : Value α) : Except (Fault α) (Polynomial α) := do
  let d ← (← center.sub f.center).toNumber
  if Scalar.epsilon < Scalar.abs d then
    match f.order.int?, f.coefficients with
    | none, _ => throw .wrongKind
    | some z, .single _ => if z ≤ 1 then pure { f with center } else throw .indexOutside
    | some _, .powers n axes outputs =>
      pure { f with coefficients := .powers n axes (outputs.map (Taylor.recenter d)), center }
  else pure { f with center }

end Polynomial

end KnotSpline
