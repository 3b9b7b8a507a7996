import KnotSpline.Problem.Record
import KnotSpline.Store

/-! Problems of a store as JSON. A problem is written as its record, and so are the problems that
its metadata refers to. -/

namespace KnotSpline

variable {α : Type}

/-- The problems that something stands in that is written in the place of a value. Each problem may
be met once on the way from the first one. -/
def Value.enter (around : List Nat) : Value α → Except (Fault α) (List Nat)
  | .problem id => if around.contains id then throw .circular else pure (id :: around)
  | _ => pure around

namespace Store

def standIn (s : Store α) : Value α → Except (Fault α) (Value α)
  | .array a => pure (a.toNested .real .list)
  | .problem id =>
    match s.problem? id with
    | none => throw (.noSuchProblem id)
    | some p => do pure (.record (← p.toRecord))
  | _ => throw .wrongKind

variable [Scalar α]

/-- Writes a value that JSON does not know. The problems that one stands in are different ones, so
the number of problems is enough fuel. -/
def writeObject (s : Store α) : Nat → List Nat → Nat → Nat → Value α → Output α Unit
  | 0, _, _, _, _ => .ofExcept (throw .tooDeep)
  | fuel + 1, around, level, depth, v => do
    .ofExcept (s.host.stack.check around depth v)
    let inside ← .ofExcept (v.enter around)
    let w ← .ofExcept (s.standIn v)
    w.write (s.host.stack.check inside) (s.writeObject fuel inside) level (depth + 2) []

def encode (s : Store α) (id : Nat) : Output α Unit :=
  s.writeObject (s.entries.length + 1) [] 0 0 (.problem id)

end Store

end KnotSpline
