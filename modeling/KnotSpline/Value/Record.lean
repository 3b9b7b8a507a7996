import KnotSpline.Fault

/-! Records from other values: a record stays as it is, a list may give the fields as pairs. -/

namespace KnotSpline.Value

variable {α : Type} [Scalar α]

def toKey : Value α → Except (Fault α) (Key α)
  | null => pure .null
  | bool b => pure (.bool b)
  | int z => pure (.int z)
  | real x => pure (.real x)
  | text s => pure (.text s)
  | _ => throw .wrongKind

def ofKey : Key α → Value α
  | .null => null
  | .bool b => bool b
  | .int z => int z
  | .real x => real x
  | .text s => text s

/-- A pair is a list of two values, a text of two code points or a record of two fields, of which
the keys count. -/
def pair : Value α → Except (Fault α) (Value α × Value α)
  | list [a, b] => pure (a, b)
  | list _ => throw .unusable
  | record [(a, _), (b, _)] => pure (ofKey a, ofKey b)
  | record _ => throw .unusable
  | text ⟨[a, b]⟩ => pure (text ⟨[a]⟩, text ⟨[b]⟩)
  | text _ => throw .unusable
  | _ => throw .wrongKind

def addPair (r : Record α) (v : Value α) : Except (Fault α) (Record α) := do
  let (key, content) ← v.pair
  pure (r.set (← key.toKey) content)

def fields : Value α → Except (Fault α) (Record α)
  | record fields => pure fields
  | _ => throw .wrongKind

def toRecord : Value α → Except (Fault α) (Record α)
  | record fields => pure fields
  | list xs => xs.foldlM addPair []
  | text s => if s.isEmpty then pure [] else throw .unusable
  | _ => throw .wrongKind

end KnotSpline.Value
