import KnotSpline.Fault

/-! Limits on the extents of arrays. -/

namespace KnotSpline.NumArray

variable {α : Type}

/-- Arrays take fewer bytes than this, eight for each entry; empty axes do not count. -/
def byteLimit : Nat := 0x8000000000000000

def entryLimit : Nat := 0x200000000

def checkShape (shape : List Nat) : Except (Fault α) Unit :=
  if byteLimit ≤ 8 * size (shape.filter (0 < ·)) then throw .unusable
  else if entryLimit < size shape then throw .noRoom
  else pure ()

theorem checkShape_eq_ok_iff {shape : List Nat} :
    checkShape shape = (.ok () : Except (Fault α) Unit) ↔
      8 * size (shape.filter (0 < ·)) < byteLimit ∧ size shape ≤ entryLimit := by
  unfold checkShape
  split
  · next h => simp [throw, throwThe, MonadExceptOf.throw, Nat.not_lt.2 h]
  · next h =>
    split
    · next hr => simp [throw, throwThe, MonadExceptOf.throw, Nat.not_le.2 hr]
    · next hr => simp [pure, Except.pure, Nat.not_le.1 h, Nat.not_lt.1 hr]

end KnotSpline.NumArray
