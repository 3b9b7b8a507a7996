import KnotSpline.Proofs.Reals
import KnotSpline.Double

/-! How scalars compare. Doubles are in the order of their exponents and significands, infinities
included; only what is no number stands outside of it. -/

namespace KnotSpline

class OrderedScalar (α : Type) [Scalar α] : Prop where
  isNaN_of_isFinite {x : α} : Scalar.isFinite x = true → Scalar.isNaN x = false
  lt_irrefl (x : α) : ¬x < x
  le_of_lt {x y : α} : x < y → x ≤ y
  lt_of_le_of_lt {x y z : α} : x ≤ y → y < z → x < z
  lt_of_lt_of_le {x y z : α} : x < y → y ≤ z → x < z
  le_of_not_lt {x y : α} : Scalar.isNaN x = false → Scalar.isNaN y = false → ¬x < y → y ≤ x

instance : OrderedScalar ℝ where
  isNaN_of_isFinite _ := rfl
  lt_irrefl := lt_irrefl
  le_of_lt := le_of_lt
  lt_of_le_of_lt := lt_of_le_of_lt
  lt_of_lt_of_le := lt_of_lt_of_le
  le_of_not_lt _ _ := le_of_not_gt

namespace OrderedScalar

variable {α : Type} [Scalar α] [OrderedScalar α] {x y z : α}

lemma lt_trans (h : x < y) (h' : y < z) : x < z :=
  lt_of_le_of_lt (le_of_lt h) h'

lemma le_refl (h : Scalar.isNaN x = false) : x ≤ x :=
  le_of_not_lt h h (lt_irrefl x)

lemma not_lt_of_le (h : x ≤ y) : ¬y < x :=
  fun h' => lt_irrefl x (lt_of_le_of_lt h h')

instance : @Trans α α α (· < ·) (· < ·) (· < ·) where
  trans := lt_trans

end OrderedScalar

namespace Double

open Float.Model (UnpackedFloat)

def place : UnpackedFloat → ℤ ×ₗ ℤ ×ₗ ℤ
  | .infinity .negative => toLex (-2, toLex (0, 0))
  | .finite .negative m e _ => toLex (-1, toLex (-e, -m))
  | .zero _ => toLex (0, toLex (0, 0))
  | .finite .positive m e _ => toLex (1, toLex (e, m))
  | .infinity .positive => toLex (2, toLex (0, 0))
  | .notANumber => toLex (3, toLex (0, 0))

lemma compare_eq {x y : UnpackedFloat} (hx : x ≠ .notANumber) (hy : y ≠ .notANumber) :
    x.compare y = some (compare (place x) (place y)) := by
  have hneg : ∀ a b : ℤ, compare (-a) (-b) = compare b a := fun a b => by
    simp [compare, compareOfLessAndEq, eq_comm]
  have hcast : ∀ m n : ℕ, compare (m : ℤ) n = compare m n := fun m n => by
    simp [compare, compareOfLessAndEq]
  rcases x with (_ | _) | _ | _ | ⟨_ | _, m, e, hm⟩ <;>
    rcases y with (_ | _) | _ | _ | ⟨_ | _, n, f, hn⟩ <;>
    first
    | exact absurd rfl hx
    | exact absurd rfl hy
    | rfl
    | skip
  -- what is left are two finite numbers of one sign
  · change some _ = some ((compare (-e) (-f)).then (compare (-m : ℤ) (-n)))
    rw [hneg, hneg, hcast, Ordering.swap_then, ← Std.OrientedOrd.eq_swap,
      ← Std.OrientedOrd.eq_swap]
  · change some _ = some ((compare e f).then (compare (m : ℤ) n))
    rw [hcast]

lemma lt_iff_place_lt {x y : UnpackedFloat} (hx : x ≠ .notANumber) (hy : y ≠ .notANumber) :
    x.lt y = true ↔ place x < place y := by
  rw [UnpackedFloat.lt, compare_eq hx hy, ← compare_lt_iff_lt]
  simp

lemma le_iff_place_le {x y : UnpackedFloat} (hx : x ≠ .notANumber) (hy : y ≠ .notANumber) :
    x.le y = true ↔ place x ≤ place y := by
  rw [UnpackedFloat.le, compare_eq hx hy, ← compare_le_iff_le]
  cases compare (place x) (place y) <;> simp

lemma ne_of_compare_ne {x y : UnpackedFloat} (h : x.compare y ≠ none) :
    x ≠ .notANumber ∧ y ≠ .notANumber := by
  refine ⟨?_, ?_⟩
  · rintro rfl
    exact h rfl
  · rintro rfl
    cases x <;> exact h rfl

lemma isNaN_eq_false_iff {x : Float} : x.isNaN = false ↔ x.toModel.unpack ≠ .notANumber := by
  change x.toModel.unpack.isNaN = false ↔ _
  cases x.toModel.unpack <;> simp [UnpackedFloat.isNaN]

lemma lt_iff {x y : Float} : x < y ↔ x.toModel.unpack ≠ .notANumber ∧
    y.toModel.unpack ≠ .notANumber ∧ place x.toModel.unpack < place y.toModel.unpack := by
  change decide (x.toModel.unpack.lt y.toModel.unpack = true) = true ↔ _
  rw [decide_eq_true_eq]
  constructor
  · intro h
    have hne := ne_of_compare_ne (x := x.toModel.unpack) (y := y.toModel.unpack) fun hc => by
      simp [UnpackedFloat.lt, hc] at h
    exact ⟨hne.1, hne.2, (lt_iff_place_lt hne.1 hne.2).1 h⟩
  · exact fun ⟨hx, hy, h⟩ => (lt_iff_place_lt hx hy).2 h

lemma le_iff {x y : Float} : x ≤ y ↔ x.toModel.unpack ≠ .notANumber ∧
    y.toModel.unpack ≠ .notANumber ∧ place x.toModel.unpack ≤ place y.toModel.unpack := by
  change decide (x.toModel.unpack.le y.toModel.unpack = true) = true ↔ _
  rw [decide_eq_true_eq]
  constructor
  · intro h
    have hne := ne_of_compare_ne (x := x.toModel.unpack) (y := y.toModel.unpack) fun hc => by
      simp [UnpackedFloat.le, hc] at h
    exact ⟨hne.1, hne.2, (le_iff_place_le hne.1 hne.2).1 h⟩
  · exact fun ⟨hx, hy, h⟩ => (le_iff_place_le hx hy).2 h

end Double

open Double in
instance : OrderedScalar Float where
  isNaN_of_isFinite {x} h := by
    refine isNaN_eq_false_iff.2 fun hx => ?_
    replace h : x.toModel.unpack.isFinite = true := h
    rw [hx] at h
    cases h
  lt_irrefl x h := lt_irrefl _ (lt_iff.1 h).2.2
  le_of_lt h := le_iff.2 ⟨(lt_iff.1 h).1, (lt_iff.1 h).2.1, (lt_iff.1 h).2.2.le⟩
  lt_of_le_of_lt h h' :=
    lt_iff.2 ⟨(le_iff.1 h).1, (lt_iff.1 h').2.1, (le_iff.1 h).2.2.trans_lt (lt_iff.1 h').2.2⟩
  lt_of_lt_of_le h h' :=
    lt_iff.2 ⟨(lt_iff.1 h).1, (le_iff.1 h').2.1, (lt_iff.1 h).2.2.trans_le (le_iff.1 h').2.2⟩
  le_of_not_lt hx hy h := by
    rw [lt_iff, not_and, not_and] at h
    rw [le_iff]
    exact ⟨isNaN_eq_false_iff.1 hy, isNaN_eq_false_iff.1 hx,
      not_lt.1 (h (isNaN_eq_false_iff.1 hx) (isNaN_eq_false_iff.1 hy))⟩

end KnotSpline
