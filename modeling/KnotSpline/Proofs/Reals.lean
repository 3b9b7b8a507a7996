import Mathlib
import KnotSpline.Value.Numeric

/-! Exact arithmetic: the reals as scalars. -/

namespace KnotSpline

namespace Decimal

noncomputable def toReal (d : Decimal) : ℝ :=
  (if d.negative then -1 else 1) * d.digits * (10 : ℝ) ^ d.exponent

end Decimal

namespace Numeral

/-- What denotes no real number counts as zero. -/
noncomputable def toReal : Numeral → ℝ
  | finite d => d.toReal
  | infinite _ => 0
  | notANumber => 0

open scoped Classical in
noncomputable def ofReal (x : ℝ) : Numeral :=
  if h : ∃ d : Decimal, d.toReal = x then .finite h.choose else .notANumber

end Numeral

namespace Reals

noncomputable def nearest (x : ℝ) : ℕ :=
  let n := ⌊x⌋₊
  if n + 1 / 2 < x ∨ (n + 1 / 2 = x ∧ n % 2 = 1) then n + 1 else n

noncomputable def roundTo (n : ℕ) (x : ℝ) : Decimal :=
  ⟨decide (x < 0), nearest (|x| * 10 ^ n), -n⟩

noncomputable def toInt? (x : ℝ) : Option ℤ :=
  if (⌊x⌋ : ℝ) = x then some ⌊x⌋ else none

noncomputable instance : Scalar ℝ where
  decidableLT := inferInstance
  decidableLE := inferInstance
  natCast n := n
  ofInt? z := some z
  ofNumeral := Numeral.toReal
  toInt? := toInt?
  toNumeral := Numeral.ofReal
  roundTo := roundTo
  pow x n := x ^ n
  sqrt := Real.sqrt
  abs x := |x|
  isFinite _ := true
  isNaN _ := false
  epsilon := 2⁻¹ ^ 52

@[simp] lemma natCast_eq (n : ℕ) : (Scalar.natCast n : ℝ) = n := rfl

@[simp] lemma ofInt?_eq (z : ℤ) : (Scalar.ofInt? z : Option ℝ) = some (z : ℝ) := rfl

@[simp] lemma pow_eq (x : ℝ) (n : ℕ) : Scalar.pow x n = x ^ n := rfl

@[simp] lemma sqrt_eq (x : ℝ) : Scalar.sqrt x = √x := rfl

@[simp] lemma abs_eq (x : ℝ) : Scalar.abs x = |x| := rfl

@[simp] lemma isFinite_eq (x : ℝ) : Scalar.isFinite x = true := rfl

@[simp] lemma isNaN_eq (x : ℝ) : Scalar.isNaN x = false := rfl

@[simp] lemma epsilon_eq : (Scalar.epsilon : ℝ) = 2⁻¹ ^ 52 := rfl

@[simp] lemma isZero_iff (x : ℝ) : Scalar.isZero x = true ↔ x = 0 := by
  simp only [Scalar.isZero, Bool.and_eq_true, decide_eq_true_eq]
  exact le_antisymm_iff.symm

end Reals

end KnotSpline
