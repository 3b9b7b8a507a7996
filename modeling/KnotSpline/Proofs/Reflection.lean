import KnotSpline.Proofs.Vectors

/-! Reflections as matrices. Each is orthogonal and its own inverse, and the one made for a column
takes that column to the first axis. -/

namespace KnotSpline.Reflection

open Matrix

noncomputable section

def matrix (n : ℕ) (r : Reflection ℝ) : Matrix (Fin n) (Fin n) ℝ :=
  1 - r.scale • vecMulVec (vec n r.direction) (vec n r.direction)

structure IsOrthogonal (n : ℕ) (r : Reflection ℝ) : Prop where
  length_direction : r.direction.length = n
  scale : r.scale = 0 ∨ r.scale * (vec n r.direction ⬝ᵥ vec n r.direction) = 2

lemma length_apply {n : ℕ} {r : Reflection ℝ} {xs : List ℝ} (hr : r.direction.length = n)
    (hx : xs.length = n) : (r.apply xs).length = n := by
  simp [apply, hr, hx]

lemma matrix_mulVec {n : ℕ} (r : Reflection ℝ) (x : Fin n → ℝ) :
    r.matrix n *ᵥ x = x - (r.scale * (vec n r.direction ⬝ᵥ x)) • vec n r.direction := by
  rw [matrix, sub_mulVec, one_mulVec, smul_mulVec, vecMulVec_mulVec, op_smul_eq_smul, smul_smul]

lemma vec_apply {n : ℕ} {r : Reflection ℝ} {xs : List ℝ} (hr : r.direction.length = n)
    (hx : xs.length = n) : vec n (r.apply xs) = r.matrix n *ᵥ vec n xs := by
  rw [matrix_mulVec, ← dot_eq hr hx]
  funext i
  have hi : (i : ℕ) < r.direction.length := hr ▸ i.isLt
  have hj : (i : ℕ) < xs.length := hx ▸ i.isLt
  simp [vec, apply, hi, hj]

lemma transpose_matrix (n : ℕ) (r : Reflection ℝ) : (r.matrix n)ᵀ = r.matrix n := by
  simp [matrix, transpose_vecMulVec]

namespace IsOrthogonal

variable {n : ℕ} {r : Reflection ℝ}

lemma mulVec_mulVec (h : r.IsOrthogonal n) (x : Fin n → ℝ) :
    r.matrix n *ᵥ (r.matrix n *ᵥ x) = x := by
  rcases h.scale with hs | hs
  · simp [matrix_mulVec, hs]
  · funext i
    simp only [matrix_mulVec, dotProduct_sub, dotProduct_smul, Pi.sub_apply, Pi.smul_apply,
      smul_eq_mul]
    linear_combination (r.scale * (vec n r.direction ⬝ᵥ x) * vec n r.direction i) * hs

lemma matrix_mul_self (h : r.IsOrthogonal n) : r.matrix n * r.matrix n = 1 := by
  rw [ext_iff_mulVec]
  intro x
  rw [← Matrix.mulVec_mulVec, h.mulVec_mulVec, one_mulVec]

lemma dotProduct_mulVec_self (h : r.IsOrthogonal n) (x : Fin n → ℝ) :
    (r.matrix n *ᵥ x) ⬝ᵥ (r.matrix n *ᵥ x) = x ⬝ᵥ x := by
  rw [dotProduct_mulVec, ← mulVec_transpose, transpose_matrix, h.mulVec_mulVec]

end IsOrthogonal

lemma reflect_to_axis {x q image : ℝ} (hq : image ^ 2 = x ^ 2 + q) (hi : image ≠ 0)
    (hx : x - image ≠ 0) :
    (image - x) / image * (1 + q / (x - image) ^ 2) = 2 ∧
      (image - x) / image * (x + q / (x - image)) = x - image := by
  obtain rfl : q = image ^ 2 - x ^ 2 := by linarith
  constructor
  · field_simp
    ring
  · field_simp
    ring

lemma toAxis_spec {n : ℕ} {x image : ℝ} {xs : List ℝ} (hl : xs.length = n)
    (hq : image ^ 2 = x ^ 2 + dot xs xs) (hi : image ≠ 0) (hx : x - image ≠ 0) :
    let r : Reflection ℝ := ⟨1 :: xs.map (· / (x - image)), (image - x) / image⟩
    r.IsOrthogonal (n + 1) ∧ r.matrix (n + 1) *ᵥ vec (n + 1) (x :: xs) = vecCons image 0 := by
  obtain ⟨hs, hd⟩ := reflect_to_axis hq hi hx
  have hv : vec (n + 1) (1 :: xs.map (· / (x - image))) = vecCons 1 ((x - image)⁻¹ • vec n xs) := by
    rw [vec_cons, vec_map_div]
  refine ⟨⟨by simp [hl], Or.inr ?_⟩, ?_⟩
  · rw [hv, cons_dotProduct_cons, dotProduct_smul, smul_dotProduct, ← dot_eq hl hl, ← hs]
    simp only [smul_eq_mul]
    field_simp
  · have hc : vecCons 1 ((x - image)⁻¹ • vec n xs) ⬝ᵥ vecCons x (vec n xs) =
        x + dot xs xs / (x - image) := by
      rw [cons_dotProduct_cons, smul_dotProduct, ← dot_eq hl hl, smul_eq_mul]
      ring
    rw [matrix_mulVec, hv, vec_cons, hc, hd, smul_cons, cons_sub_cons, smul_smul,
      mul_inv_cancel₀ hx, one_smul, sub_self, smul_eq_mul, mul_one, sub_sub_cancel]

lemma norm_cons_pos (x : ℝ) {xs : List ℝ} (h : norm xs ≠ 0) : 0 < norm (x :: xs) := by
  have hq : 0 < dot xs xs := by
    rw [← norm_sq]
    positivity
  have hn : norm (x :: xs) ^ 2 = x ^ 2 + dot xs xs := by rw [norm_sq, dot_cons, sq]
  refine lt_of_le_of_ne (norm_nonneg _) fun h0 => ?_
  rw [← h0] at hn
  nlinarith

lemma ofColumn_spec {n : ℕ} {c : List ℝ} (hc : c.length = n + 1) :
    (ofColumn c).1.IsOrthogonal (n + 1) ∧
      (ofColumn c).1.matrix (n + 1) *ᵥ vec (n + 1) c = vecCons (ofColumn c).2 0 := by
  obtain ⟨x, xs, rfl⟩ := List.exists_cons_of_length_eq_add_one hc
  have hl : xs.length = n := by simpa using hc
  rw [ofColumn]
  split
  · next h =>
    have hz : dot xs xs = 0 := by rw [← norm_sq, (Reals.isZero_iff _).1 h, sq, zero_mul]
    rw [dot_eq hl hl, dotProduct_self_eq_zero] at hz
    refine ⟨⟨by simp [hl], Or.inl rfl⟩, ?_⟩
    rw [matrix_mulVec, zero_mul, zero_smul, sub_zero, vec_cons, hz]
  · next h =>
    have hn : norm (x :: xs) ^ 2 = x ^ 2 + dot xs xs := by rw [norm_sq, dot_cons, sq]
    have hp : 0 < norm (x :: xs) := norm_cons_pos x (mt (Reals.isZero_iff _).2 h)
    dsimp only
    split
    · next hx => exact toAxis_spec hl hn hp.ne' (by linarith)
    · next hx => exact toAxis_spec hl (by rw [neg_sq, hn]) (neg_ne_zero.2 hp.ne') (by linarith)

end

end KnotSpline.Reflection
