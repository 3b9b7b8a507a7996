import KnotSpline.Proofs.Factorization

/-! The triangularization sees a matrix through the products of its columns only: pivots and sizes
of diagonal entries are the same for all matrices with the same products. -/

namespace KnotSpline

open Matrix

section Products

variable {n : ℕ} (d : ℝ) (row : Fin n → ℝ) (M : Matrix (Fin n) (Fin n) ℝ)

def gram (M : Matrix (Fin n) (Fin n) ℝ) : Matrix (Fin n) (Fin n) ℝ :=
  Mᵀ * M

lemma gram_apply (i j : Fin n) : gram M i j = M.col i ⬝ᵥ M.col j := rfl

lemma gram_bordered_zero : gram (bordered d row M) 0 0 = d ^ 2 :=
  columnLengthSq_bordered_zero d row M

lemma col_bordered_zero : (bordered d row M).col 0 = vecCons d 0 := by
  funext i
  cases i using Fin.cases <;> rfl

lemma col_bordered_succ (j : Fin n) :
    (bordered d row M).col j.succ = vecCons (row j) (M.col j) := by
  funext i
  cases i using Fin.cases <;> rfl

lemma gram_bordered_zero_succ (j : Fin n) : gram (bordered d row M) 0 j.succ = d * row j := by
  rw [gram_apply, col_bordered_zero, col_bordered_succ, cons_dotProduct_cons, zero_dotProduct,
    add_zero]

lemma gram_bordered_succ (i j : Fin n) :
    gram (bordered d row M) i.succ j.succ = row i * row j + gram M i j := by
  rw [gram_apply, col_bordered_succ, col_bordered_succ, cons_dotProduct_cons, gram_apply]

variable {d row M} {d' : ℝ} {row' : Fin n → ℝ} {M' : Matrix (Fin n) (Fin n) ℝ}

lemma row_eq_zero (h0 : d = 0) (hle : ∀ j, gram (bordered d row M) j j ≤ d ^ 2) (j : Fin n) :
    row j = 0 := by
  have hj := hle j.succ
  have hM : 0 ≤ gram M j j := by
    rw [gram_apply, dotProduct]
    exact Finset.sum_nonneg fun i _ => mul_self_nonneg (M.col j i)
  rw [gram_bordered_succ, h0] at hj
  nlinarith

lemma gram_eq_of_bordered (h : gram (bordered d row M) = gram (bordered d' row' M'))
    (hle : ∀ j, gram (bordered d row M) j j ≤ d ^ 2) :
    |d| = |d'| ∧ gram M = gram M' := by
  have hd : d ^ 2 = d' ^ 2 := by
    rw [← gram_bordered_zero d row M, h, gram_bordered_zero]
  have hrow : ∀ j, d * row j = d' * row' j := by
    intro j
    rw [← gram_bordered_zero_succ d row M, h, gram_bordered_zero_succ]
  have hrest : ∀ i j, row i * row j + gram M i j = row' i * row' j + gram M' i j := by
    intro i j
    rw [← gram_bordered_succ d row M, h, gram_bordered_succ]
  refine ⟨(sq_eq_sq_iff_abs_eq_abs _ _).1 hd, ?_⟩
  ext i j
  have hij : row i * row j = row' i * row' j := by
    -- the products with the first column give the row, unless the corner is zero; then no column
    -- is longer, and the row is zero
    rcases eq_or_ne d 0 with rfl | h0
    · have h0 : d' = 0 := pow_eq_zero_iff two_ne_zero |>.1 (by rw [← hd, sq, zero_mul])
      have hle' : ∀ j, gram (bordered d' row' M') j j ≤ d' ^ 2 := fun j => h ▸ hd ▸ hle j
      rw [row_eq_zero rfl hle i, row_eq_zero h0 hle' i, zero_mul, zero_mul]
    · have hsq : d ^ 2 * (row i * row j) = d ^ 2 * (row' i * row' j) := by
        linear_combination (d * row j) * hrow i + (d' * row' i) * hrow j - row' i * row' j * hd
      exact mul_left_cancel₀ (pow_ne_zero 2 h0) hsq
  linarith [hrest i j]

end Products

namespace Step

lemma Reduces.gram_eq {n : ℕ} {columns rest : List (List ℝ)} {s : Step ℝ}
    (h : Reduces n columns s rest) :
    gram (bordered s.diagonal (vec n s.row) (columnMatrix n rest)) =
      (gram (columnMatrix (n + 1) columns)).submatrix h.exchange h.exchange := by
  have ho : (s.reflection.matrix (n + 1))ᵀ * s.reflection.matrix (n + 1) = 1 := by
    rw [Reflection.transpose_matrix, h.orthogonal.matrix_mul_self]
  have hg : gram (columnMatrix (n + 1) columns) =
      gram (s.reflection.matrix (n + 1) * columnMatrix (n + 1) columns) := by
    rw [gram, gram, transpose_mul, Matrix.mul_assoc,
      ← Matrix.mul_assoc _ (s.reflection.matrix (n + 1)), ho, Matrix.one_mul]
  rw [hg, ← h.image_eq]
  rfl

lemma map_norm_eq {n : ℕ} {columns columns' : List (List ℝ)} (h : SquareColumns n columns)
    (h' : SquareColumns n columns')
    (hg : gram (columnMatrix n columns) = gram (columnMatrix n columns')) :
    columns.map norm = columns'.map norm := by
  apply List.ext_getElem?
  intro i
  rcases lt_or_ge i n with hi | hi
  · obtain ⟨c, -, hc, hl, hv⟩ := h.exists_column ⟨i, hi⟩
    obtain ⟨c', -, hc', hl', hv'⟩ := h'.exists_column ⟨i, hi⟩
    have hdot : dot c c = dot c' c' := by
      rw [dot_eq hl hl, dot_eq hl' hl', ← hv, ← hv', ← gram_apply, ← gram_apply, hg]
    rw [List.getElem?_map, List.getElem?_map, hc, hc', Option.map_some, Option.map_some, norm_eq,
      norm_eq, hdot]
  · rw [List.getElem?_eq_none (by simpa [h.length_eq]),
      List.getElem?_eq_none (by simpa [h'.length_eq])]

theorem factor_congr {n : ℕ} {columns columns' : List (List ℝ)} (h : SquareColumns n columns)
    (h' : SquareColumns n columns')
    (hg : gram (columnMatrix n columns) = gram (columnMatrix n columns')) :
    (factor n columns).map (fun s => |s.diagonal|) =
      (factor n columns').map fun s => |s.diagonal| := by
  induction n generalizing columns columns' with
  | zero => rfl
  | succ n ih =>
    have hpivot : (ofColumns columns).1.pivot = (ofColumns columns').1.pivot :=
      congrArg firstLargest (map_norm_eq h h' hg)
    have hr := ofColumns_reduces h
    have hr' := ofColumns_reduces h'
    have hf := factor_succ n columns
    have hf' := factor_succ n columns'
    generalize (ofColumns columns).1 = s at *
    generalize (ofColumns columns).2 = rest at *
    generalize (ofColumns columns').1 = s' at *
    generalize (ofColumns columns').2 = rest' at *
    have hx : hr.exchange = hr'.exchange := by
      simp only [Reduces.exchange, hpivot]
    -- both steps exchange the same columns, so they split the same amount off the products
    have hb : gram (bordered s.diagonal (vec n s.row) (columnMatrix n rest)) =
        gram (bordered s'.diagonal (vec n s'.row) (columnMatrix n rest')) := by
      rw [hr.gram_eq, hr'.gram_eq, hg, hx]
    obtain ⟨hd, hrest⟩ := gram_eq_of_bordered hb fun j => by
      rw [hr.gram_eq]
      exact hr.length_le (hr.exchange j)
    rw [hf, hf', List.map_cons, List.map_cons, hd, ih hr.square hr'.square hrest]

end Step

end KnotSpline
