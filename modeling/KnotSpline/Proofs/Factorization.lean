import KnotSpline.Proofs.Triangular

/-! The whole triangularization: substitution solves the system whenever no diagonal entry is zero,
and counting the diagonal entries above a tolerance gives the rank of a matrix within that
tolerance. -/

namespace KnotSpline.Step

open Matrix

namespace Reduces

variable {n : ℕ} {columns rest : List (List ℝ)} {s : Step ℝ}

def exchange (h : Reduces n columns s rest) : Equiv.Perm (Fin (n + 1)) :=
  Equiv.swap 0 ⟨s.pivot, h.pivot_lt⟩

lemma reflected_eq (h : Reduces n columns s rest) :
    s.reflection.matrix (n + 1) * columnMatrix (n + 1) columns =
      (bordered s.diagonal (vec n s.row) (columnMatrix n rest)).submatrix id h.exchange := by
  rw [← h.image_eq, submatrix_submatrix]
  ext i j
  simp [exchange]

lemma mulVec_eq_iff (h : Reduces n columns s rest) {b : List ℝ} (hb : b.length = n + 1)
    (x : Fin (n + 1) → ℝ) : columnMatrix (n + 1) columns *ᵥ x = vec (n + 1) b ↔
      s.diagonal * x (h.exchange 0) + vec n s.row ⬝ᵥ vecTail (x ∘ h.exchange) =
        (s.reflection.apply b).headD 0 ∧
      columnMatrix n rest *ᵥ vecTail (x ∘ h.exchange) = vec n (s.reflection.apply b).tail := by
  have hi : columnMatrix (n + 1) columns *ᵥ x = vec (n + 1) b ↔
      s.reflection.matrix (n + 1) *ᵥ (columnMatrix (n + 1) columns *ᵥ x) =
        s.reflection.matrix (n + 1) *ᵥ vec (n + 1) b := by
    refine ⟨fun he => by rw [he], fun he => ?_⟩
    rw [← h.orthogonal.mulVec_mulVec (columnMatrix (n + 1) columns *ᵥ x), he,
      h.orthogonal.mulVec_mulVec]
  have hx : (bordered s.diagonal (vec n s.row) (columnMatrix n rest)).submatrix id h.exchange *ᵥ x =
      bordered s.diagonal (vec n s.row) (columnMatrix n rest) *ᵥ (x ∘ h.exchange) := by
    rw [submatrix_mulVec_equiv]
    simp [exchange]
  rw [hi, Matrix.mulVec_mulVec, h.reflected_eq, hx, bordered_mulVec,
    ← Reflection.vec_apply h.orthogonal.length_direction hb, vec_eq_cons, vecCons_inj,
    Function.comp_apply]

def restore (h : Reduces n columns s rest) (M : Matrix (Fin (n + 1)) (Fin (n + 1)) ℝ) :
    Matrix (Fin (n + 1)) (Fin (n + 1)) ℝ :=
  s.reflection.matrix (n + 1) * M.submatrix id h.exchange

lemma restore_bordered (h : Reduces n columns s rest) :
    h.restore (bordered s.diagonal (vec n s.row) (columnMatrix n rest)) =
      columnMatrix (n + 1) columns := by
  rw [restore, ← h.reflected_eq, ← Matrix.mul_assoc, h.orthogonal.matrix_mul_self, Matrix.one_mul]

lemma restore_sub (h : Reduces n columns s rest) (M N : Matrix (Fin (n + 1)) (Fin (n + 1)) ℝ) :
    h.restore (M - N) = h.restore M - h.restore N :=
  Matrix.mul_sub _ (M.submatrix id h.exchange) (N.submatrix id h.exchange)

lemma rank_restore (h : Reduces n columns s rest) (M : Matrix (Fin (n + 1)) (Fin (n + 1)) ℝ) :
    (h.restore M).rank = M.rank := by
  have hu := isUnit_det_of_left_inverse h.orthogonal.matrix_mul_self
  rw [restore, rank_mul_eq_right_of_isUnit_det _ _ hu]
  exact rank_submatrix M (Equiv.refl _) h.exchange

lemma columnLengthSq_restore (h : Reduces n columns s rest)
    (M : Matrix (Fin (n + 1)) (Fin (n + 1)) ℝ) (j : Fin (n + 1)) :
    columnLengthSq (h.restore M) j = columnLengthSq M (h.exchange j) :=
  h.orthogonal.dotProduct_mulVec_self (M.col (h.exchange j))

lemma columnLengthSq_rest_le (h : Reduces n columns s rest) (j : Fin n) :
    columnLengthSq (columnMatrix n rest) j ≤
      columnLengthSq (columnMatrix (n + 1) columns) (h.exchange j.succ) := by
  rw [← h.restore_bordered, columnLengthSq_restore, exchange, Equiv.swap_apply_self,
    columnLengthSq_bordered_succ]
  exact le_add_of_nonneg_left (sq_nonneg _)

end Reduces

lemma factor_succ {α : Type} [Scalar α] (n : ℕ) (columns : List (List α)) :
    factor (n + 1) columns = (ofColumns columns).1 :: factor n (ofColumns columns).2 := rfl

theorem mulVec_eq_iff_substitute {n : ℕ} {columns : List (List ℝ)} (h : SquareColumns n columns)
    (hd : ∀ s ∈ factor n columns, s.diagonal ≠ 0) {b : List ℝ} (hb : b.length = n)
    (x : Fin n → ℝ) : columnMatrix n columns *ᵥ x = vec n b ↔
      x = vec n (substitute (factor n columns) (reflect (factor n columns) b)) := by
  induction n generalizing columns b with
  | zero => exact iff_of_true (Subsingleton.elim _ _) (Subsingleton.elim _ _)
  | succ n ih =>
    have hr := ofColumns_reduces h
    have hf := factor_succ n columns
    generalize (ofColumns columns).1 = s at *
    generalize (ofColumns columns).2 = rest at *
    rw [hf, List.forall_mem_cons] at hd
    have hl := Reflection.length_apply hr.orthogonal.length_direction hb
    have hx : ∀ y, x = y ↔ x ∘ hr.exchange = y ∘ hr.exchange := fun y =>
      hr.exchange.surjective.injective_comp_right.eq_iff.symm
    rw [hr.mulVec_eq_iff hb, ih hr.square hd.2 (by simp [hl]), hf, reflect, substitute, hx]
    rw [List.headD_cons, List.tail_cons]
    generalize hxs : substitute (factor n rest)
      (reflect (factor n rest) (s.reflection.apply b).tail) = xs
    have hlen : xs.length = n := by simp [← hxs]
    have hp := vec_putBack ⟨s.pivot, hr.pivot_lt⟩
      (((s.reflection.apply b).headD 0 - dot s.row xs) / s.diagonal) hlen
    rw [Reduces.exchange, hp, dot_eq hr.length_row hlen,
      ← cons_head_tail (x ∘ Equiv.swap 0 ⟨s.pivot, hr.pivot_lt⟩), vecCons_inj, tail_cons,
      eq_div_iff hd.1]
    refine and_congr_left fun ht => ?_
    rw [ht, eq_sub_iff_add_eq, mul_comm s.diagonal]
    rfl

lemma diagonal_sq_le {n : ℕ} {columns : List (List ℝ)} (h : SquareColumns n columns) {B : ℝ}
    (hB : ∀ j, columnLengthSq (columnMatrix n columns) j ≤ B) :
    ∀ s ∈ factor n columns, s.diagonal ^ 2 ≤ B := by
  induction n generalizing columns with
  | zero => simp [factor]
  | succ n ih =>
    have hr := ofColumns_reduces h
    have hf := factor_succ n columns
    rw [hf, List.forall_mem_cons]
    exact ⟨hr.length_pivot ▸ hB _, ih hr.square fun j => (hr.columnLengthSq_rest_le j).trans (hB _)⟩

lemma rank_eq_zero {n : ℕ} {columns : List (List ℝ)} (h : SquareColumns n columns) {tolerance : ℝ}
    (ht : 0 ≤ tolerance)
    (hB : ∀ j, columnLengthSq (columnMatrix n columns) j ≤ tolerance ^ 2) :
    rank tolerance (factor n columns) = 0 := by
  rw [rank, List.countP_eq_zero]
  intro s hs
  simpa using abs_le_of_sq_le_sq (diagonal_sq_le h hB s hs) ht

lemma rank_cons (tolerance : ℝ) (s : Step ℝ) (steps : List (Step ℝ)) :
    rank tolerance (s :: steps) =
      rank tolerance steps + if tolerance < |s.diagonal| then 1 else 0 := by
  simp [rank, List.countP_cons]

/-- The number of diagonal entries above a tolerance is the rank of a matrix each of whose columns
is within the tolerance of the given one. -/
theorem exists_rank_eq {n : ℕ} {columns : List (List ℝ)} (h : SquareColumns n columns)
    {tolerance : ℝ} (ht : 0 ≤ tolerance) :
    ∃ E : Matrix (Fin n) (Fin n) ℝ, (∀ j, columnLengthSq E j ≤ tolerance ^ 2) ∧
      (columnMatrix n columns - E).rank = rank tolerance (factor n columns) := by
  induction n generalizing columns with
  | zero => exact ⟨0, fun j => j.elim0, Nat.le_zero.1 (rank_le_width _)⟩
  | succ n ih =>
    have hr := ofColumns_reduces h
    have hf := factor_succ n columns
    generalize (ofColumns columns).1 = s at *
    generalize (ofColumns columns).2 = rest at *
    by_cases hd : tolerance < |s.diagonal|
    · obtain ⟨E, hE, hrank⟩ := ih hr.square
      refine ⟨hr.restore (bordered 0 0 E), fun j => ?_, ?_⟩
      · rw [hr.columnLengthSq_restore]
        cases hr.exchange j using Fin.cases with
        | zero => simpa [columnLengthSq_bordered_zero] using sq_nonneg tolerance
        | succ j => simpa [columnLengthSq_bordered_succ] using hE j
      · rw [hf, rank_cons, if_pos hd, ← hrank, ← hr.restore_bordered, ← hr.restore_sub,
          bordered_sub, hr.rank_restore, rank_bordered (abs_pos.1 (ht.trans_lt hd))]
    · -- No column is longer than the one that was chosen, so the tolerance covers all that is left.
      have hB : ∀ j, columnLengthSq (columnMatrix (n + 1) columns) j ≤ tolerance ^ 2 := fun j =>
        (hr.length_le j).trans (sq_le_sq.2 ((not_lt.1 hd).trans (le_abs_self tolerance)))
      refine ⟨columnMatrix (n + 1) columns, hB, ?_⟩
      rw [sub_self, Matrix.rank_zero, rank_eq_zero h ht hB]

end KnotSpline.Step
