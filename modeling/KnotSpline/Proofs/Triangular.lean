import KnotSpline.Proofs.Pivoting
import KnotSpline.Proofs.Reflection

/-! What one step of the triangularization does to a matrix: up to an orthogonal factor and an
exchange of columns it splits off a diagonal entry with its row. -/

namespace KnotSpline

open Matrix

def columnMatrix (n : ℕ) (columns : List (List ℝ)) : Matrix (Fin n) (Fin n) ℝ :=
  of fun i j => vec n (columns.getD j []) i

def columnLengthSq {n : ℕ} (M : Matrix (Fin n) (Fin n) ℝ) (j : Fin n) : ℝ :=
  M.col j ⬝ᵥ M.col j

structure SquareColumns (n : ℕ) (columns : List (List ℝ)) : Prop where
  length_eq : columns.length = n
  length_column : ∀ c ∈ columns, c.length = n

lemma SquareColumns.exists_column {n : ℕ} {columns : List (List ℝ)} (h : SquareColumns n columns)
    (j : Fin n) : ∃ c ∈ columns, columns[(j : ℕ)]? = some c ∧ c.length = n ∧
      (columnMatrix n columns).col j = vec n c := by
  have hj : (j : ℕ) < columns.length := by
    rw [h.length_eq]
    exact j.isLt
  have hm := List.getElem_mem hj
  refine ⟨_, hm, List.getElem?_eq_getElem hj, h.length_column _ hm, ?_⟩
  funext i
  simp [columnMatrix, hj]

def bordered {n : ℕ} (d : ℝ) (row : Fin n → ℝ) (M : Matrix (Fin n) (Fin n) ℝ) :
    Matrix (Fin (n + 1)) (Fin (n + 1)) ℝ :=
  of (vecCons (vecCons d row) fun i => vecCons 0 (M i))

lemma bordered_mulVec {n : ℕ} (d : ℝ) (row : Fin n → ℝ) (M : Matrix (Fin n) (Fin n) ℝ)
    (x : Fin (n + 1) → ℝ) :
    bordered d row M *ᵥ x = vecCons (d * x 0 + row ⬝ᵥ vecTail x) (M *ᵥ vecTail x) := by
  funext i
  cases i using Fin.cases with
  | zero => exact cons_dotProduct d row x
  | succ i =>
    change vecCons 0 (M i) ⬝ᵥ x = M i ⬝ᵥ vecTail x
    rw [cons_dotProduct, zero_mul, zero_add]

lemma columnLengthSq_bordered_succ {n : ℕ} (d : ℝ) (row : Fin n → ℝ)
    (M : Matrix (Fin n) (Fin n) ℝ) (j : Fin n) :
    columnLengthSq (bordered d row M) j.succ = row j ^ 2 + columnLengthSq M j := by
  have hc : (bordered d row M).col j.succ = vecCons (row j) (M.col j) := by
    funext i
    cases i using Fin.cases <;> rfl
  rw [columnLengthSq, hc, cons_dotProduct_cons, ← sq, columnLengthSq]

lemma columnLengthSq_bordered_zero {n : ℕ} (d : ℝ) (row : Fin n → ℝ)
    (M : Matrix (Fin n) (Fin n) ℝ) : columnLengthSq (bordered d row M) 0 = d ^ 2 := by
  have hc : (bordered d row M).col 0 = vecCons d 0 := by
    funext i
    cases i using Fin.cases <;> rfl
  rw [columnLengthSq, hc, cons_dotProduct_cons, zero_dotProduct, add_zero, sq]

lemma bordered_sub {n : ℕ} (d : ℝ) (row : Fin n → ℝ) (M E : Matrix (Fin n) (Fin n) ℝ) :
    bordered d row M - bordered 0 0 E = bordered d row (M - E) := by
  ext i j
  cases i using Fin.cases <;> cases j using Fin.cases <;> simp [bordered]

lemma mem_ker_bordered {n : ℕ} {d : ℝ} {row : Fin n → ℝ} {M : Matrix (Fin n) (Fin n) ℝ}
    (x : Fin (n + 1) → ℝ) : x ∈ LinearMap.ker (bordered d row M).mulVecLin ↔
      d * x 0 + row ⬝ᵥ vecTail x = 0 ∧ vecTail x ∈ LinearMap.ker M.mulVecLin := by
  rw [LinearMap.mem_ker, LinearMap.mem_ker, mulVecLin_apply, mulVecLin_apply, bordered_mulVec,
    ← cons_zero_zero, vecCons_inj]

lemma rank_add_finrank_ker {n : ℕ} (M : Matrix (Fin n) (Fin n) ℝ) :
    M.rank + Module.finrank ℝ (LinearMap.ker M.mulVecLin) = n := by
  rw [Matrix.rank, M.mulVecLin.finrank_range_add_finrank_ker, Module.finrank_fin_fun]

lemma rank_bordered {n : ℕ} {d : ℝ} (hd : d ≠ 0) (row : Fin n → ℝ) (M : Matrix (Fin n) (Fin n) ℝ) :
    (bordered d row M).rank = M.rank + 1 := by
  let f := (LinearMap.funLeft ℝ ℝ (Fin.succ : Fin n → Fin (n + 1))).domRestrict
    (LinearMap.ker (bordered d row M).mulVecLin)
  have hf : ∀ x, f x = vecTail x.1 := fun x => rfl
  have hr : LinearMap.range f = LinearMap.ker M.mulVecLin := by
    ext y
    rw [LinearMap.mem_range]
    constructor
    · rintro ⟨x, rfl⟩
      exact ((mem_ker_bordered x.1).1 x.2).2
    · intro hy
      refine ⟨⟨vecCons (-(row ⬝ᵥ y) / d) y, (mem_ker_bordered _).2 ⟨?_, ?_⟩⟩, ?_⟩
      · simp [mul_div_cancel₀ _ hd]
      · simpa using hy
      · simp [hf]
  have hi : Function.Injective f := by
    rw [← LinearMap.ker_eq_bot, LinearMap.ker_eq_bot']
    rintro ⟨x, hx⟩ h0
    replace h0 : vecTail x = 0 := h0
    have h := ((mem_ker_bordered x).1 hx).1
    rw [h0, dotProduct_zero, add_zero] at h
    have hx0 : x 0 = 0 := (mul_eq_zero.1 h).resolve_left hd
    apply Subtype.ext
    funext i
    cases i using Fin.cases with
    | zero => exact hx0
    | succ i => exact congrFun h0 i
  have hk := LinearMap.finrank_range_of_inj hi
  rw [hr] at hk
  have hm := rank_add_finrank_ker M
  have hb := rank_add_finrank_ker (bordered d row M)
  omega

namespace Step

/-- The effect of a step on the columns it is made for. The diagonal entry is as long as the longest
column. -/
structure Reduces (n : ℕ) (columns : List (List ℝ)) (s : Step ℝ) (rest : List (List ℝ)) :
    Prop where
  pivot_lt : s.pivot < n + 1
  orthogonal : s.reflection.IsOrthogonal (n + 1)
  length_row : s.row.length = n
  square : SquareColumns n rest
  image_eq : (s.reflection.matrix (n + 1) * columnMatrix (n + 1) columns).submatrix id
    (Equiv.swap 0 ⟨s.pivot, pivot_lt⟩) = bordered s.diagonal (vec n s.row) (columnMatrix n rest)
  length_le : ∀ j, columnLengthSq (columnMatrix (n + 1) columns) j ≤ s.diagonal ^ 2
  length_pivot : columnLengthSq (columnMatrix (n + 1) columns) ⟨s.pivot, pivot_lt⟩ = s.diagonal ^ 2

lemma image_bordered {n : ℕ} {columns : List (List ℝ)} (h : SquareColumns (n + 1) columns)
    {k : Fin (n + 1)} {c : List ℝ} (hk : columns[(k : ℕ)]? = some c) {r : Reflection ℝ}
    (hr : r.IsOrthogonal (n + 1)) {d : ℝ} (hd : r.matrix (n + 1) *ᵥ vec (n + 1) c = vecCons d 0) :
    (r.matrix (n + 1) * columnMatrix (n + 1) columns).submatrix id (Equiv.swap 0 k) =
      bordered d (vec n (((takeOut k columns).map r.apply).map fun c => c.headD 0))
        (columnMatrix n (((takeOut k columns).map r.apply).map List.tail)) := by
  ext i j
  change (r.matrix (n + 1) *ᵥ vec (n + 1) (columns.getD (Equiv.swap 0 k j : Fin (n + 1)) [])) i = _
  cases j using Fin.cases with
  | zero =>
    rw [Equiv.swap_apply_left, List.getD_eq_getElem?_getD, hk, Option.getD_some, hd]
    cases i using Fin.cases <;> rfl
  | succ j =>
    obtain ⟨c, -, hc, hl, -⟩ := h.exists_column (Equiv.swap 0 k j.succ)
    have ht : (takeOut k columns)[(j : ℕ)]? = some c := by
      rw [getElem?_takeOut (by rw [h.length_eq]; exact k.isLt), ← Fin.val_succ, ← val_swap_zero, hc]
    rw [List.getD_eq_getElem?_getD, hc, Option.getD_some,
      ← Reflection.vec_apply hr.length_direction hl, vec_eq_cons]
    cases i using Fin.cases with
    | zero => simp [bordered, vec, ht]
    | succ i => simp [bordered, columnMatrix, ht]

lemma ofColumns_reduces {n : ℕ} {columns : List (List ℝ)} (h : SquareColumns (n + 1) columns) :
    Reduces n columns (ofColumns columns).1 (ofColumns columns).2 := by
  have hne : columns.map norm ≠ [] := by
    simpa using List.ne_nil_of_length_eq_add_one h.length_eq
  obtain ⟨m, hm, hmax⟩ := firstLargest_spec hne
  rw [List.getElem?_map, Option.map_eq_some_iff] at hm
  obtain ⟨c, hc, rfl⟩ := hm
  have heq : ofColumns columns = (⟨firstLargest (columns.map norm), (Reflection.ofColumn c).1,
      (Reflection.ofColumn c).2, ((takeOut (firstLargest (columns.map norm)) columns).map
        (Reflection.ofColumn c).1.apply).map fun c => c.headD 0⟩,
      ((takeOut (firstLargest (columns.map norm)) columns).map
        (Reflection.ofColumn c).1.apply).map List.tail) := by
    simp [ofColumns, hc]
  generalize firstLargest (columns.map norm) = k at *
  have hk : k < columns.length := (List.getElem?_eq_some_iff.1 hc).1
  have hlt : k < n + 1 := h.length_eq ▸ hk
  have hlen : (takeOut k columns).length = n := by
    have ht := length_takeOut (k := k) (List.ne_nil_of_length_pos (Nat.zero_lt_of_lt hk))
    exact Nat.succ.inj (ht.trans h.length_eq)
  have hcl : c.length = n + 1 := h.length_column c (List.mem_of_getElem? hc)
  obtain ⟨ho, hi⟩ := Reflection.ofColumn_spec hcl
  have hd : norm c ^ 2 = (Reflection.ofColumn c).2 ^ 2 := by
    rw [norm_sq, dot_eq hcl hcl, ← ho.dotProduct_mulVec_self, hi, cons_dotProduct_cons]
    simp [sq]
  have hcol : ∀ b ∈ columns, vec (n + 1) b ⬝ᵥ vec (n + 1) b = norm b ^ 2 := by
    intro b hb
    rw [norm_sq, dot_eq (h.length_column b hb) (h.length_column b hb)]
  rw [heq]
  refine ⟨hlt, ho, by simp [hlen], ⟨by simp [hlen], fun b hb => ?_⟩, ?_, ?_, ?_⟩
  · simp only [List.mem_map] at hb
    obtain ⟨_, ⟨b, hb, rfl⟩, rfl⟩ := hb
    rw [List.length_tail, Reflection.length_apply ho.length_direction
      (h.length_column b (mem_of_mem_takeOut hk hb)), Nat.add_sub_cancel]
  · exact image_bordered (k := ⟨k, hlt⟩) h hc ho hi
  · intro j
    obtain ⟨b, hb, -, -, hj⟩ := h.exists_column j
    rw [columnLengthSq, hj, hcol b hb, ← hd]
    exact pow_le_pow_left₀ (norm_nonneg b) (hmax _ (List.mem_map_of_mem hb)) 2
  · obtain ⟨b, hb, hk, -, hj⟩ := h.exists_column ⟨k, hlt⟩
    obtain rfl : b = c := Option.some.inj (hk.symm.trans hc)
    rw [columnLengthSq, hj, hcol b hb, hd]

end Step

end KnotSpline
