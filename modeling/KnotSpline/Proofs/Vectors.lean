import KnotSpline.Proofs.Reals
import KnotSpline.Reflection

/-! Lists of reals as vectors, and lists of columns as square matrices. -/

namespace KnotSpline

open Matrix

def vec (n : ℕ) (xs : List ℝ) : Fin n → ℝ :=
  fun i => xs.getD i 0

lemma vec_zero (n : ℕ) (xs : List ℝ) : vec (n + 1) xs 0 = xs.headD 0 := by
  cases xs <;> rfl

lemma vec_succ (n : ℕ) (xs : List ℝ) (i : Fin n) : vec (n + 1) xs i.succ = vec n xs.tail i := by
  cases xs <;> simp [vec]

lemma vec_cons (n : ℕ) (x : ℝ) (xs : List ℝ) : vec (n + 1) (x :: xs) = vecCons x (vec n xs) := by
  funext i
  cases i using Fin.cases with
  | zero => rfl
  | succ i => simp [vec_succ]

lemma vec_eq_cons (n : ℕ) (xs : List ℝ) :
    vec (n + 1) xs = vecCons (xs.headD 0) (vec n xs.tail) := by
  funext i
  cases i using Fin.cases with
  | zero => exact vec_zero n xs
  | succ i => exact vec_succ n xs i

lemma vec_map_div (n : ℕ) (xs : List ℝ) (a : ℝ) : vec n (xs.map (· / a)) = a⁻¹ • vec n xs := by
  funext i
  simp only [vec, List.getD_eq_getElem?_getD, List.getElem?_map, Pi.smul_apply, smul_eq_mul]
  cases xs[(i : ℕ)]? <;> simp [div_eq_inv_mul]

lemma vec_ofFn {n : ℕ} (v : Fin n → ℝ) : vec n (List.ofFn v) = v := by
  funext i
  simp [vec]

lemma eq_of_vec_eq {n : ℕ} {xs ys : List ℝ} (hx : xs.length = n) (hy : ys.length = n)
    (h : vec n xs = vec n ys) : xs = ys := by
  apply List.ext_getElem (hx.trans hy.symm)
  intro i hi hj
  have hv := congrFun h ⟨i, hx ▸ hi⟩
  simpa [vec, hi, hj] using hv

lemma foldl_add (xs : List ℝ) (a : ℝ) : xs.foldl (· + ·) a = a + xs.sum := by
  induction xs generalizing a with
  | nil => simp
  | cons x xs ih => rw [List.foldl_cons, ih, List.sum_cons, add_assoc]

@[simp] lemma dot_nil (ys : List ℝ) : dot [] ys = 0 := rfl

@[simp] lemma dot_cons (x y : ℝ) (xs ys : List ℝ) :
    dot (x :: xs) (y :: ys) = x * y + dot xs ys := by
  simp only [dot, List.zipWith_cons_cons, foldl_add, List.sum_cons]
  ring

lemma dot_eq {n : ℕ} {xs ys : List ℝ} (hx : xs.length = n) (hy : ys.length = n) :
    dot xs ys = vec n xs ⬝ᵥ vec n ys := by
  induction n generalizing xs ys with
  | zero => simp [List.length_eq_zero_iff.1 hx]
  | succ n ih =>
    obtain ⟨x, xs, rfl⟩ := List.exists_cons_of_length_eq_add_one hx
    obtain ⟨y, ys, rfl⟩ := List.exists_cons_of_length_eq_add_one hy
    rw [dot_cons, ih (by simpa using hx) (by simpa using hy), vec_cons, vec_cons,
      cons_dotProduct_cons]

lemma dot_append {xs ys : List ℝ} (h : xs.length = ys.length) (xs' ys' : List ℝ) :
    dot (xs ++ xs') (ys ++ ys') = dot xs ys + dot xs' ys' := by
  induction xs generalizing ys with
  | nil => simp [List.length_eq_zero_iff.1 h.symm]
  | cons x xs ih =>
    obtain ⟨y, ys, rfl⟩ := List.exists_cons_of_length_eq_add_one h.symm
    rw [List.cons_append, List.cons_append, dot_cons, dot_cons, ih (Nat.succ.inj h), add_assoc]

lemma dot_replicate_zero (n : ℕ) (ys : List ℝ) : dot (List.replicate n 0) ys = 0 := by
  induction n generalizing ys with
  | zero => rfl
  | succ n ih =>
    cases ys with
    | nil => rfl
    | cons y ys => rw [List.replicate_succ, dot_cons, ih, zero_mul, add_zero]

lemma dot_map_neg (xs ys : List ℝ) : dot (xs.map (- ·)) ys = -dot xs ys := by
  induction xs generalizing ys with
  | nil => simp
  | cons x xs ih =>
    cases ys with
    | nil => simp [dot]
    | cons y ys =>
      rw [List.map_cons, dot_cons, dot_cons, ih]
      ring

lemma dot_self_nonneg (xs : List ℝ) : 0 ≤ dot xs xs := by
  induction xs with
  | nil => simp
  | cons x xs ih =>
    rw [dot_cons]
    exact add_nonneg (mul_self_nonneg x) ih

lemma dot_self_eq_zero_iff (xs : List ℝ) : dot xs xs = 0 ↔ ∀ x ∈ xs, x = 0 := by
  induction xs with
  | nil => simp
  | cons x xs ih =>
    rw [dot_cons, List.forall_mem_cons, ← ih, ← mul_self_eq_zero (a := x)]
    exact add_eq_zero_iff_of_nonneg (mul_self_nonneg x) (dot_self_nonneg xs)

lemma dot_div (m : ℝ) (xs : List ℝ) :
    dot (xs.map (· / m)) (xs.map (· / m)) = dot xs xs / m ^ 2 := by
  induction xs with
  | nil => simp
  | cons x xs ih =>
    rw [List.map_cons, dot_cons, dot_cons, ih]
    ring

lemma le_foldl_largest (xs : List ℝ) (m : ℝ) :
    m ≤ xs.foldl (fun m x => if m < |x| then |x| else m) m ∧
      ∀ x ∈ xs, |x| ≤ xs.foldl (fun m x => if m < |x| then |x| else m) m := by
  induction xs generalizing m with
  | nil => simp
  | cons x xs ih =>
    obtain ⟨hm, hs⟩ := ih (if m < |x| then |x| else m)
    have hx : m ≤ (if m < |x| then |x| else m) ∧ |x| ≤ (if m < |x| then |x| else m) := by
      split
      · next h => exact ⟨h.le, le_rfl⟩
      · next h => exact ⟨le_rfl, not_lt.1 h⟩
    exact ⟨hx.1.trans hm, List.forall_mem_cons.2 ⟨hx.2.trans hm, hs⟩⟩

lemma largest_nonneg (xs : List ℝ) : 0 ≤ largest xs :=
  (le_foldl_largest xs 0).1

lemma abs_le_largest {xs : List ℝ} {x : ℝ} (h : x ∈ xs) : |x| ≤ largest xs :=
  (le_foldl_largest xs 0).2 x h

lemma norm_eq (xs : List ℝ) : norm xs = √(dot xs xs) := by
  unfold norm
  dsimp only
  split
  · next h =>
    have hm : largest xs = 0 := (Reals.isZero_iff _).1 h
    have hx : ∀ x ∈ xs, x = 0 := fun x hx => abs_nonpos_iff.1 (hm ▸ abs_le_largest hx)
    rw [(dot_self_eq_zero_iff xs).2 hx, Real.sqrt_zero]
  · next h =>
    have hm : largest xs ≠ 0 := fun hm => h ((Reals.isZero_iff _).2 hm)
    have hp : 0 < largest xs := lt_of_le_of_ne (largest_nonneg xs) hm.symm
    rw [Reals.sqrt_eq, dot_div, Real.sqrt_div (dot_self_nonneg xs), Real.sqrt_sq hp.le]
    field_simp

lemma norm_sq (xs : List ℝ) : norm xs ^ 2 = dot xs xs := by
  rw [norm_eq, Real.sq_sqrt (dot_self_nonneg xs)]

lemma norm_nonneg (xs : List ℝ) : 0 ≤ norm xs :=
  norm_eq xs ▸ Real.sqrt_nonneg _

end KnotSpline
