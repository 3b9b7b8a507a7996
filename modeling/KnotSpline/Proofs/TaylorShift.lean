import KnotSpline.Proofs.SizedPolynomials

/-! A new center in place. One array holds the coefficients; for each place from the first on, the
entries from the last one down to this place are each added, `δ` times, to the entry before. What
is left are the coefficients about the new center, given by binomial sums. -/

open Polynomial (C X derivative)
open scoped Polynomial

namespace KnotSpline

namespace Taylor

section Loop

variable {α : Type} [Scalar α] (δ : α)

def absorb (cs : List α) (i : ℕ) : List α :=
  cs.modify (i - 1) (· + δ * cs.getD i 0)

def sweep (cs : List α) (j : ℕ) : List α :=
  (List.range' (j + 1) (cs.length - 1 - j)).reverse.foldl (absorb δ) cs

def recenterInPlace (cs : List α) : List α :=
  (List.range cs.length).foldl (sweep δ) cs

/-- What one sweep leaves: at each place a value of the polynomial that starts there. -/
def tailValues : List α → List α
  | [] => []
  | c :: cs => ((tailValues cs).head?.elim c fun d => c + δ * d) :: tailValues cs

lemma tailValues_cons (c : α) (cs : List α) : tailValues δ (c :: cs) =
    ((tailValues δ cs).head?.elim c fun d => c + δ * d) :: tailValues δ cs := rfl

@[simp] lemma length_tailValues (cs : List α) : (tailValues δ cs).length = cs.length := by
  induction cs with
  | nil => rfl
  | cons c cs ih => rw [tailValues_cons, List.length_cons, ih, List.length_cons]

lemma absorb_append (pre : List α) (c d : α) (ds : List α) :
    absorb δ (pre ++ c :: d :: ds) (pre.length + 1) = pre ++ (c + δ * d) :: d :: ds := by
  have hd : (pre ++ c :: d :: ds).getD (pre.length + 1) 0 = d := by simp
  rw [absorb, hd, Nat.add_sub_cancel, List.modify_eq_take_drop]
  simp

lemma foldr_absorb (pre : List α) (c : α) (cs : List α) :
    (List.range' (pre.length + 1) cs.length).foldr (fun i xs => absorb δ xs i) (pre ++ c :: cs) =
      pre ++ tailValues δ (c :: cs) := by
  induction cs generalizing pre c with
  | nil => rfl
  | cons d cs ih =>
    have hpre : (pre ++ [c]).length = pre.length + 1 := by simp
    have h := ih (pre ++ [c]) d
    rw [hpre, List.append_assoc, List.append_assoc] at h
    rw [List.length_cons, List.range'_succ, List.foldr_cons]
    change absorb δ (List.foldr _ (pre ++ ([c] ++ d :: cs)) _) _ = _
    rw [h, tailValues_cons δ c]
    exact absorb_append δ pre c _ (tailValues δ cs)

lemma sweep_append (pre cs : List α) :
    sweep δ (pre ++ cs) pre.length = pre ++ tailValues δ cs := by
  cases cs with
  | nil => simp [sweep, tailValues]
  | cons c cs =>
    have hlen : (pre ++ c :: cs).length - 1 - pre.length = cs.length := by
      rw [List.length_append, List.length_cons]
      omega
    rw [sweep, hlen, List.foldl_reverse]
    exact foldr_absorb δ pre c cs

lemma recenter_of_tailValues {cs es : List α} {e : α} (h : tailValues δ cs = e :: es) :
    recenter δ cs = e :: recenter δ es := by
  induction cs generalizing e es with
  | nil => cases h
  | cons c cs ih =>
    change raise δ c (recenter δ cs) = _
    obtain ⟨rfl, rfl⟩ := List.cons.inj h
    cases hcs : tailValues δ cs with
    | nil =>
      obtain rfl : cs = [] := by simpa [hcs] using (length_tailValues δ cs).symm
      rfl
    | cons d ds =>
      rw [ih hcs]
      rfl

lemma foldl_sweep (pre cs : List α) :
    (List.range' pre.length cs.length).foldl (sweep δ) (pre ++ cs) = pre ++ recenter δ cs := by
  generalize hn : cs.length = n
  induction n generalizing pre cs with
  | zero =>
    obtain rfl := List.length_eq_zero_iff.1 hn
    rfl
  | succ n ih =>
    obtain ⟨e, es, he⟩ := List.exists_cons_of_length_pos
      (by rw [length_tailValues, hn]; exact Nat.succ_pos n : 0 < (tailValues δ cs).length)
    have hes : es.length = n := by
      have hlen := length_tailValues δ cs
      rw [he, List.length_cons, hn] at hlen
      exact Nat.succ_inj.1 hlen
    have h := ih (pre ++ [e]) es hes
    rw [List.length_append, List.length_singleton, List.append_assoc, List.append_assoc] at h
    rw [List.range'_succ, List.foldl_cons, sweep_append, he, recenter_of_tailValues δ he]
    exact h

theorem recenterInPlace_eq (cs : List α) : recenterInPlace δ cs = recenter δ cs := by
  rw [recenterInPlace, List.range_eq_range']
  exact foldl_sweep δ [] cs

end Loop

end Taylor

open Taylor (recenter)

lemma sum_range_eq_sum_Ico {f : ℕ → ℝ} {k : ℕ} (h : ∀ i < k, f i = 0) (n : ℕ) :
    ∑ i ∈ Finset.range n, f i = ∑ i ∈ Finset.Ico k n, f i := by
  symm
  apply Finset.sum_subset
  · intro i hi
    exact Finset.mem_range.2 (Finset.mem_Ico.1 hi).2
  · intro i hn hi
    apply h
    by_contra hk
    exact hi (Finset.mem_Ico.2 ⟨not_lt.1 hk, Finset.mem_range.1 hn⟩)

lemma series_eq_sum {n : ℕ} {cs : List ℝ} (h : cs.length = n) :
    series cs = ∑ i ∈ Finset.range n, C (cs.getD i 0) * X ^ i :=
  (series_eq_toPolynomial h).trans (toPolynomial_eq_sum n cs)

lemma eq_of_series_eq {xs ys : List ℝ} (hl : xs.length = ys.length) (h : series xs = series ys) :
    xs = ys := by
  refine List.ext_getElem hl fun k hx hy => ?_
  rw [← List.getD_eq_getElem _ 0 hx, ← List.getD_eq_getElem _ 0 hy, ← coeff_series,
    ← coeff_series, h]

lemma getD_recenter (δ : ℝ) {n : ℕ} {cs : List ℝ} (h : cs.length = n) (k : ℕ) :
    (recenter δ cs).getD k 0 =
      ∑ i ∈ Finset.Ico k n, (i.choose k : ℝ) * δ ^ (i - k) * cs.getD i 0 := by
  have hterm : ∀ i, (C (cs.getD i 0) * (X + C δ) ^ i).coeff k =
      (i.choose k : ℝ) * δ ^ (i - k) * cs.getD i 0 := fun i => by
    rw [Polynomial.coeff_C_mul, Polynomial.coeff_X_add_C_pow]
    ring
  rw [← coeff_series, series_recenter, series_eq_sum h, Polynomial.sum_comp,
    Polynomial.finsetSum_coeff]
  simp only [Polynomial.mul_comp, Polynomial.C_comp, Polynomial.pow_comp, Polynomial.X_comp, hterm]
  refine sum_range_eq_sum_Ico (fun i hi => ?_) n
  rw [Nat.choose_eq_zero_of_lt hi, Nat.cast_zero, zero_mul, zero_mul]

lemma recenter_eq (δ : ℝ) {n : ℕ} {cs : List ℝ} (h : cs.length = n) :
    recenter δ cs = (List.range n).map fun k =>
      ∑ i ∈ Finset.Ico k n, (i.choose k : ℝ) * δ ^ (i - k) * cs.getD i 0 := by
  refine List.ext_getElem (by rw [length_recenter, h, List.length_map, List.length_range])
    fun k hk _ => ?_
  rw [← List.getD_eq_getElem _ 0 hk, getD_recenter δ h]
  simp

lemma recenter_recenter (δ : ℝ) (cs : List ℝ) : recenter (-δ) (recenter δ cs) = cs := by
  apply eq_of_series_eq
  · rw [length_recenter, length_recenter]
  · rw [series_recenter, series_recenter, Polynomial.comp_assoc]
    simp

namespace Polynomial

variable {f : Polynomial ℝ} {n : ℕ} {axes : List ℕ} {outputs : List (List ℝ)} {a b : ℝ}

/-- A new center that is far enough expands each output about it: the coefficients are the binomial
sums, which is what the loop in place leaves of the old ones, sizes stay as they are, and moving
back to the old center restores the polynomial. -/
theorem new_center_is_expansion (hf : f.Sized n axes outputs) (ha : f.center.toNumber = .ok a)
    {v : Value ℝ} (hv : v.toNumber = .ok b) (h : 2⁻¹ ^ 52 < |b - a|) :
    ∃ g expanded, f.shift v = .ok g ∧ g.order = f.order ∧ g.center = v ∧
      g.Sized n axes expanded ∧
      expanded = outputs.map (fun cs => (List.range n).map fun k =>
        ∑ i ∈ Finset.Ico k n, (i.choose k : ℝ) * (b - a) ^ (i - k) * cs.getD i 0) ∧
      expanded = outputs.map (Taylor.recenterInPlace (b - a)) ∧
      g.shift f.center = .ok f := by
  have hback : 2⁻¹ ^ 52 < |a - b| := by rwa [abs_sub_comm]
  refine ⟨_, _, shift_eq hf.order_eq hf.coefficients_eq ha hv, rfl, rfl, hf.shift (b - a) v, ?_, ?_,
    ?_⟩
  · rw [Taylor.shifted_of_far h]
    exact List.map_congr_left fun cs hcs => recenter_eq (b - a) (hf.length_eq cs hcs)
  · rw [Taylor.shifted_of_far h]
    exact List.map_congr_left fun cs _ => (Taylor.recenterInPlace_eq (b - a) cs).symm
  · -- the way back is as long, so it counts as well
    have hg := hf.shift (b - a) v
    rw [shift_eq hg.order_eq hg.coefficients_eq hv ha, Taylor.shifted_of_far h,
      Taylor.shifted_of_far hback, List.map_map]
    have hid : recenter (a - b) ∘ recenter (b - a) = id := funext fun cs => by
      rw [← neg_sub b a]
      exact recenter_recenter (b - a) cs
    rw [hid, List.map_id, ← hf.coefficients_eq]

theorem new_center_of_parabolas : ∃ f g : Polynomial ℝ,
    create (.int 3) (.list [.list [.real 1, .real 0], .list [.real 0, .real (-1)],
      .list [.real 1, .real 1]]) (.int 1) = .ok f ∧
    f.shift (.real 3) = .ok g ∧ g.coefficients = .powers 3 [2] [[5, 4, 1], [2, 3, 1]] ∧
    g.shift (.int 1) = .ok f := by
  have hfar : (2⁻¹ ^ 52 : ℝ) < |3 - 1| := by norm_num
  obtain ⟨g, expanded, hg, -, -, hsized, hsums, -, hback⟩ :=
    new_center_is_expansion sized_parabolas center_parabolas (v := .real 3) rfl hfar
  refine ⟨_, g, create_parabolas, hg, ?_, hback⟩
  rw [hsized.coefficients_eq, hsums]
  norm_num [List.range_succ, Finset.sum_Ico_succ_top, Finset.sum_range_succ, Nat.choose]

end Polynomial

end KnotSpline
