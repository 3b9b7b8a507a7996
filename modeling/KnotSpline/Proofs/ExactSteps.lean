import KnotSpline.Proofs.Extended
import KnotSpline.Proofs.Factorization

/-! Triangularization with finite entries: as over the reals, so that nothing leaves the range. -/

namespace KnotSpline

namespace Extended

lemma dot_finite (xs ys : List ℝ) : dot (xs.map finite) (ys.map finite) = finite (dot xs ys) := by
  have hz : List.zipWith (· * ·) (xs.map finite) (ys.map finite) =
      (List.zipWith (· * ·) xs ys).map finite := by
    rw [List.zipWith_map, List.map_zipWith]
    rfl
  have hf : ∀ (zs : List ℝ) (a : ℝ),
      (zs.map finite).foldl (· + ·) (finite a) = finite (zs.foldl (· + ·) a) := by
    intro zs
    induction zs with
    | nil => exact fun _ => rfl
    | cons z zs ih => exact fun a => ih (a + z)
  rw [dot, hz, zero_eq]
  exact hf _ 0

lemma largest_finite (xs : List ℝ) : largest (xs.map finite) = finite (largest xs) := by
  have hf : ∀ (zs : List ℝ) (a : ℝ),
      (zs.map finite).foldl (fun m x => if m < Scalar.abs x then Scalar.abs x else m) (finite a) =
        finite (zs.foldl (fun m x => if m < Scalar.abs x then Scalar.abs x else m) a) := by
    intro zs
    induction zs with
    | nil => exact fun _ => rfl
    | cons z zs ih =>
      intro a
      rw [List.map_cons, List.foldl_cons, List.foldl_cons, ← ih, abs_finite, Reals.abs_eq]
      congr 1
      by_cases h : a < |z|
      · rw [if_pos h, if_pos ((finite_lt _ _).2 h)]
      · rw [if_neg h, if_neg (mt (finite_lt _ _).1 h)]
  exact hf xs 0

lemma map_div_finite (xs : List ℝ) {y : ℝ} (h : y ≠ 0) :
    (xs.map finite).map (· / finite y) = (xs.map (· / y)).map finite := by
  rw [List.map_map, List.map_map]
  exact List.map_congr_left fun x _ => finite_div x h

lemma norm_finite (xs : List ℝ) : norm (xs.map finite) = finite (norm xs) := by
  rw [norm, norm, largest_finite]
  dsimp only
  rw [isZero_finite]
  by_cases h : largest xs = 0
  · rw [if_pos ((Reals.isZero_iff _).2 h), if_pos ((Reals.isZero_iff _).2 h)]
    rfl
  · rw [if_neg (mt (Reals.isZero_iff _).1 h), if_neg (mt (Reals.isZero_iff _).1 h),
      map_div_finite xs h, dot_finite, sqrt_finite (dot_self_nonneg _)]
    rfl

end Extended

open Extended

namespace Reflection

def finite (r : Reflection ℝ) : Reflection Extended :=
  ⟨r.direction.map Extended.finite, Extended.finite r.scale⟩

lemma finite_apply (r : Reflection ℝ) (xs : List ℝ) :
    r.finite.apply (xs.map Extended.finite) = (r.apply xs).map Extended.finite := by
  rw [apply, apply, finite, dot_finite]
  dsimp only
  rw [List.zipWith_map, List.map_zipWith]
  rfl

lemma ofColumn_finite (xs : List ℝ) : ofColumn (xs.map Extended.finite) =
    ((ofColumn xs).1.finite, Extended.finite (ofColumn xs).2) := by
  cases xs with
  | nil => rfl
  | cons x xs =>
    rw [List.map_cons, ofColumn, ofColumn, ← List.map_cons, norm_finite, norm_finite, isZero_finite]
    by_cases h : norm xs = 0
    · rw [if_pos ((Reals.isZero_iff _).2 h), if_pos ((Reals.isZero_iff _).2 h)]
      simp [finite, one_eq, zero_eq, Function.comp_def]
    · rw [if_neg (mt (Reals.isZero_iff _).1 h), if_neg (mt (Reals.isZero_iff _).1 h)]
      have hp := norm_cons_pos x h
      dsimp only
      by_cases hx : x < 0
      · rw [if_pos hx, if_pos ((finite_lt_zero x).2 hx), finite_sub, finite_sub,
          map_div_finite xs (by linarith), finite_div _ hp.ne']
        rfl
      · rw [if_neg hx, if_neg (mt (finite_lt_zero x).1 hx), neg_finite, finite_sub, finite_sub,
          map_div_finite xs (by linarith), finite_div _ (neg_ne_zero.2 hp.ne')]
        rfl

end Reflection

lemma firstLargest_finite (xs : List ℝ) : firstLargest (xs.map finite) = firstLargest xs := by
  have hgo : ∀ (ys : List ℝ) (best : ℝ) (place next : ℕ),
      firstLargest.go (finite best) place next (ys.map finite) =
        firstLargest.go best place next ys := by
    intro ys
    induction ys with
    | nil => exact fun _ _ _ => rfl
    | cons y ys ih =>
      intro best place next
      rw [List.map_cons, firstLargest.go, firstLargest.go, ih, ih]
      by_cases h : best < y
      · rw [if_pos h, if_pos ((finite_lt _ _).2 h)]
      · rw [if_neg h, if_neg (mt (finite_lt _ _).1 h)]
  cases xs with
  | nil => rfl
  | cons x xs => exact hgo xs x 0 1

lemma takeOut_map {β γ : Type} (f : β → γ) (k : ℕ) (xs : List β) :
    takeOut k (xs.map f) = (takeOut k xs).map f := by
  cases xs with
  | nil => rfl
  | cons x xs =>
    rw [List.map_cons, takeOut, takeOut]
    split
    · rfl
    · rw [List.map_set]

lemma map_map_comm {β γ γ' δ : Type} {f : β → γ} {g : γ → δ} {g' : β → γ'} {f' : γ' → δ}
    (h : ∀ x, g (f x) = f' (g' x)) (xs : List β) : (xs.map f).map g = (xs.map g').map f' := by
  rw [List.map_map, List.map_map]
  exact List.map_congr_left fun x _ => h x

lemma headD_map_finite (xs : List ℝ) : (xs.map finite).headD 0 = finite (xs.headD 0) := by
  cases xs <;> rfl

namespace Step

def finite (s : Step ℝ) : Step Extended :=
  ⟨s.pivot, s.reflection.finite, Extended.finite s.diagonal, s.row.map Extended.finite⟩

lemma ofColumns_finite (columns : List (List ℝ)) :
    ofColumns (columns.map (List.map Extended.finite)) =
      ((ofColumns columns).1.finite, (ofColumns columns).2.map (List.map Extended.finite)) := by
  have hk (k : ℕ) : ((columns.map (List.map Extended.finite))[k]?).getD [] =
      ((columns[k]?).getD []).map Extended.finite := by
    rw [List.getElem?_map]
    cases columns[k]? <;> rfl
  have htails (cs : List (List ℝ)) : (cs.map (List.map Extended.finite)).map List.tail =
      (cs.map List.tail).map (List.map Extended.finite) :=
    map_map_comm (fun _ => List.map_tail.symm) cs
  rw [ofColumns, ofColumns, map_map_comm norm_finite, firstLargest_finite]
  dsimp only
  rw [hk, Reflection.ofColumn_finite, takeOut_map, map_map_comm (Reflection.finite_apply _),
    map_map_comm headD_map_finite, htails]
  rfl

theorem factor_finite (n : ℕ) (columns : List (List ℝ)) :
    factor n (columns.map (List.map Extended.finite)) = (factor n columns).map finite := by
  induction n generalizing columns with
  | zero => rfl
  | succ n ih => rw [factor_succ, factor_succ, ofColumns_finite, ih, List.map_cons]

end Step

end KnotSpline
