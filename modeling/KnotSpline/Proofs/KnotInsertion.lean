import KnotSpline.Proofs.Energy
import KnotSpline.Proofs.FittedCurve
import KnotSpline.Proofs.Homogeneous
import KnotSpline.Proofs.Insertion

/-! Another knot with full continuity leaves the curve as it is. Both parts of the segment that it
divides have the same polynomial, so that the splines of both problems correspond to each other and
the rows of the knot are all that is added to the rank. -/

open Polynomial (derivative degreeLT)
open scoped Polynomial

namespace KnotSpline.Problem

lemma interpolate_congr {α : Type} [Scalar α] {p q : Problem α} {x y : Solution α}
    (hx : p.phase.solution? = some x) (hy : q.phase.solution? = some y)
    (hn : p.coefficientCount = q.coefficientCount)
    (h : ∀ u, x.getD (p.segmentOf u) [] = y.getD (q.segmentOf u) []) (t : Time α)
    (order : Value α) : p.interpolate t order = q.interpolate t order := by
  have hv : p.evaluationVector t order = q.evaluationVector t order := by
    rw [evaluationVector, evaluationVector, hn]
  rw [interpolate, interpolate, solution, solution, hx, hy, hv, segmentIndex, segmentIndex]
  cases q.evaluationVector t order with
  | error e => rfl
  | ok v =>
    cases t.toScalar with
    | error e => rfl
    | ok u =>
      dsimp only [bind, Except.bind, pure, Except.pure]
      cases Scalar.isNaN u with
      | true => rfl
      | false => exact congrArg (fun block => Except.ok (block.map (dot v))) (h u)

variable {p : Problem ℝ} {m : ℕ} {cs cs' : List (Constraint ℝ)}

section Splines

variable (τ : ℝ) (hm : m < p.segmentCount)

def wholeSegment (s : Fin (p.insertKnot m τ).segmentCount) : Fin p.segmentCount :=
  ⟨whole m s, whole_lt hm (s.isLt.trans_eq (segmentCount_insertKnot hm τ))⟩

noncomputable def skipSegment (s : Fin p.segmentCount) : Fin (p.insertKnot m τ).segmentCount :=
  ⟨skip m s, ((skip_le m s).trans_lt (Nat.succ_lt_succ s.isLt)).trans_eq
    (segmentCount_insertKnot hm τ).symm⟩

lemma wholeSegment_skipSegment (s : Fin p.segmentCount) :
    wholeSegment τ hm (skipSegment τ hm s) = s :=
  Fin.ext (whole_skip m s)

noncomputable def divide : p.Spline →ₗ[ℝ] (p.insertKnot m τ).Spline :=
  LinearMap.funLeft ℝ (degreeLT ℝ p.coefficientCount) (wholeSegment τ hm)

lemma divide_injective : Function.Injective (divide τ hm) :=
  LinearMap.funLeft_injective_of_surjective _ _ _ fun s => ⟨_, wholeSegment_skipSegment τ hm s⟩

lemma divide_apply (f : p.Spline) (s : Fin (p.insertKnot m τ).segmentCount) :
    divide τ hm f s = f (wholeSegment τ hm s) := rfl

lemma exists_segment_before {k : ℕ} (s : Fin p.segmentCount) (hs : (s : ℕ) + 1 = k) :
    ∃ s' : Fin (p.insertKnot m τ).segmentCount,
      (s' : ℕ) + 1 = skip m k ∧ wholeSegment τ hm s' = s := by
  have hk : skip m k ≤ k + 1 := skip_le m k
  have h0 : skip m k ≠ 0 := mt skip_eq_zero_iff.1 (by omega)
  have hlt : skip m k - 1 < (p.insertKnot m τ).segmentCount := by
    rw [segmentCount_insertKnot hm]
    omega
  have hadd : skip m k - 1 + 1 = skip m k := Nat.sub_add_cancel (Nat.pos_of_ne_zero h0)
  refine ⟨⟨_, hlt⟩, hadd, Fin.ext (Nat.succ_injective ?_)⟩
  exact (whole_add_one hadd).trans hs.symm

lemma exists_segment_after {k : ℕ} (s : Fin p.segmentCount) (hs : (s : ℕ) = k) :
    ∃ s' : Fin (p.insertKnot m τ).segmentCount,
      (s' : ℕ) = skip m k ∧ wholeSegment τ hm s' = s :=
  ⟨skipSegment τ hm s, congrArg (skip m) hs, wholeSegment_skipSegment τ hm s⟩

lemma wholeSegment_after {k : ℕ} (s : Fin (p.insertKnot m τ).segmentCount)
    (hs : (s : ℕ) = skip m k) : (wholeSegment τ hm s : ℕ) = k :=
  (congrArg (whole m) hs).trans (whole_skip m k)

lemma holds_divide (y : ℝ) (f : p.Spline) (c : Constraint ℝ) :
    (p.insertKnot m τ).Holds y (divide τ hm f) (c.skipKnot m) ↔ p.Holds y f c := by
  cases c with
  | constant knot order target =>
    simp only [Holds, Constraint.skipKnot, getD_times_skip, divide_apply]
    constructor
    · rintro h s (hs | hs)
      · obtain ⟨s', hs', rfl⟩ := exists_segment_before τ hm s hs
        exact h s' (.inl hs')
      · obtain ⟨s', hs', rfl⟩ := exists_segment_after τ hm s hs
        exact h s' (.inr hs')
    · rintro h s (hs | hs)
      · exact h _ (.inl (whole_add_one hs))
      · exact h _ (.inr (wholeSegment_after τ hm s hs))
  | continuity knot order =>
    simp only [Holds, Constraint.skipKnot, getD_times_skip, divide_apply]
    constructor
    · intro h s s' hs hs'
      obtain ⟨i, hi, rfl⟩ := exists_segment_before τ hm s hs
      obtain ⟨i', hi', rfl⟩ := exists_segment_after τ hm s' hs'
      exact h i i' hi hi'
    · intro h s s' hs hs'
      exact h _ _ (whole_add_one hs) (wholeSegment_after τ hm s' hs')

lemma holds_continuities_divide (y : Constraint ℝ → ℝ) (f : p.Spline) (n : ℕ) :
    ∀ c ∈ Constraint.continuities (m + 1) n,
      (p.insertKnot m τ).Holds (y c) (divide τ hm f) c := by
  refine List.forall_mem_map.2 fun d _ s s' hs hs' => ?_
  have hparts : wholeSegment τ hm s = wholeSegment τ hm s' := by
    apply Fin.ext
    simp only [wholeSegment, whole]
    split <;> split <;> omega
  rw [divide_apply, divide_apply, hparts]

section Joined

variable {τ} {y : Constraint ℝ → ℝ} {f : (p.insertKnot m τ).Spline}
  (h : ∀ c ∈ Constraint.continuities (m + 1) p.coefficientCount,
    (p.insertKnot m τ).Holds (y c) f c)

include hm h

lemma eq_of_continuities {s s' : Fin (p.insertKnot m τ).segmentCount} (hs : (s : ℕ) = m)
    (hs' : (s' : ℕ) = m + 1) : f s = f s' := by
  have hzero : ∀ (i : Fin (p.insertKnot m τ).segmentCount) (d : ℕ), p.coefficientCount ≤ d →
      derivative^[d] (f i : ℝ[X]) = 0 := fun i d hd =>
    Polynomial.iterate_derivative_eq_zero_of_degree_lt
      ((Polynomial.mem_degreeLT.1 (f i).2).trans_le (by exact_mod_cast hd))
  refine Subtype.ext (sub_eq_zero.1 (eq_zero_of_iterate_derivative (t := τ) fun d => ?_))
  rw [Polynomial.iterate_derivative_sub, Polynomial.eval_sub, sub_eq_zero]
  rcases lt_or_ge d p.coefficientCount with hd | hd
  · have hd' := h _ (List.mem_map_of_mem (List.mem_range.2 hd)) s s' (congrArg Nat.succ hs) hs'
    rwa [getD_times_inserted hm] at hd'
  · -- no constraint speaks of these orders, but there no derivative is left
    rw [hzero s d hd, hzero s' d hd]

lemma exists_divide : ∃ g, divide τ hm g = f := by
  refine ⟨fun s => f (skipSegment τ hm s), funext fun s => ?_⟩
  change f (skipSegment τ hm (wholeSegment τ hm s)) = f s
  have hs := skip_whole m s
  split at hs
  · next h1 => exact eq_of_continuities hm h hs h1
  · exact congrArg f (Fin.ext hs)

end Joined

variable (hcs : cs'.Perm (cs.map (Constraint.skipKnot m) ++
  Constraint.continuities (m + 1) p.coefficientCount))

include hm hcs

lemma forall_holds_insertKnot_iff {y : Constraint ℝ → ℝ} (hy : ∀ c, y (c.skipKnot m) = y c)
    (f : (p.insertKnot m τ).Spline) :
    (∀ c ∈ cs', (p.insertKnot m τ).Holds (y c) f c) ↔
      ∃ g, (∀ c ∈ cs, p.Holds (y c) g c) ∧ divide τ hm g = f := by
  simp only [hcs.mem_iff, List.forall_mem_append, List.forall_mem_map, hy]
  constructor
  · rintro ⟨hold, hjoin⟩
    obtain ⟨g, rfl⟩ := exists_divide hm hjoin
    exact ⟨g, fun c hc => (holds_divide τ hm _ g c).1 (hold c hc), rfl⟩
  · rintro ⟨g, hg, rfl⟩
    exact ⟨fun c hc => (holds_divide τ hm _ g c).2 (hg c hc),
      holds_continuities_divide τ hm y g _⟩

lemma map_divide_homogeneous :
    (p.homogeneous cs).map (divide τ hm) = (p.insertKnot m τ).homogeneous cs' := by
  ext f
  exact (forall_holds_insertKnot_iff τ hm hcs (y := fun _ => 0) (fun _ => rfl) f).symm

variable (h : p.Fills cs) (h' : (p.insertKnot m τ).Fills cs')

include h h'

lemma rank_insertKnot : ((p.insertKnot m τ).constraintMatrix cs').rank =
    (p.constraintMatrix cs).rank + p.coefficientCount := by
  have hold := h.rank_add_finrank
  have hnew := h'.rank_add_finrank
  have hker := (Submodule.equivMapOfInjective (divide τ hm) (divide_injective τ hm)
    (p.homogeneous cs)).finrank_eq
  rw [map_divide_homogeneous τ hm hcs] at hker
  have hdim := dimension_insertKnot hm τ
  omega

lemma determines_insertKnot_iff : (p.insertKnot m τ).Determines cs' ↔ p.Determines cs := by
  rw [← h.rank_eq_iff, ← h'.rank_eq_iff, rank_insertKnot τ hm hcs h h', dimension_insertKnot hm]
  exact Nat.add_right_cancel_iff

lemma divide_fittedSpline (hdet : p.Determines cs) (r : ℕ) :
    divide τ hm (p.fittedSpline cs r) = (p.insertKnot m τ).fittedSpline cs' r := by
  have hdet' := (determines_insertKnot_iff τ hm hcs h h').2 hdet
  have hold := h.forall_holds_iff (h.diagonal_ne_zero_iff.2 hdet) r
  have hnew := h'.forall_holds_iff (h'.diagonal_ne_zero_iff.2 hdet') r
  refine (hnew _).1 ((forall_holds_insertKnot_iff τ hm hcs (fun c => ?_) _).2
    ⟨_, (hold _).2 rfl, rfl⟩)
  cases c <;> rfl

lemma interpolate_insertKnot (hf : p.Fresh) (hf' : (p.insertKnot m τ).Fresh)
    (hlo : p.times.getD m 0 < τ) (hhi : τ < p.times.getD (m + 1) 0) {tolerance : Value ℝ}
    (hdet : p.Determines cs) {q q' : Problem ℝ}
    (hq : fit { p.registering cs with rankTolerance := tolerance } = .ok q)
    (hq' : fit { (p.insertKnot m τ).registering cs' with rankTolerance := tolerance } = .ok q')
    (t : Time ℝ) (order : Value ℝ) : q'.interpolate t order = q.interpolate t order := by
  have hinc' := pairwise_of_differences hf'.increasing
  have hblock : ∀ u, ((p.insertKnot m τ).coefficients fun r =>
      (p.insertKnot m τ).fittedSpline cs' r).getD ((p.insertKnot m τ).segmentOf u) [] =
      (p.coefficients fun r => p.fittedSpline cs r).getD (p.segmentOf u) [] := by
    intro u
    have hlt' := (segmentOf_owns hinc' hf'.two_le_knotCount u).lt
    have hnew := getD_coefficients (fun r => (p.insertKnot m τ).fittedSpline cs' r) ⟨_, hlt'⟩
    have hold := getD_coefficients (fun r => p.fittedSpline cs r) (wholeSegment τ hm ⟨_, hlt'⟩)
    rw [← segmentOf_insertKnot hm hf hf' hlo hhi u]
    refine hnew.trans (Eq.trans (congrArg List.ofFn (funext fun r => ?_)) hold.symm)
    rw [← divide_fittedSpline τ hm hcs h h' hdet]
    rfl
  obtain ⟨rfl, -⟩ := h.fit_spec hq
  obtain ⟨rfl, -⟩ := h'.fit_spec hq'
  apply interpolate_congr
  · rfl
  · rfl
  · rfl
  · exact hblock

end Splines

/-- Another knot `τ` inside the segment `m`, with continuity of all orders there, and the same
requests, in any order, with the numbers that their knots have then: if there is room for the new
problem, it accepts all of them, and they fill its system. Without a tolerance it is fitted if and
only if the old one is, and then to the same curve. -/
theorem knot_insertion {times times' coefficientCount outputCount metadata : Value ℝ}
    {p : Problem ℝ} (hp : create times coefficientCount outputCount metadata = .ok p) {m : ℕ}
    (hm : m < p.segmentCount) {τ : ℝ} (hlo : p.times.getD m 0 < τ)
    (hhi : τ < p.times.getD (m + 1) 0)
    (htimes : times'.toArray = .ok (.vector (p.times.insertIdx (m + 1) τ)))
    (hroom : checkExtents p.coefficientCount (p.dimension + p.coefficientCount) p.outputCount =
      (.ok () : Except (Fault ℝ) Unit))
    {rs rs' : List (Request ℝ)} (hfull : (p.attemptAll rs).rowIndex = p.dimension)
    (hperm : rs'.Perm ((p.acceptedRequests rs).map (Request.skipKnot m) ++
      Request.continuities (m + 1) p.coefficientCount))
    {tolerance : Value ℝ} (ht : tolerance.toNumber = .ok 0) :
    ∃ p' full', create times' coefficientCount outputCount metadata = .ok p' ∧
      p'.times = p.times.insertIdx (m + 1) τ ∧
      p'.dimension = p.dimension + p.coefficientCount ∧
      p'.constrainAll rs' = .ok full' ∧ full'.rowIndex = p'.dimension ∧
      ((∃ q q', fit { p.attemptAll rs with rankTolerance := tolerance } = .ok q ∧
        fit { full' with rankTolerance := tolerance } = .ok q' ∧
        (∀ t order, q'.interpolate t order = q.interpolate t order) ∧
        ∀ (t : Time ℝ) (x : ℝ) (order : Value ℝ) (d : ℕ), t.toScalar = .ok x →
          order.int? = some (d : ℤ) → ∃ ys, q.interpolate t order = .ok ys) ∨
      ∃ k < p.dimension,
        fit { p.attemptAll rs with rankTolerance := tolerance } =
          .error (.singular k p.dimension) ∧
        fit { full' with rankTolerance := tolerance } =
          .error (.singular (k + p.coefficientCount) p'.dimension)) := by
  have hp' := create_insertKnot hm hlo hhi hp htimes hroom
  have hf := create_spec hp
  have hf' := create_spec hp'
  have h := hf.fills_accepted hfull
  have hrows := (h.length_eq_sum hf.two_le_knotCount).symm.trans h.length_eq
  obtain ⟨cs', hcs, h', hrun⟩ := hf'.fills_of_insertKnot hm (hf.asks_accepted rs) hrows hperm
  refine ⟨_, _, hp', rfl, dimension_insertKnot hm τ, hrun, h'.rowIndex_eq, ?_⟩
  rw [hf.attemptAll_eq rs]
  have hiff := h.exists_fit_iff ht
  have hiff' := (h'.exists_fit_iff ht).trans (determines_insertKnot_iff τ hm hcs h h')
  by_cases hdet : p.Determines (p.accepted rs)
  · obtain ⟨q, hq⟩ := hiff.2 hdet
    obtain ⟨q', hq'⟩ := hiff'.2 hdet
    left
    refine ⟨q, q', hq, hq', interpolate_insertKnot τ hm hcs h h' hf hf' hlo hhi hdet hq hq',
      fun t x order d htx ho => ?_⟩
    have hlt := (segmentOf_owns (pairwise_of_differences hf.increasing) hf.two_le_knotCount x).lt
    exact ⟨_, h.interpolate_eq hq htx ho (s := ⟨_, hlt⟩) rfl⟩
  · have hsing := h'.fit_eq_singular ht (mt hiff'.1 hdet)
    rw [rank_insertKnot τ hm hcs h h'] at hsing
    right
    exact ⟨_, lt_of_le_of_ne (p.constraintMatrix _).rank_le_width (mt h.rank_eq_iff.1 hdet),
      h.fit_eq_singular ht (mt hiff.1 hdet), hsing⟩

theorem knot_insertion_into_line : ∃ (p' full' q q' : Problem ℝ) (rs' : List (Request ℝ)),
    create (.list [.real 1, .real 2]) (.int 2) (.int 1) (.record []) = .ok (line 1 2) ∧
    create (.list [.real 1, .real (3 / 2), .real 2]) (.int 2) (.int 1) (.record []) = .ok p' ∧
    rs' = (((line 1 2).acceptedRequests (lineRequests 3 4)).map (Request.skipKnot 0) ++
      Request.continuities 1 2).reverse ∧
    p'.constrainAll rs' = .ok full' ∧ p'.dimension = 4 ∧
    fit { (line 1 2).attemptAll (lineRequests 3 4) with rankTolerance := .real 0 } = .ok q ∧
    fit { full' with rankTolerance := .real 0 } = .ok q' ∧
    ∀ t order, q'.interpolate t order = q.interpolate t order := by
  have hc := create_line (one_lt_two : (1 : ℝ) < 2)
  have hfull := rowIndex_attemptAll_line (one_lt_two : (1 : ℝ) < 2) 3 4
  have ht : (Value.real 0 : Value ℝ).toNumber = .ok 0 := rfl
  have hlo : (line 1 2).times.getD 0 0 < 3 / 2 := by
    change (1 : ℝ) < 3 / 2
    norm_num
  have hhi : 3 / 2 < (line 1 2).times.getD (0 + 1) 0 := by
    change (3 / 2 : ℝ) < 2
    norm_num
  have hm : 0 < (line 1 2).segmentCount := Nat.one_pos
  obtain ⟨p', full', hp', -, hdim, hrun, -, h⟩ := knot_insertion hc hm hlo hhi
    (Value.toArray_reals [1, 3 / 2, 2]) rfl hfull (List.reverse_perm _) ht
  rcases h with ⟨q, q', hq, hq', hcurve, -⟩ | ⟨k, -, hk, -⟩
  · exact ⟨p', full', q, q', _, hc, hp', rfl, hrun, hdim, hq, hq', hcurve⟩
  · obtain ⟨q, hq⟩ := exists_fit_line one_pos one_lt_two 3 4 ht
    cases hq.symm.trans hk

end KnotSpline.Problem
