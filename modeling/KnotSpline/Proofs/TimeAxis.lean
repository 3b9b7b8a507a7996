import KnotSpline.Proofs.FittedCurve
import KnotSpline.Proofs.Homogeneous
import KnotSpline.Proofs.Retiming

/-! Splines on another clock. The splines of both clocks correspond to each other, with derivatives
in the respective unit of time, so that both systems have the same rank and both curves are the
same. -/

open Polynomial (C X derivative degreeLT)
open scoped Polynomial

namespace KnotSpline

lemma iterate_derivative_comp_affine (a b : ℝ) (f : ℝ[X]) (d : ℕ) :
    derivative^[d] (f.comp (C a * X + C b)) =
      C (a ^ d) * (derivative^[d] f).comp (C a * X + C b) := by
  induction d with
  | zero => simp
  | succ d ih =>
    rw [Function.iterate_succ_apply', ih, Polynomial.derivative_C_mul, Polynomial.derivative_comp,
      Function.iterate_succ_apply', pow_succ, map_mul, mul_assoc]
    simp

lemma eval_iterate_derivative_comp_affine (a b : ℝ) (f : ℝ[X]) (d : ℕ) (t : ℝ) :
    (derivative^[d] (f.comp (C a * X + C b))).eval t =
      a ^ d * (derivative^[d] f).eval (a * t + b) := by
  rw [iterate_derivative_comp_affine]
  simp

lemma comp_affine_mem_degreeLT {n : ℕ} {f : ℝ[X]} (hf : f ∈ degreeLT ℝ n) (a b : ℝ) :
    f.comp (C a * X + C b) ∈ degreeLT ℝ n := by
  rw [Polynomial.mem_degreeLT] at hf ⊢
  by_cases h0 : f = 0
  · simp [h0]
  · have hle : (f.comp (C a * X + C b)).natDegree ≤ f.natDegree :=
      Polynomial.natDegree_comp_le.trans
        ((Nat.mul_le_mul_left _ Polynomial.natDegree_linear_le).trans_eq (Nat.mul_one _))
    have hlt := (Polynomial.natDegree_lt_iff_degree_lt h0).2 hf
    exact Polynomial.degree_le_natDegree.trans_lt (by exact_mod_cast hle.trans_lt hlt)

lemma comp_affine_injective {a : ℝ} (ha : a ≠ 0) (b : ℝ) :
    Function.Injective fun f : ℝ[X] => f.comp (C a * X + C b) := by
  have : Invertible a := invertibleOfNonzero ha
  exact (Polynomial.algEquivCMulXAddC a b).injective

noncomputable def reclock (n : ℕ) {a : ℝ} (ha : a ≠ 0) (b : ℝ) :
    degreeLT ℝ n ≃ₗ[ℝ] degreeLT ℝ n :=
  LinearEquiv.ofInjectiveEndo
    ((Polynomial.aeval (C a * X + C b)).toLinearMap.restrict fun _ hf =>
      comp_affine_mem_degreeLT hf a b)
    fun _ _ h => Subtype.ext (comp_affine_injective ha b (congrArg Subtype.val h))

lemma coe_reclock {n : ℕ} {a : ℝ} (ha : a ≠ 0) (b : ℝ) (f : degreeLT ℝ n) :
    (reclock n ha b f : ℝ[X]) = (f : ℝ[X]).comp (C a * X + C b) := rfl

namespace Problem

variable {p : Problem ℝ} {s c : ℝ} {cs : List (Constraint ℝ)}

section Splines

variable (p) (hs : s ≠ 0) (c)

noncomputable def oldSpline : (p.retime s c).Spline ≃ₗ[ℝ] p.Spline :=
  (LinearEquiv.funCongrLeft ℝ (degreeLT ℝ p.coefficientCount)
    (finCongr (segmentCount_retime s c p).symm)).trans
    (LinearEquiv.piCongrRight fun _ => reclock p.coefficientCount hs c)

end Splines

lemma coe_oldSpline (hs : s ≠ 0) (f : (p.retime s c).Spline) (i : Fin p.segmentCount) :
    (oldSpline p c hs f i : ℝ[X]) =
      (f (Fin.cast (segmentCount_retime s c p).symm i) : ℝ[X]).comp (C s * X + C c) :=
  coe_reclock hs c _

lemma eval_oldSpline (hs : s ≠ 0) (f : (p.retime s c).Spline) {i : Fin p.segmentCount}
    {j : Fin (p.retime s c).segmentCount} (hij : (j : ℕ) = i) (d : ℕ) (t : ℝ) :
    (derivative^[d] (oldSpline p c hs f i : ℝ[X])).eval t =
      s ^ d * (derivative^[d] (f j : ℝ[X])).eval (s * t + c) := by
  obtain rfl : j = Fin.cast (segmentCount_retime s c p).symm i := Fin.ext hij
  rw [coe_oldSpline, eval_iterate_derivative_comp_affine]

lemma holds_oldSpline (hs : s ≠ 0) {k : Constraint ℝ} (hk : p.Admits k) {y y' : ℝ}
    (hy : ∀ knot order target, k = .constant knot order target → y = s ^ order * y')
    (f : (p.retime s c).Spline) :
    p.Holds y (oldSpline p c hs f) k ↔ (p.retime s c).Holds y' f (k.rescale s) := by
  have hcast := segmentCount_retime s c p
  cases k with
  | constant knot order target =>
    have hpow := pow_ne_zero order hs
    simp only [Holds, Constraint.rescale, getD_times_retime hk.1, hy _ _ _ rfl]
    constructor
    · intro h j hj
      have hh := h (j.cast hcast) hj
      rwa [eval_oldSpline hs f (j := j) rfl, mul_right_inj' hpow] at hh
    · intro h i hi
      rw [eval_oldSpline hs f (j := i.cast hcast.symm) rfl, mul_right_inj' hpow]
      exact h _ hi
  | continuity knot order =>
    have hlt : knot < p.knotCount := Nat.lt_of_succ_lt hk.2.1
    have hpow := pow_ne_zero order hs
    simp only [Holds, Constraint.rescale, getD_times_retime hlt]
    constructor
    · intro h j j' hj hj'
      have hh := h (j.cast hcast) (j'.cast hcast) hj hj'
      rwa [eval_oldSpline hs f (j := j) rfl, eval_oldSpline hs f (j := j') rfl,
        mul_right_inj' hpow] at hh
    · intro h i i' hi hi'
      rw [eval_oldSpline hs f (j := i.cast hcast.symm) rfl,
        eval_oldSpline hs f (j := i'.cast hcast.symm) rfl, mul_right_inj' hpow]
      exact h _ _ hi hi'

lemma value_eq_pow_mul_rescale (hs : s ≠ 0) (k : Constraint ℝ) (r : ℕ) :
    ∀ knot order target, k = .constant knot order target →
      k.value r = s ^ order * (k.rescale s).value r := by
  rintro knot order target rfl
  have hmap : (target.map (s ^ (-(order : ℤ)) * ·)).getD r 0 =
      s ^ (-(order : ℤ)) * target.getD r 0 := by
    cases h : target[r]? <;> simp [h]
  rw [Constraint.rescale, Constraint.value, Constraint.value, hmap, ← mul_assoc, zpow_neg,
    zpow_natCast, mul_inv_cancel₀ (pow_ne_zero order hs), one_mul]

lemma map_homogeneous (hs : s ≠ 0) (h : ∀ k ∈ cs, p.Admits k) :
    ((p.retime s c).homogeneous (cs.map (Constraint.rescale s))).map
      (oldSpline p c hs : (p.retime s c).Spline →ₗ[ℝ] p.Spline) = p.homogeneous cs := by
  have hmem : ∀ f, f ∈ (p.retime s c).homogeneous (cs.map (Constraint.rescale s)) ↔
      oldSpline p c hs f ∈ p.homogeneous cs := by
    intro f
    rw [mem_homogeneous, mem_homogeneous, List.forall_mem_map]
    exact forall₂_congr fun k hk =>
      (holds_oldSpline hs (h k hk) (fun _ _ _ _ => (mul_zero _).symm) f).symm
  ext f
  constructor
  · rintro ⟨g, hg, rfl⟩
    exact (hmem g).1 hg
  · intro hf
    refine ⟨(oldSpline p c hs).symm f, (hmem _).2 ?_, (oldSpline p c hs).apply_symm_apply f⟩
    rwa [LinearEquiv.apply_symm_apply]

namespace Fills

variable (h : p.Fills cs) (hs : s ≠ 0)

include h hs

lemma rank_retime (c : ℝ) :
    ((p.retime s c).constraintMatrix (cs.map (Constraint.rescale s))).rank =
      (p.constraintMatrix cs).rank := by
  have hold := h.rank_add_finrank
  have hnew := (h.retime s c).rank_add_finrank
  have hdim := dimension_retime s c p
  rw [← map_homogeneous (c := c) hs h.admits, LinearEquiv.finrank_map_eq] at hold
  omega

lemma determines_retime_iff (c : ℝ) :
    (p.retime s c).Determines (cs.map (Constraint.rescale s)) ↔ p.Determines cs := by
  rw [← h.rank_eq_iff, ← (h.retime s c).rank_eq_iff, h.rank_retime hs, dimension_retime]

lemma fittedSpline_retime (hdet : p.Determines cs) (c : ℝ) (r : ℕ) :
    oldSpline p c hs ((p.retime s c).fittedSpline (cs.map (Constraint.rescale s)) r) =
      p.fittedSpline cs r := by
  have hdet' := (h.determines_retime_iff hs c).2 hdet
  have hold := h.forall_holds_iff (h.diagonal_ne_zero_iff.2 hdet) r
  have hnew := (h.retime s c).forall_holds_iff ((h.retime s c).diagonal_ne_zero_iff.2 hdet') r
  -- the new spline, seen from the old clock, meets the old constraints, and only one spline does
  refine (hold _).1 fun k hk => ?_
  rw [holds_oldSpline hs (h.admits k hk) (value_eq_pow_mul_rescale hs k r)]
  exact (hnew _).2 rfl _ (List.mem_map_of_mem hk)

end Fills

section Lookup

variable (hs : 0 < s)

include hs

lemma pairwise_retime (hinc : p.times.Pairwise (· < ·)) (c : ℝ) :
    (p.retime s c).times.Pairwise (· < ·) := by
  rw [retime, List.pairwise_map]
  apply hinc.imp
  intro a b hab
  gcongr

lemma Owns.retime {t : ℝ} {i : ℕ} (h : p.Owns t i) (c : ℝ) :
    (p.retime s c).Owns (s * t + c) i where
  lt := by
    rw [segmentCount_retime]
    exact h.lt
  start_le := by
    intro h0
    rw [getD_times_retime (h.lt.trans_le (Nat.sub_le _ _))]
    gcongr
    exact h.start_le h0
  lt_end := by
    intro hi
    rw [segmentCount_retime] at hi
    rw [getD_times_retime (hi.trans_le (Nat.sub_le _ _))]
    gcongr
    exact h.lt_end hi

lemma segmentOf_retime (hinc : p.times.Pairwise (· < ·)) (hk : 2 ≤ p.knotCount) (c t : ℝ) :
    (p.retime s c).segmentOf (s * t + c) = p.segmentOf t := by
  have hinc' := pairwise_retime hs hinc c
  have howns := segmentOf_owns hinc' (by rwa [knotCount_retime]) (s * t + c)
  exact howns.unique hinc' ((segmentOf_owns hinc hk t).retime hs c)

end Lookup

lemma Fills.interpolate_retime (h : p.Fills cs) (hf : p.Fresh) (hs : 0 < s) {tolerance : Value ℝ}
    (hdet : p.Determines cs) {q q' : Problem ℝ}
    (hq : fit { p.registering cs with rankTolerance := tolerance } = .ok q)
    (hq' : fit { (p.retime s c).registering (cs.map (Constraint.rescale s)) with
      rankTolerance := tolerance } = .ok q')
    {t t' : Time ℝ} {x : ℝ} (ht : t.toScalar = .ok x) (ht' : t'.toScalar = .ok (s * x + c))
    {order : Value ℝ} {d : ℕ} (ho : order.int? = some (d : ℤ)) :
    ∃ ys, q.interpolate t order = .ok ys ∧
      q'.interpolate t' order = .ok (ys.map (s ^ (-(d : ℤ)) * ·)) := by
  have hinc := pairwise_of_differences hf.increasing
  have hk := hf.two_le_knotCount
  have hlt := (segmentOf_owns hinc hk x).lt
  have hlt' : p.segmentOf x < (p.retime s c).segmentCount := by rwa [segmentCount_retime]
  have hcurve : ∀ r, (derivative^[d] ((p.retime s c).fittedSpline
      (cs.map (Constraint.rescale s)) r ⟨p.segmentOf x, hlt'⟩ : ℝ[X])).eval (s * x + c) =
      s ^ (-(d : ℤ)) *
        (derivative^[d] (p.fittedSpline cs r ⟨p.segmentOf x, hlt⟩ : ℝ[X])).eval x := by
    intro r
    rw [← h.fittedSpline_retime hs.ne' hdet c r,
      eval_oldSpline hs.ne' _ (j := ⟨p.segmentOf x, hlt'⟩) rfl, ← mul_assoc, zpow_neg,
      zpow_natCast, inv_mul_cancel₀ (pow_ne_zero d hs.ne'), one_mul]
  have hs' := segmentOf_retime hs hinc hk c x
  refine ⟨_, h.interpolate_eq hq ht ho (s := ⟨_, hlt⟩) rfl, ?_⟩
  rw [(h.retime s c).interpolate_eq hq' ht' ho (s := ⟨_, hlt'⟩) hs', List.map_ofFn]
  exact congrArg Except.ok (congrArg List.ofFn (funext fun r => hcurve r))

theorem Fills.fit_retime (h : p.Fills cs) (hf : p.Fresh) (hs : 0 < s) (c : ℝ)
    {tolerance : Value ℝ} (ht : tolerance.toNumber = .ok 0) :
    (∃ q q', fit { p.registering cs with rankTolerance := tolerance } = .ok q ∧
      fit { (p.retime s c).registering (cs.map (Constraint.rescale s)) with
        rankTolerance := tolerance } = .ok q' ∧
      ∀ (t t' : Time ℝ) (x : ℝ) (order : Value ℝ) (d : ℕ), t.toScalar = .ok x →
        t'.toScalar = .ok (s * x + c) → order.int? = some (d : ℤ) →
        ∃ ys, q.interpolate t order = .ok ys ∧
          q'.interpolate t' order = .ok (ys.map (s ^ (-(d : ℤ)) * ·))) ∨
    ∃ k < p.dimension,
      fit { p.registering cs with rankTolerance := tolerance } =
        .error (.singular k p.dimension) ∧
      fit { (p.retime s c).registering (cs.map (Constraint.rescale s)) with
        rankTolerance := tolerance } = .error (.singular k p.dimension) := by
  have hiff := h.exists_fit_iff ht
  have hiff' := (h.retime s c).exists_fit_iff ht
  rw [h.determines_retime_iff hs.ne'] at hiff'
  by_cases hdet : p.Determines cs
  · obtain ⟨q, hq⟩ := hiff.2 hdet
    obtain ⟨q', hq'⟩ := hiff'.2 hdet
    left
    exact ⟨q, q', hq, hq', fun t t' x order d ht ht' ho =>
      h.interpolate_retime hf hs hdet hq hq' ht ht' ho⟩
  · have hne := mt h.rank_eq_iff.1 hdet
    have hsing := (h.retime s c).fit_eq_singular ht (mt hiff'.1 hdet)
    rw [h.rank_retime hs.ne', dimension_retime] at hsing
    right
    exact ⟨_, lt_of_le_of_ne (p.constraintMatrix cs).rank_le_width hne,
      h.fit_eq_singular ht (mt hiff.1 hdet), hsing⟩

section Runs

variable {rs rs' : List (Request ℝ)} (hf : p.Fresh) (hf' : (p.retime s c).Fresh) (hs : s ≠ 0)
  (hrs : List.Forall₂ (Request.Rescales s) rs rs')

include hf hf' hs hrs

lemma Fresh.accepted_retime :
    (p.retime s c).accepted rs' = (p.accepted rs).map (Constraint.rescale s) := by
  have h := (Fresh.registrable_nil p).accepted_retime (c := c) hs hrs
  rwa [List.map_nil, hf.registering_nil, hf'.registering_nil] at h

lemma Fresh.accepts_retime_iff {r r' : Request ℝ} (hr : Request.Rescales s r r') :
    ((p.retime s c).attemptAll rs').Accepts r' ↔ (p.attemptAll rs).Accepts r := by
  rw [hf.attemptAll_eq, hf'.attemptAll_eq, hf.accepted_retime hf' hs hrs]
  have h := hf.registrable_accepted rs
  exact ((h.retime s c).accepts_iff r').trans
    ((exists_resolve_retime_iff hs hr _).trans (h.accepts_iff r).symm)

end Runs

/-- On a clock that runs `s` times as fast and has been set ahead by `c`, the problem with the same
requests, values in the new unit of time, accepts what the old one accepts. Without a tolerance both
fits have the same outcome: the same curve, with derivatives in the respective unit of time, or the
same rank. -/
theorem clock_change {times times' coefficientCount outputCount metadata : Value ℝ} {p : Problem ℝ}
    (hp : create times coefficientCount outputCount metadata = .ok p) {s : ℝ} (hs : 0 < s) (c : ℝ)
    (htimes : times'.toArray = times.toArray.map (NumArray.map fun t => s * t + c))
    {rs rs' : List (Request ℝ)} (hrs : List.Forall₂ (Request.Rescales s) rs rs')
    (hfull : (p.attemptAll rs).rowIndex = p.dimension) {tolerance : Value ℝ}
    (ht : tolerance.toNumber = .ok 0) :
    ∃ p', create times' coefficientCount outputCount metadata = .ok p' ∧
      p'.times = p.times.map (fun t => s * t + c) ∧
      (∀ i r r', rs[i]? = some r → rs'[i]? = some r' →
        ((p'.attemptAll (rs'.take i)).Accepts r' ↔ (p.attemptAll (rs.take i)).Accepts r)) ∧
      ((∃ q q', fit { p.attemptAll rs with rankTolerance := tolerance } = .ok q ∧
        fit { p'.attemptAll rs' with rankTolerance := tolerance } = .ok q' ∧
        ∀ (t t' : Time ℝ) (x : ℝ) (order : Value ℝ) (d : ℕ), t.toScalar = .ok x →
          t'.toScalar = .ok (s * x + c) → order.int? = some (d : ℤ) →
          ∃ ys, q.interpolate t order = .ok ys ∧
            q'.interpolate t' order = .ok (ys.map (s ^ (-(d : ℤ)) * ·))) ∨
      ∃ k < p.dimension,
        fit { p.attemptAll rs with rankTolerance := tolerance } =
          .error (.singular k p.dimension) ∧
        fit { p'.attemptAll rs' with rankTolerance := tolerance } =
          .error (.singular k p.dimension)) := by
  have hp' := create_retime hp hs htimes
  have hf := create_spec hp
  have hf' := create_spec hp'
  refine ⟨_, hp', rfl, ?_, ?_⟩
  · intro i r r' hr hr'
    refine hf.accepts_retime_iff hf' hs.ne' (List.forall₂_take i hrs) ?_
    obtain ⟨hi, rfl⟩ := List.getElem?_eq_some_iff.1 hr
    obtain ⟨hi', rfl⟩ := List.getElem?_eq_some_iff.1 hr'
    exact hrs.get hi hi'
  · have hrun' := hf'.attemptAll_eq rs'
    rw [hf.accepted_retime hf' hs.ne' hrs] at hrun'
    rw [hrun', hf.attemptAll_eq rs]
    exact (hf.fills_accepted hfull).fit_retime hf hs c ht

lemma rescales_real (s : ℝ) (knot : Value ℝ) (d : ℤ) (y : ℝ) :
    Request.Rescales s (.constant knot (.int d) (.real y))
      (.constant knot (.int d) (.real (s ^ (-d) * y))) := by
  refine .constant fun e he => ?_
  obtain rfl : d = e := Option.some_inj.1 he
  rfl

theorem clock_change_of_line : ∃ p' q q' ys,
    create (.list [.real 1, .real 2]) (.int 2) (.int 1) (.record []) = .ok (line 1 2) ∧
    (Value.list [.real 5, .real 7]).toArray =
      (Value.list [.real 1, .real 2]).toArray.map (NumArray.map fun t : ℝ => 2 * t + 3) ∧
    List.Forall₂ (Request.Rescales 2) (lineRequests 3 4) (lineRequests 3 2) ∧
    ((line 1 2).attemptAll (lineRequests 3 4)).rowIndex = (line 1 2).dimension ∧
    (Value.real 0 : Value ℝ).toNumber = .ok 0 ∧
    create (.list [.real 5, .real 7]) (.int 2) (.int 1) (.record []) = .ok p' ∧
    fit { (line 1 2).attemptAll (lineRequests 3 4) with rankTolerance := .real 0 } = .ok q ∧
    fit { p'.attemptAll (lineRequests 3 2) with rankTolerance := .real 0 } = .ok q' ∧
    q.interpolate (.given 1) (.int 1) = .ok ys ∧
    q'.interpolate (.given 5) (.int 1) = .ok (ys.map ((2 : ℝ) ^ (-((1 : ℕ) : ℤ)) * ·)) := by
  have hc := create_line (one_lt_two : (1 : ℝ) < 2)
  have htimes : (Value.list [.real 5, .real 7]).toArray =
      (Value.list [.real 1, .real 2]).toArray.map (NumArray.map fun t : ℝ => 2 * t + 3) := by
    have ha : ∀ a b : ℝ, (Value.list [.real a, .real b]).toArray = .ok (.vector [a, b]) :=
      fun a b => Value.toArray_reals [a, b]
    rw [ha, ha]
    norm_num [Except.map, NumArray.map, NumArray.vector]
  have hrs : List.Forall₂ (Request.Rescales 2) (lineRequests 3 4) (lineRequests 3 2) := by
    have hvalue := rescales_real 2 (.int 0) 0 3
    have hslope := rescales_real 2 (.int 0) 1 4
    norm_num at hvalue hslope
    exact .cons hvalue (.cons (.continuity _ _) (.cons hslope .nil))
  have hfull := rowIndex_attemptAll_line (one_lt_two : (1 : ℝ) < 2) 3 4
  have ht : (Value.real 0 : Value ℝ).toNumber = .ok 0 := rfl
  obtain ⟨p', hp', -, -, h⟩ := clock_change hc two_pos 3 htimes hrs hfull ht
  rcases h with ⟨q, q', hq, hq', h⟩ | ⟨k, -, hk, -⟩
  · have h5 : (5 : ℝ) = 2 * 1 + 3 := by norm_num
    obtain ⟨ys, hy, hy'⟩ := h (.given 1) (.given 5) 1 (.int 1) 1 rfl (congrArg Except.ok h5) rfl
    exact ⟨p', q, q', ys, hc, htimes, hrs, hfull, ht, hp', hq, hq', hy, hy'⟩
  · obtain ⟨q, hq⟩ := exists_fit_line one_pos one_lt_two 3 4 ht
    cases hq.symm.trans hk

end Problem

end KnotSpline
