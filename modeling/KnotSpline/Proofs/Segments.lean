import KnotSpline.Problem.Segments
import KnotSpline.Proofs.FittedCurve
import KnotSpline.Proofs.Lifecycle
import KnotSpline.Proofs.SizedPolynomials

/-! The segments of a fitted curve as polynomials of their own agree with the curve, and so do
their coefficients as polynomials in the time since the start of a segment. -/

open Polynomial (C X derivative)
open scoped Polynomial

namespace KnotSpline

open Taylor (recenter)

namespace Problem

variable {p : Problem ℝ} {x : Solution ℝ}

noncomputable def segmentDerivative (x : Solution ℝ) (i d : ℕ) (t : ℝ) : List ℝ :=
  (x.getD i []).map fun cs => (derivative^[d] (series cs)).eval t

lemma segmentIndex_eq_ok_iff {t : Time ℝ} {i : ℕ} :
    p.segmentIndex t = .ok i ↔ ∃ u, t.toScalar = .ok u ∧ p.segmentOf u = i := by
  rw [segmentIndex, bind_eq_ok_iff]
  simp [pure, Except.pure]

lemma HasSolution.length_row (h : p.HasSolution x) {i : ℕ} {row : List ℝ}
    (hr : row ∈ x.getD i []) : row.length = p.coefficientCount := by
  rcases lt_or_ge i x.length with hi | hi
  · rw [List.getD_eq_getElem _ _ hi] at hr
    exact (h.2 _ (List.getElem_mem hi)).2 row hr
  · rw [List.getD_eq_default _ _ hi] at hr
    cases hr

lemma HasSolution.length_segmentDerivative (h : p.HasSolution x) {i : ℕ} (hi : i < p.segmentCount)
    (d : ℕ) (t : ℝ) : (segmentDerivative x i d t).length = p.outputCount := by
  have hlt : i < x.length := h.1.symm ▸ hi
  rw [segmentDerivative, List.length_map, List.getD_eq_getElem _ _ hlt]
  exact (h.2 _ (List.getElem_mem hlt)).1

lemma interpolate_of_solution (hx : p.phase.solution? = some x) (hs : p.HasSolution x)
    {t : Time ℝ} {u : ℝ} (ht : t.toScalar = .ok u) {order : Value ℝ} {d : ℕ}
    (ho : order.int? = some (d : ℤ)) :
    p.interpolate t order = .ok (segmentDerivative x (p.segmentOf u) d u) := by
  have hv : p.evaluationVector t order = .ok (derivativeVector p.coefficientCount u d) :=
    (p.evaluationVector_of_int? t ho).trans (evaluationVector_of_toScalar ht p.coefficientCount d)
  rw [interpolate, solution, hx, hv, segmentIndex_eq_ok_iff.2 ⟨u, ht, rfl⟩]
  refine congrArg Except.ok (List.map_congr_left fun cs hcs => ?_)
  have hl := hs.length_row hcs
  rw [series_eq_toPolynomial hl]
  exact dot_derivativeVector hl u d

end Problem

lemma evaluate_derivative {n m : ℕ} (hn : 1 ≤ n) {rows : List (List ℝ)}
    (hr : ∀ row ∈ rows, row.length = n) {order v : Value ℝ} {s u : ℝ} (hv : v.toNumber = .ok u)
    (d : ℕ) :
    (Polynomial.derivative ⟨order, .powers n [m] rows, .real s⟩ (.int d) >>= (·.evaluate v)) =
      .ok (.shaped [m] (rows.map fun row => (derivative^[d] (series row)).eval (u - s))) :=
  evaluate_iterate_derivative hn rfl hr rfl rfl hv

namespace Problem

variable {p : Problem ℝ} {x : Solution ℝ}

noncomputable def centeredRows (s : ℝ) (rows : List (List ℝ)) : List (List ℝ) :=
  if Scalar.epsilon < |s| then rows.map (recenter s) else rows

lemma centeredRows_eq (s : ℝ) (rows : List (List ℝ)) :
    centeredRows s rows = rows.map (Taylor.shifted s) := by
  rw [centeredRows]
  split
  · next h => rw [Taylor.shifted_of_far h]
  · next h => rw [Taylor.shifted_of_near h, List.map_id]

lemma shift_segmentPolynomial (p : Problem ℝ) (rows : List (List ℝ)) (s : ℝ) :
    (p.segmentPolynomial rows).shift (.real s) = .ok ⟨.int p.coefficientCount,
      .powers p.coefficientCount [p.outputCount] (centeredRows s rows), .real s⟩ := by
  refine (Polynomial.shift_eq rfl rfl rfl rfl).trans ?_
  rw [sub_zero, centeredRows_eq]
  rfl

lemma segmentPolynomials_eq (hx : p.phase.solution? = some x) (relative : Bool) :
    p.segmentPolynomials relative = .ok ((List.zip p.times x).map fun segment =>
      if relative then ⟨.int p.coefficientCount, .powers p.coefficientCount [p.outputCount]
        (centeredRows segment.1 segment.2), .real segment.1⟩
      else p.segmentPolynomial segment.2) := by
  rw [segmentPolynomials, solution, hx]
  change List.mapM _ _ = pure _
  rw [← List.mapM_pure]
  congr 1
  funext segment
  cases relative with
  | true => exact shift_segmentPolynomial p segment.2 segment.1
  | false => rfl

lemma eval_centeredRows {s : ℝ} (h : s = 0 ∨ 2⁻¹ ^ 52 < |s|) (rows : List (List ℝ)) (d : ℕ)
    (t : ℝ) : (centeredRows s rows).map (fun cs => (derivative^[d] (series cs)).eval (t - s)) =
      rows.map fun cs => (derivative^[d] (series cs)).eval t := by
  rw [centeredRows]
  split
  · rw [List.map_map]
    exact List.map_congr_left fun cs _ => eval_recenter s t cs d
  · next hs =>
    obtain rfl := h.resolve_right hs
    rw [sub_zero]

lemma length_of_mem_centeredRows {n : ℕ} {s : ℝ} {rows : List (List ℝ)}
    (h : ∀ row ∈ rows, row.length = n) : ∀ row ∈ centeredRows s rows, row.length = n := by
  rw [centeredRows_eq]
  intro row hr
  obtain ⟨cs, hcs, rfl⟩ := List.mem_map.1 hr
  rw [Taylor.length_shifted, h cs hcs]

/-- Follows a time since the first knot along the durations, and evaluates the polynomials of the
segment in which it ends at the time since the start of that segment. -/
noncomputable def chained : List ℝ → List (List (List ℝ)) → ℝ → Option (List ℝ)
  | d :: ds, rows :: blocks, u =>
    if u < d then some (rows.map fun cs => (series cs).eval u) else chained ds blocks (u - d)
  | _, _, _ => none

lemma chained_eq {xs : List ℝ} (hs : xs.Pairwise (· < ·)) {blocks : List (List (List ℝ))}
    (hl : blocks.length + 1 = xs.length) {t : ℝ} {i : ℕ} (hi : i + 1 < xs.length)
    (hle : xs.getD i 0 ≤ t) (hlt : t < xs.getD (i + 1) 0) :
    chained (differences xs) blocks (t - xs.getD 0 0) =
      some ((blocks.getD i []).map fun cs => (series cs).eval (t - xs.getD i 0)) := by
  induction i generalizing xs blocks with
  | zero =>
    match xs, blocks, hi, hl with
    | a :: b :: xs, rows :: blocks, _, _ =>
      exact if_pos (sub_lt_sub_right hlt a)
  | succ i ih =>
    match xs, blocks, hi, hl with
    | a :: b :: xs, rows :: blocks, hi, hl =>
      have hb : b ≤ t := (getD_le_getD hs (Nat.le_add_left 1 i) (Nat.lt_of_succ_lt hi)).trans hle
      have htail : chained (differences (b :: xs)) blocks (t - b) = _ :=
        ih hs.of_cons (Nat.succ.inj hl) (Nat.succ_lt_succ_iff.1 hi) hle hlt
      have hstep : chained (differences (a :: b :: xs)) (rows :: blocks) (t - a) =
          chained (differences (b :: xs)) blocks (t - a - (b - a)) :=
        if_neg (not_lt.2 (sub_le_sub_right hb a))
      rw [sub_sub_sub_cancel_right] at hstep
      exact hstep.trans htail

lemma toNumber_of_toScalar {v : Value ℝ} {u : ℝ} (h : (Time.ofValue v).toScalar = .ok u) :
    v.toNumber = .ok u := by
  have hw : ∀ z : ℤ, (Time.whole z : Time ℝ).toScalar = .ok u → (z : ℝ) = u := by
    intro z hz
    rw [Time.toScalar] at hz
    split at hz
    · exact Except.ok.inj hz
    · cases hz
  cases v with
  | real y => exact h
  | int z => exact congrArg Except.ok (hw z h)
  | bool b =>
    refine congrArg Except.ok (Eq.trans ?_ (hw (if b then 1 else 0) h))
    cases b <;> simp [Scalar.ofBool]
  | null | text | list | record | array | problem | foreign => cases h

noncomputable def centeredBlocks (p : Problem ℝ) (x : Solution ℝ) : List (List (List ℝ)) :=
  (List.zip p.times x).map fun (start, rows) => centeredRows start rows

lemma length_zip_times (hk : 2 ≤ p.knotCount) (hs : p.HasSolution x) :
    (List.zip p.times x).length = p.segmentCount := by
  have hl : p.times.length = p.segmentCount + 1 := (segmentCount_add_one hk).symm
  rw [List.length_zip, hl, hs.1]
  omega

lemma HasSolution.getElem?_zip_times (hs : p.HasSolution x) {i : ℕ} {start : ℝ}
    (hi : i < p.segmentCount) (h : p.times[i]? = some start) :
    (List.zip p.times x)[i]? = some (start, x.getD i []) := by
  have hx : i < x.length := hs.1.symm ▸ hi
  refine List.getElem?_zip_eq_some.2 ⟨h, ?_⟩
  rw [List.getD_eq_getElem _ _ hx]
  exact List.getElem?_eq_getElem hx

lemma HasSolution.getD_centeredBlocks (hs : p.HasSolution x) {i : ℕ} {start : ℝ}
    (hi : i < p.segmentCount) (h : p.times[i]? = some start) :
    (p.centeredBlocks x).getD i [] = centeredRows start (x.getD i []) := by
  rw [centeredBlocks, List.getD_eq_getElem?_getD, List.getElem?_map, hs.getElem?_zip_times hi h]
  rfl

lemma chained_centeredBlocks (hz : p.Sized) (hs : p.HasSolution x) {t start : ℝ}
    (hle : p.times.headD 0 ≤ t) (hlt : t < p.times.getLastD 0)
    (hstart : p.times[p.segmentOf t]? = some start) (h : start = 0 ∨ 2⁻¹ ^ 52 < |start|) :
    chained p.durations (p.centeredBlocks x) (t - p.times.headD 0) =
      some (segmentDerivative x (p.segmentOf t) 0 t) := by
  have hinc := pairwise_of_differences hz.increasing
  have hl : p.times.length = p.segmentCount + 1 := (segmentCount_add_one hz.two_le_knotCount).symm
  have howns := segmentOf_owns hinc hz.two_le_knotCount t
  generalize p.segmentOf t = i at *
  have hsi : p.times.getD i 0 = start := by
    rw [List.getD_eq_getElem?_getD, hstart]
    rfl
  have hi := howns.lt
  rw [headD_times] at hle ⊢
  rw [getLastD_times] at hlt
  have hstart_le : p.times.getD i 0 ≤ t := by
    rcases Nat.eq_zero_or_pos i with rfl | h0
    · exact hle
    · exact howns.start_le h0
  have hlt_end : t < p.times.getD (i + 1) 0 := by
    rcases Nat.lt_or_ge (i + 1) p.segmentCount with h1 | h1
    · exact howns.lt_end h1
    · have hlast : i + 1 = p.segmentCount := Nat.le_antisymm hi h1
      rwa [hlast]
  rw [durations, chained_eq hinc (by rw [centeredBlocks, List.length_map,
    length_zip_times hz.two_le_knotCount hs, hl]) (by omega) hstart_le hlt_end,
    hs.getD_centeredBlocks hi hstart, hsi]
  exact congrArg some (eval_centeredRows h (x.getD i []) 0 t)

/-- Each exported polynomial has the values and derivatives of the curve on its segment: those in
absolute time always, those from the start of a segment wherever the start can be told from zero.
The coefficients of the latter are the derivatives at the start by the factorials of their orders,
and chained along the durations they are the curve again. -/
theorem segments_are_curve {ops : List (Operation ℝ)} {id : ℕ} {p : Problem ℝ}
    (hp : (Store.empty.run ops).problems[id]? = some p) {x : Solution ℝ}
    (hx : p.phase.solution? = some x) :
    ∃ (fs gs : List (Polynomial ℝ)) (blocks : List (List (List ℝ))),
      p.segmentPolynomials false = .ok fs ∧ p.segmentPolynomials true = .ok gs ∧
      fs.length = p.segmentCount ∧ gs.length = p.segmentCount ∧
      blocks.length = p.segmentCount ∧
      (∀ i f g start, fs[i]? = some f → gs[i]? = some g → p.times[i]? = some start →
        g.center = .real start ∧
        g.coefficients = .powers p.coefficientCount [p.outputCount] (blocks.getD i []) ∧
        (∀ v d, p.segmentIndex (.ofValue v) = .ok i → ∃ ys,
          p.interpolate (.ofValue v) (.int (d : ℕ)) = .ok ys ∧ ys.length = p.outputCount ∧
          (f.derivative (.int d) >>= (·.evaluate v)) = .ok (.vector ys) ∧
          (start = 0 ∨ 2⁻¹ ^ 52 < |start| →
            (g.derivative (.int d) >>= (·.evaluate v)) = .ok (.vector ys))) ∧
        (start = 0 ∨ 2⁻¹ ^ 52 < |start| → ∀ k < p.coefficientCount,
          (blocks.getD i []).map (fun cs => (k.factorial : ℝ) * cs.getD k 0) =
            segmentDerivative x i k start) ∧
        (¬(start = 0 ∨ 2⁻¹ ^ 52 < |start|) → g.coefficients = f.coefficients)) ∧
      ∀ (time : Time ℝ) (t : ℝ), time.toScalar = .ok t → p.times.headD 0 ≤ t →
        t < p.times.getLastD 0 → ∀ start, p.times[p.segmentOf t]? = some start →
        start = 0 ∨ 2⁻¹ ^ 52 < |start| → ∃ ys, p.interpolate time (.int 0) = .ok ys ∧
          chained p.durations blocks (t - p.times.headD 0) = some ys := by
  have hz := sized_of_mem_run (List.mem_of_getElem? hp)
  have hs := hz.hasSolution x hx
  have hl := length_zip_times hz.two_le_knotCount hs
  refine ⟨_, _, p.centeredBlocks x, segmentPolynomials_eq hx false, segmentPolynomials_eq hx true,
    by rw [List.length_map, hl], by rw [List.length_map, hl],
    by rw [centeredBlocks, List.length_map, hl], ?_, ?_⟩
  · intro i f g start hf hg hstart
    have hi : i < p.segmentCount := by
      rw [← hl, ← List.length_map]
      exact (List.getElem?_eq_some_iff.1 hf).1
    have hrows : ∀ row ∈ x.getD i [], row.length = p.coefficientCount := fun row hr =>
      hs.length_row hr
    rw [List.getElem?_map, hs.getElem?_zip_times hi hstart] at hf hg
    obtain rfl := Option.some_inj.1 hf
    obtain rfl := Option.some_inj.1 hg
    rw [hs.getD_centeredBlocks hi hstart]
    refine ⟨rfl, rfl, fun v d hv => ?_, fun hshift k _ => ?_, fun hshift => ?_⟩
    · obtain ⟨u, hu, rfl⟩ := segmentIndex_eq_ok_iff.1 hv
      have hn := toNumber_of_toScalar hu
      have hlength := hs.length_segmentDerivative hi d u
      refine ⟨_, interpolate_of_solution hx hs hu rfl, hlength, ?_, fun hshift => ?_⟩
      · refine (evaluate_derivative hz.one_le_coefficientCount hrows hn d).trans ?_
        rw [sub_zero]
        exact congrArg Except.ok (NumArray.shaped_eq_vector hlength)
      · refine (evaluate_derivative hz.one_le_coefficientCount (length_of_mem_centeredRows hrows)
          hn d).trans ?_
        rw [eval_centeredRows hshift]
        exact congrArg Except.ok (NumArray.shaped_eq_vector hlength)
    · rw [segmentDerivative, ← eval_centeredRows hshift, sub_self]
      exact List.map_congr_left fun cs _ => factorial_mul_getD cs k
    · exact congrArg (Coefficients.powers _ _) (if_neg fun h => hshift (.inr h))
  · intro time t ht hle hlt start hstart hshift
    exact ⟨_, interpolate_of_solution hx hs ht rfl,
      chained_centeredBlocks hz hs hle hlt hstart hshift⟩

lemma problem_run_line {a b : ℝ} (h : a < b) (y v : ℝ) :
    (Store.empty.run [.load (lineRecord a b y v)]).problems[0]? =
      some { line a b with rowIndex := 2, phase := .loaded [[[y, v]]] } := by
  rw [Store.run, List.foldl_cons, List.foldl_nil, Store.problems_after_load (ofRecord_line h y v)]
  rfl

theorem segments_of_line_are_curve : ∃ (p : Problem ℝ) (x : Solution ℝ) (f g : Polynomial ℝ),
    (Store.empty.run [.load (lineRecord (1 : ℝ) 3 3 4)]).problems[0]? = some p ∧
    p.phase.solution? = some x ∧ p.segmentPolynomials false = .ok [f] ∧
    p.segmentPolynomials true = .ok [g] ∧ g.center = .real 1 ∧
    p.interpolate (.given 2) (.int 0) = .ok [11] ∧
    (f.derivative (.int 0) >>= (·.evaluate (.real 2))) = .ok (.vector [11]) ∧
    (g.derivative (.int 0) >>= (·.evaluate (.real 2))) = .ok (.vector [11]) := by
  have hp := problem_run_line (by norm_num : (1 : ℝ) < 3) 3 4
  obtain ⟨fs, gs, blocks, hf, hg, hfs, hgs, -, hsegments, -⟩ := segments_are_curve hp rfl
  obtain ⟨f, rfl⟩ := List.length_eq_one_iff.1 hfs
  obtain ⟨g, rfl⟩ := List.length_eq_one_iff.1 hgs
  obtain ⟨hcenter, -, hvalues, -, -⟩ := hsegments 0 f g 1 rfl rfl rfl
  have hz := sized_of_mem_run (List.mem_of_getElem? hp)
  have hs := hz.hasSolution _ rfl
  have howns := segmentOf_owns (isChain_of_differences hz.increasing).pairwise hz.two_le_knotCount 2
  have hfirst := Nat.lt_one_iff.1 howns.lt
  have htwo : (Time.ofValue (.real (2 : ℝ))).toScalar = .ok 2 := rfl
  obtain ⟨ys, hys, -, hf0, hg0⟩ :=
    hvalues (.real 2) 0 (segmentIndex_eq_ok_iff.2 ⟨2, htwo, hfirst⟩)
  have heleven := interpolate_of_solution rfl hs htwo
    (show (Value.int 0).int? = some (0 : ℕ) from rfl)
  rw [hfirst] at heleven
  obtain rfl := Except.ok.inj (hys.symm.trans heleven)
  have hvalue : segmentDerivative [[[3, 4]]] 0 0 2 = [11] := by
    change [(series [3, 4]).eval 2] = [11]
    rw [← horner_eq]
    simp only [Taylor.horner]
    norm_num
  rw [hvalue] at heleven hf0 hg0
  exact ⟨_, _, f, g, hp, rfl, hf, hg, hcenter, heleven, hf0, hg0 (.inr (by norm_num))⟩

end Problem

end KnotSpline
