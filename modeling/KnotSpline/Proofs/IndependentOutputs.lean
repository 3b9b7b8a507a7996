import KnotSpline.Proofs.ConstraintOrder
import KnotSpline.Proofs.OutputChoice

/-! The outputs of a problem are solved independently of each other. One triangularization of the
left sides serves them all, and each right side is reflected and substituted by itself. -/

namespace KnotSpline

variable {chosen : List ℕ}

lemma NumArray.size_filter_pos (d m : ℕ) :
    size ([d, m].filter (0 < ·)) = max 1 d * max 1 m := by
  have hmax : ∀ k : ℕ, max 1 k = if 0 < k then k else 1 := by
    intro k
    split <;> omega
  rw [hmax, hmax, List.filter_cons, List.filter_singleton]
  by_cases hd : 0 < d <;> by_cases hm : 0 < m <;> simp [size, hd, hm]

namespace Problem

section Create

variable {α : Type} [Scalar α] {p : Problem α}

omit [Scalar α] in
lemma checkExtents_of_le {n d m m' : ℕ} (hle : m' ≤ m)
    (h : checkExtents n d m = (.ok () : Except (Fault α) Unit)) :
    checkExtents n d m' = (.ok () : Except (Fault α) Unit) := by
  simp only [checkExtents, bind_eq_ok_iff] at h ⊢
  obtain ⟨_, hn, _, hd, hm⟩ := h
  refine ⟨_, hn, _, hd, ?_⟩
  rw [NumArray.checkShape_eq_ok_iff, NumArray.size_filter_pos] at hm ⊢
  obtain ⟨hbytes, hroom⟩ := hm
  constructor
  · refine lt_of_le_of_lt ?_ hbytes
    gcongr
  · refine le_trans ?_ hroom
    exact Nat.mul_le_mul_left d (Nat.mul_le_mul_right 1 hle)

lemma create_restrict {times coefficientCount outputCount metadata : Value α}
    (hp : create times coefficientCount outputCount metadata = .ok p)
    (hl : chosen.length ≤ p.outputCount) :
    create times coefficientCount (.int chosen.length) metadata = .ok (p.restrict chosen) := by
  simp only [create, bind_eq_ok_iff] at hp ⊢
  obtain ⟨knots, hk, n, hn, m, hm, u, hu, fields, hf, hp⟩ := hp
  obtain rfl := Except.ok.inj hp
  refine ⟨knots, hk, n, hn, chosen.length, ?_, u, checkExtents_of_le hl hu, fields, hf, ?_⟩
  · exact (count_eq_ok_iff le_rfl).2 ⟨rfl, Int.natCast_nonneg _⟩
  · simp only [restrict, Phase.restrict, emptySystem, List.map_replicate, Equation.restrict,
      pick_replicate]
    rfl

end Create

section Fit

lemma triangular_restrict (n : ℕ) (system : List (Equation ℝ)) :
    triangular n (system.map (Equation.restrict chosen)) = triangular n system := by
  rw [triangular, List.map_map]
  rfl

lemma solve_restrict (n : ℕ) (system : List (Equation ℝ)) {j : ℕ} (hj : j < chosen.length) :
    solve n (system.map (Equation.restrict chosen)) j = solve n system chosen[j] := by
  have hcolumn : Table.column ((system.map (Equation.restrict chosen)).map Equation.right) j =
      Table.column (system.map Equation.right) chosen[j] := by
    simp only [Table.column, List.map_map]
    exact List.map_congr_left fun e _ => getD_pick e.right hj
  rw [solve, triangular_restrict, hcolumn, solve]

lemma solutions_restrict (n : ℕ) (system : List (Equation ℝ)) {m : ℕ}
    (h : ∀ r ∈ chosen, r < m) :
    (List.range chosen.length).map (solve n (system.map (Equation.restrict chosen))) =
      pick chosen [] ((List.range m).map (solve n system)) := by
  rw [pick_map_range h]
  apply List.ext_getElem (by simp)
  intro j hj _
  rw [List.length_map, List.length_range] at hj
  simp [solve_restrict n system hj]

lemma segmentBlocks_restrict (p : Problem ℝ) (columns : List (List ℝ)) :
    (p.restrict chosen).segmentBlocks (pick chosen [] columns) =
      (p.segmentBlocks columns).map (pick chosen []) := by
  rw [segmentBlocks, segmentBlocks, List.map_map]
  refine List.map_congr_left fun i _ => ?_
  exact (pick_map (by simp) columns).symm

lemma fit_of_rowIndex_lt {p : Problem ℝ} {system : List (Equation ℝ)}
    (hs : p.phase.system? = some system) (hr : p.rowIndex < p.dimension) :
    p.fit = .error (.underdetermined p.rowIndex p.dimension) := by
  rw [fit, hs]
  exact if_pos hr

lemma fit_of_lt_rowIndex {p : Problem ℝ} {system : List (Equation ℝ)}
    (hs : p.phase.system? = some system) (hr : p.dimension < p.rowIndex) :
    p.fit = .error (.overdetermined p.rowIndex p.dimension) := by
  rw [fit, hs]
  exact (if_neg hr.not_gt).trans (if_pos hr)

lemma fit_of_isTolerance {p : Problem ℝ} (ht : IsTolerance p.rankTolerance)
    {system : List (Equation ℝ)} (hs : p.phase.system? = some system)
    (hr : p.rowIndex = p.dimension) : ∃ k,
    p.rank (triangular p.dimension system) = .ok k ∧
    p.fit = if k < p.dimension then .error (.singular k p.dimension)
      else .ok { p with
        phase := .fitted system (p.segmentBlocks
          ((List.range p.outputCount).map (solve p.dimension system))) } := by
  have hself : (triangular p.dimension system).map (fun s => |s.diagonal|) = _ := rfl
  obtain ⟨bound, h0, hrank, -⟩ := ht.exists_bound p hself
  have hlt := Step.rank_lt_iff bound (triangular p.dimension system)
  rw [triangular, Step.length_factor, ← triangular] at hlt
  refine ⟨_, hrank, ?_⟩
  rw [p.fit_eq hs hr, show p.rank _ = _ from hrank]
  dsimp only [bind, Except.bind]
  by_cases hk : Step.rank bound (triangular p.dimension system) < p.dimension
  · rw [if_pos hk, if_pos hk]
  · rw [if_neg hk, if_neg hk, if_neg]
    rintro ⟨-, s, hs, hz⟩
    exact hk (hlt.2 ⟨s, hs, by rwa [hz, abs_zero]⟩)

theorem fit_restrict {p : Problem ℝ} (ht : IsTolerance p.rankTolerance)
    (h : ∀ r ∈ chosen, r < p.outputCount) :
    (p.restrict chosen).fit = p.fit.map (restrict chosen) := by
  have hphase := Phase.system?_restrict chosen p.phase
  cases hs : p.phase.system? with
  | none =>
    rw [hs] at hphase
    rw [fit, fit, restrict, hphase, hs]
    rfl
  | some system =>
    rw [hs] at hphase
    rcases lt_trichotomy p.rowIndex p.dimension with hr | hr | hr
    · rw [fit_of_rowIndex_lt hs hr, fit_of_rowIndex_lt (p := p.restrict chosen) hphase hr]
      rfl
    · obtain ⟨k, hk, hfit⟩ := fit_of_isTolerance ht hs hr
      obtain ⟨k', hk', hfit'⟩ := fit_of_isTolerance (p := p.restrict chosen) ht hphase hr
      have hsame : p.rank (triangular p.dimension system) = .ok k' := by
        rwa [← triangular_restrict p.dimension system]
      obtain rfl := Except.ok.inj (hk.symm.trans hsame)
      have hblocks : (p.restrict chosen).segmentBlocks ((List.range chosen.length).map
          (solve p.dimension (system.map (Equation.restrict chosen)))) =
          (p.segmentBlocks ((List.range p.outputCount).map (solve p.dimension system))).map
            (pick chosen []) := by
        rw [solutions_restrict _ _ h, segmentBlocks_restrict]
      rw [hfit, hfit']
      change ite (k < p.dimension) _ _ = _
      split
      · rfl
      · exact congrArg (fun x => Except.ok { p.restrict chosen with
          phase := .fitted (system.map (Equation.restrict chosen)) x }) hblocks
    · rw [fit_of_lt_rowIndex hs hr, fit_of_lt_rowIndex (p := p.restrict chosen) hphase hr]
      rfl

end Fit

/-- The problem for some outputs without the others accepts the same requests, and comes to the same
system and the same coefficients for these outputs, or to the same fault. The values for other
outputs make no difference to them. -/
theorem outputs_are_independent {times coefficientCount outputCount metadata : Value ℝ}
    {p : Problem ℝ} (hp : create times coefficientCount outputCount metadata = .ok p)
    {chosen : List ℕ} (hn : chosen.Nodup) (h : ∀ r ∈ chosen, r < p.outputCount)
    {rs rs' : List (Request ℝ)}
    (hrs : List.Forall₂ (Request.Restricts chosen p.outputCount) rs rs') {tolerance : Value ℝ}
    (ht : IsTolerance tolerance) :
    create times coefficientCount (.int chosen.length) metadata = .ok (p.restrict chosen) ∧
    (∀ i r r', rs[i]? = some r → rs'[i]? = some r' →
      (((p.restrict chosen).attemptAll (rs'.take i)).Accepts r' ↔
        (p.attemptAll (rs.take i)).Accepts r)) ∧
    (p.restrict chosen).attemptAll rs' = (p.attemptAll rs).restrict chosen ∧
    fit { (p.restrict chosen).attemptAll rs' with rankTolerance := tolerance } =
      (fit { p.attemptAll rs with rankTolerance := tolerance }).map (restrict chosen) ∧
    ∀ rs₂, List.Forall₂ (Request.Restricts chosen p.outputCount) rs₂ rs' →
      (fit { p.attemptAll rs₂ with rankTolerance := tolerance }).map (restrict chosen) =
        (fit { p.attemptAll rs with rankTolerance := tolerance }).map (restrict chosen) := by
  have hl : chosen.length ≤ p.outputCount := by
    have hsub : chosen.Subperm (List.range p.outputCount) :=
      hn.subperm fun r hr => List.mem_range.2 (h r hr)
    exact hsub.length_le.trans_eq List.length_range
  have hfit : ∀ rs, List.Forall₂ (Request.Restricts chosen p.outputCount) rs rs' →
      fit { (p.restrict chosen).attemptAll rs' with rankTolerance := tolerance } =
        (fit { p.attemptAll rs with rankTolerance := tolerance }).map (restrict chosen) := by
    intro rs hrs
    rw [attemptAll_restrict hrs]
    refine fit_restrict (p := { p.attemptAll rs with rankTolerance := tolerance }) ht ?_
    rwa [show _ = p.outputCount from outputCount_attemptAll p rs]
  refine ⟨create_restrict hp hl, ?_, attemptAll_restrict hrs, hfit rs hrs, fun rs₂ hrs₂ => ?_⟩
  · intro i r r' hr hr'
    obtain ⟨hi, rfl⟩ := List.getElem?_eq_some_iff.1 hr
    obtain ⟨hi', rfl⟩ := List.getElem?_eq_some_iff.1 hr'
    rw [attemptAll_restrict (List.forall₂_take i hrs)]
    refine accepts_restrict_iff ?_
    rw [outputCount_attemptAll]
    exact hrs.get hi hi'
  · rw [← hfit rs₂ hrs₂, hfit rs hrs]

noncomputable def twoLines (a b : ℝ) : Problem ℝ :=
  { line a b with outputCount := 2, phase := .building (emptySystem 2 2) }

lemma create_twoLines {a b : ℝ} (h : a < b) :
    create (.list [.real a, .real b]) (.int 2) (.int 2) (.record []) = .ok (twoLines a b) := by
  have hc := create_line h
  simp only [create, bind_eq_ok_iff] at hc ⊢
  obtain ⟨knots, hk, n, hn, m, -, -, -, fields, hf, hp⟩ := hc
  obtain ⟨rfl, rfl, -, -, -, -, rfl⟩ := Problem.mk.inj (Except.ok.inj hp)
  exact ⟨_, hk, _, hn, 2, rfl, (), rfl, _, hf, rfl⟩

theorem second_of_two_lines : ∃ q q',
    create (.list [.real 1, .real 2]) (.int 2) (.int 2) (.record []) = .ok (twoLines 1 2) ∧
    [1].Nodup ∧ (∀ r ∈ [1], r < (twoLines 1 2).outputCount) ∧
    List.Forall₂ (Request.Restricts [1] (twoLines 1 2).outputCount)
      [.constant (.int 0) (.int 0) (.list [.real 5, .real 3]), .continuity (.int 0) (.int 0),
        .constant (.int 0) (.int 1) (.list [.real 6, .real 4])] (lineRequests 3 4) ∧
    IsTolerance (.real 0) ∧
    fit { (twoLines 1 2).attemptAll
      [.constant (.int 0) (.int 0) (.list [.real 5, .real 3]), .continuity (.int 0) (.int 0),
        .constant (.int 0) (.int 1) (.list [.real 6, .real 4])] with
      rankTolerance := .real 0 } = .ok q ∧
    fit { (line 1 2).attemptAll (lineRequests 3 4) with rankTolerance := .real 0 } = .ok q' ∧
    q.restrict [1] = q' := by
  have hc := create_twoLines (one_lt_two : (1 : ℝ) < 2)
  have hn : [1].Nodup := List.nodup_singleton 1
  have hr : ∀ r ∈ [1], r < (twoLines 1 2).outputCount := by
    intro r hr
    rw [List.mem_singleton.1 hr]
    exact Nat.one_lt_two
  have hconstant : ∀ (d : ℤ) (x y : ℝ), Request.Restricts [1] (twoLines 1 2).outputCount
      (.constant (.int 0) (.int d) (.list [.real x, .real y]))
      (.constant (.int 0) (.int d) (.real y)) := by
    intro d x y
    have hread : (Value.list ([x, y].map .real)).Reads 2 [x, y] :=
      Value.Reads.reals_iff.2 ⟨rfl, rfl⟩
    exact Request.restricts_of_reads hread (.real y) _ _
  have hrs := List.Forall₂.cons (hconstant 0 5 3) (.cons (.continuity (.int 0) (.int 0))
    (.cons (hconstant 1 6 4) .nil))
  have ht : IsTolerance (.real 0) := .inr ⟨0, rfl, le_rfl⟩
  obtain ⟨-, -, -, hfit, -⟩ := outputs_are_independent hc hn hr hrs ht
  have h0 : (Value.real 0 : Value ℝ).toNumber = .ok 0 := rfl
  obtain ⟨q', hq'⟩ := exists_fit_line one_pos one_lt_two 3 4 h0
  obtain ⟨q, hq, hqr⟩ := map_eq_ok_iff.1 (hfit.symm.trans hq')
  exact ⟨q, q', hc, hn, hr, hrs, ht, hq, hq', hqr⟩

end Problem

end KnotSpline
