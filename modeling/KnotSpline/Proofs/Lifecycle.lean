import KnotSpline.Proofs.Arrays
import KnotSpline.Proofs.Lookup
import KnotSpline.Proofs.Refusals
import KnotSpline.Proofs.Registration
import KnotSpline.Proofs.Runs
import KnotSpline.Proofs.StraightLine

/-! The states that a problem can reach: a problem is being built, has been fitted or has been
loaded, and its sizes agree with one another in each phase. -/

namespace KnotSpline

variable {α : Type}

namespace Problem

def HasSystem (p : Problem α) (system : List (Equation α)) : Prop :=
  system.length = p.dimension ∧
    ∀ e ∈ system, e.left.length = p.dimension ∧ e.right.length = p.outputCount

def HasSolution (p : Problem α) (x : Solution α) : Prop :=
  x.length = p.segmentCount ∧
    ∀ block ∈ x, block.length = p.outputCount ∧ ∀ row ∈ block, row.length = p.coefficientCount

/-- Where a problem stands whose row index has not been overwritten. -/
inductive Standing (p : Problem α) : Prop
  | building {system : List (Equation α)} (phase_eq : p.phase = .building system)
      (hasSystem : p.HasSystem system) (nonneg : 0 ≤ p.rowIndex) (le : p.rowIndex ≤ p.dimension)
  | fitted {system : List (Equation α)} {x : Solution α} (phase_eq : p.phase = .fitted system x)
      (hasSystem : p.HasSystem system) (rowIndex_eq : p.rowIndex = p.dimension)
      (hasSolution : p.HasSolution x)
  | loaded {x : Solution α} (phase_eq : p.phase = .loaded x)
      (rowIndex_eq : p.rowIndex = p.dimension) (hasSolution : p.HasSolution x)

variable [Scalar α]

structure Sized (p : Problem α) : Prop where
  two_le_knotCount : 2 ≤ p.knotCount
  finite : ∀ t ∈ p.times, Scalar.isFinite t = true
  increasing : (differences p.times).all fun d => decide (0 < d)
  one_le_coefficientCount : 1 ≤ p.coefficientCount
  checkExtents : checkExtents p.coefficientCount p.dimension p.outputCount =
    (.ok () : Except (Fault α) Unit)
  hasSolution : ∀ x, p.phase.solution? = some x → p.HasSolution x

variable {p q : Problem α}

lemma Sized.one_le_dimension (h : p.Sized) : 1 ≤ p.dimension :=
  Nat.mul_pos (Nat.sub_pos_of_lt h.two_le_knotCount) h.one_le_coefficientCount

lemma create_cases {times coefficientCount outputCount metadata : Value α}
    (h : create times coefficientCount outputCount metadata = .ok p) :
    p.Sized ∧ p.rowIndex = 0 ∧ p.phase = .building (emptySystem p.dimension p.outputCount) := by
  simp only [create, bind_eq_ok_iff, knotTimes, check_eq_ok_iff] at h
  obtain ⟨knots, ⟨a, -, -, hlen, hfin, hinc, hk⟩, n, hn, m, -, ⟨⟩, hx, fields, -, hp⟩ := h
  obtain rfl := Except.ok.inj hk
  obtain rfl := Except.ok.inj hp
  refine ⟨⟨not_lt.1 hlen, by simpa using hfin, by simpa using hinc, ?_, hx, ?_⟩, rfl, rfl⟩
  · exact_mod_cast ((count_eq_ok_iff (by omega)).1 hn).2
  · intro x hx
    cases hx

omit [Scalar α] in
lemma hasSolution_of_solutionOf {a : NumArray α} {x : Solution α} (h : p.solutionOf a = .ok x) :
    p.HasSolution x := by
  rw [solutionOf, require_eq_ok_iff] at h
  obtain ⟨hl, rfl⟩ := h
  rw [Nat.mul_assoc] at hl
  refine ⟨by simp, fun block hb => ?_⟩
  obtain ⟨ys, hy, rfl⟩ := List.mem_map.1 hb
  have hly := NumArray.length_of_mem_pieces hl.ge hy
  exact ⟨by simp, fun row hr => NumArray.length_of_mem_pieces hly.ge hr⟩

lemma ofRecord_cases {r : Record α} (h : ofRecord r = .ok q) :
    q.Sized ∧ q.rowIndex = q.dimension ∧ ∃ x, q.phase = .loaded x := by
  simp only [ofRecord, openRecord, loadSolution, bind_eq_ok_iff] at h
  obtain ⟨p, ⟨_, -, _, -, _, -, hp⟩, _, -, a, -, x, hx, hq⟩ := h
  obtain rfl := Except.ok.inj hq
  obtain ⟨hs, -, -⟩ := create_cases hp
  refine ⟨⟨hs.two_le_knotCount, hs.finite, hs.increasing, hs.one_le_coefficientCount,
    hs.checkExtents, ?_⟩, rfl, x, rfl⟩
  intro y hy
  obtain rfl := Option.some_inj.1 hy
  exact hasSolution_of_solutionOf hx

omit [Scalar α] in
lemma hasSolution_segmentBlocks {columns : List (List α)} (hl : columns.length = p.outputCount)
    (hc : ∀ xs ∈ columns, xs.length = p.dimension) : p.HasSolution (p.segmentBlocks columns) := by
  refine ⟨by simp [segmentBlocks], fun block hb => ?_⟩
  obtain ⟨i, hi, rfl⟩ := List.mem_map.1 hb
  refine ⟨by rw [List.length_map, hl], fun row hr => ?_⟩
  obtain ⟨xs, hx, rfl⟩ := List.mem_map.1 hr
  exact length_take_drop (hc xs hx) (List.mem_range.1 hi)

def solved (p : Problem α) (system : List (Equation α)) : Solution α :=
  let steps := Step.factor p.dimension (Table.columns p.dimension (system.map Equation.left))
  let targets := Table.columns p.outputCount (system.map Equation.right)
  p.segmentBlocks ((targets.map (Step.reflectInRange steps)).map (Step.substitute steps))

lemma hasSolution_solved (p : Problem α) (system : List (Equation α)) :
    p.HasSolution (p.solved system) :=
  hasSolution_segmentBlocks (by simp [Table.columns]) (by simp)

lemma eq_of_fit_eq_ok (h : p.fit = .ok q) : p.rowIndex = p.dimension ∧
    ∃ system, p.phase.system? = some system ∧
      q = { p with phase := .fitted system (p.solved system) } := by
  rw [fit] at h
  split at h
  · cases h
  · next system hs =>
    dsimp only at h
    simp only [check_eq_ok_iff, bind_eq_ok_iff] at h
    obtain ⟨hlt, hgt, -, rank, -, -, h⟩ := h
    have hq : (pure { p with phase := .fitted system (p.solved system) } :
        Except (Fault α) (Problem α)) = .ok q := by
      split at h
      · simp only [check_eq_ok_iff] at h
        exact h.2.2.2
      · exact h
    exact ⟨by omega, system, hs, (Except.ok.inj hq).symm⟩

lemma fit_cases (h : p.fit = .ok q) : p.rowIndex = p.dimension ∧
    ∃ system x, p.phase.system? = some system ∧ p.HasSolution x ∧
      q = { p with phase := .fitted system x } := by
  obtain ⟨hr, system, hs, hq⟩ := eq_of_fit_eq_ok h
  exact ⟨hr, system, _, hs, hasSolution_solved p system, hq⟩

structure Fits (p : Problem α) (row : Row α) : Prop where
  blocks : ∀ b ∈ row.blocks, b.1 < p.segmentCount ∧ b.2.length = p.coefficientCount
  right : row.right.length = p.outputCount

omit [Scalar α] in
lemma Fits.length_fill {row : Row α} (h : p.Fits row) {e : Equation α}
    (he : e.left.length = p.dimension) :
    (Row.fill p.coefficientCount row e).left.length = p.dimension := by
  obtain ⟨bs, right⟩ := row
  have hb := h.blocks
  change (bs.foldl (fun xs b => Row.overwrite (b.1 * p.coefficientCount) b.2 xs) e.left).length = _
  generalize e.left = xs at he
  clear h
  induction bs generalizing xs with
  | nil => exact he
  | cons b bs ih =>
    obtain ⟨hs, hl⟩ := hb b List.mem_cons_self
    refine ih (fun c hc => hb c (List.mem_cons_of_mem _ hc)) _ ?_
    have hle : (b.1 + 1) * p.coefficientCount ≤ p.dimension := Nat.mul_le_mul_right _ hs
    rw [Nat.succ_mul] at hle
    rw [Row.length_overwrite (by rw [hl, he]; exact hle), he]

omit [Scalar α] in
lemma HasSystem.fillAll {rows : List (Row α)} (hr : ∀ row ∈ rows, p.Fits row)
    {system system' : List (Equation α)} {start : ℤ} (hs : p.HasSystem system)
    (h : Row.fillAll p.coefficientCount system start rows = .ok system') :
    p.HasSystem system' := by
  induction rows generalizing system start with
  | nil => exact Except.ok.inj h ▸ hs
  | cons row rows ih =>
    rw [Row.fillAll] at h
    split at h
    · next i hi =>
      refine ih (fun r hm => hr r (List.mem_cons_of_mem _ hm)) ?_ h
      have hf := hr row List.mem_cons_self
      refine ⟨by rw [List.length_modify, hs.1], fun e he => ?_⟩
      obtain ⟨j, hj, rfl⟩ := List.mem_iff_getElem.1 he
      rw [List.length_modify] at hj
      have hm := hs.2 system[j] (List.getElem_mem hj)
      rw [List.getElem_modify]
      split
      · exact ⟨hf.length_fill hm.1, hf.right⟩
      · exact hm
    · cases h

lemma resolve_target {knot order value : Value α} {k d : ℕ} {target : List α}
    (h : p.resolve (.constant knot order value) = .ok (.constant k d target)) :
    target.length = p.outputCount := by
  simp only [resolve, bind_eq_ok_iff, check_eq_ok_iff] at h
  obtain ⟨_, -, _, -, _, -, a, -, hshape, _, -, _, -, hc⟩ := h
  cases hc
  rw [a.atLeastVector.length_entries, not_ne_iff.1 hshape]
  exact Nat.mul_one _

lemma fits_rowsOf {r : Request α} {c : Constraint α} (h : p.resolve r = .ok c)
    {rows : List (Row α)} (hrows : p.rowsOf c = .ok rows) : ∀ row ∈ rows, p.Fits row := by
  have hc := (resolve_spec h).1
  cases c with
  | constant k d target =>
    rw [rowsOf, knotVector_eq] at hrows
    obtain rfl := Except.ok.inj hrows
    intro row hrow
    obtain ⟨s, hs, rfl⟩ := List.mem_map.1 hrow
    refine ⟨fun b hb => ?_, ?_⟩
    · obtain rfl := List.mem_singleton.1 hb
      exact ⟨((mem_adjoining hc.1).1 hs).1, length_knotRow k d⟩
    · cases r with
      | constant => exact resolve_target h
      | continuity => simp [resolve, bind_eq_ok_iff, check_eq_ok_iff, pure, Except.pure] at h
  | continuity k d =>
    rw [rowsOf, knotVector_eq] at hrows
    obtain rfl := Except.ok.inj hrows
    intro row hrow
    obtain rfl := List.mem_singleton.1 hrow
    have hk := lt_segmentCount hc.2.1
    refine ⟨fun b hb => ?_, List.length_replicate⟩
    rcases List.mem_cons.1 hb with rfl | hb
    · exact ⟨by dsimp only; omega, length_knotRow k d⟩
    · obtain rfl := List.mem_singleton.1 hb
      exact ⟨hk, by rw [List.length_map, length_knotRow]⟩

lemma constrain_cases {r : Request α} (h : p.constrain r = .ok q) :
    ∃ system system' n, p.phase = .building system ∧ p.rowIndex + (n : ℕ) ≤ p.dimension ∧
      (p.HasSystem system → p.HasSystem system') ∧
      q = { p with phase := .building system', rowIndex := p.rowIndex + n } := by
  rw [constrain, bind_eq_ok_iff] at h
  obtain ⟨c, hc, h⟩ := h
  obtain ⟨hadmits, hle⟩ := resolve_spec hc
  rw [register] at h
  split at h
  · next system hs =>
    simp only [bind_eq_ok_iff] at h
    obtain ⟨rows, hrows, system', hsystem, hq⟩ := h
    obtain ⟨rows', hrows', hmap⟩ := rowsOf_spec hadmits
    obtain rfl := Except.ok.inj (hrows.symm.trans hrows')
    rw [← hmap, List.length_map] at hle
    exact ⟨system, system', rows.length, hs, hle,
      fun hsys => hsys.fillAll (fits_rowsOf hc hrows) hsystem, (Except.ok.inj hq).symm⟩
  · cases h

lemma Sized.apply (hp : p.Sized) {a : Action α} (h : a.apply p = .ok q) : q.Sized := by
  obtain ⟨hk, hf, hi, hc, hx, hs⟩ := hp
  cases a with
  | constrain r =>
    obtain ⟨system, system', n, -, -, -, rfl⟩ := constrain_cases h
    exact ⟨hk, hf, hi, hc, hx, fun x hx => by cases hx⟩
  | fit =>
    obtain ⟨-, system, x, -, hsol, rfl⟩ := fit_cases h
    refine ⟨hk, hf, hi, hc, hx, fun y hy => ?_⟩
    obtain rfl := Option.some_inj.1 hy
    exact hsol
  | setTolerance tolerance =>
    obtain rfl := Except.ok.inj h
    exact ⟨hk, hf, hi, hc, hx, hs⟩
  | setRowIndex rowIndex =>
    obtain rfl := Except.ok.inj h
    exact ⟨hk, hf, hi, hc, hx, hs⟩
  | setMetadata name v =>
    obtain rfl := Except.ok.inj h
    exact ⟨hk, hf, hi, hc, hx, hs⟩

lemma New.sized (h : p.New) : p.Sized := by
  cases h with
  | create h => exact (create_cases h).1
  | ofRecord h => exact (ofRecord_cases h).1

theorem sized_of_mem_run {ops : List (Operation α)} {p : Problem α}
    (h : p ∈ (Store.empty.run ops).problems) : p.Sized :=
  Store.forall_problems_run (fun _ hp => hp.sized) (fun _ _ _ _ _ hp hq => hp.apply hq)
    (fun _ hp => by cases hp) p h

end Problem

def Operation.Admissible : Operation α → Prop
  | act _ (.setRowIndex _) => False
  | _ => True

/-- The phases before and after an operation. -/
inductive Phase.Moves : Phase α → Phase α → Prop
  | stay (phase : Phase α) : Moves phase phase
  | constrain (system system' : List (Equation α)) : Moves (building system) (building system')
  | fit (system : List (Equation α)) (x : Solution α) : Moves (building system) (fitted system x)
  | refit (system : List (Equation α)) (x y : Solution α) :
    Moves (fitted system x) (fitted system y)

namespace Problem

variable [Scalar α] {p q : Problem α}

lemma New.standing (h : p.New) : p.Standing := by
  cases h with
  | create h =>
    obtain ⟨-, hr, hp⟩ := create_cases h
    refine .building hp ⟨by simp [emptySystem], fun e he => ?_⟩ hr.ge (by omega)
    obtain rfl := List.eq_of_mem_replicate he
    exact ⟨List.length_replicate, List.length_replicate⟩
  | ofRecord h =>
    obtain ⟨hs, hr, x, hp⟩ := ofRecord_cases h
    exact .loaded hp hr (hs.hasSolution x (by rw [hp]; rfl))

lemma Standing.apply (hp : p.Standing) {id : ℕ} {a : Action α}
    (ha : (Operation.act id a).Admissible) (h : a.apply p = .ok q) : q.Standing := by
  cases a with
  | constrain r =>
    obtain ⟨system, system', n, hs, hle, hsys, rfl⟩ := constrain_cases h
    cases hp with
    | building phase_eq hasSystem nonneg le =>
      obtain rfl := Phase.building.inj (hs.symm.trans phase_eq)
      exact .building rfl (hsys hasSystem) (Int.add_nonneg nonneg (Int.natCast_nonneg n)) hle
    | fitted phase_eq => cases hs.symm.trans phase_eq
    | loaded phase_eq => cases hs.symm.trans phase_eq
  | fit =>
    obtain ⟨hr, system, x, hs, hsol, rfl⟩ := fit_cases h
    cases hp with
    | building phase_eq hasSystem =>
      rw [phase_eq] at hs
      obtain rfl := Option.some_inj.1 hs
      exact .fitted rfl hasSystem hr hsol
    | fitted phase_eq hasSystem =>
      rw [phase_eq] at hs
      obtain rfl := Option.some_inj.1 hs
      exact .fitted rfl hasSystem hr hsol
    | loaded phase_eq =>
      rw [phase_eq] at hs
      cases hs
  | setTolerance tolerance =>
    obtain rfl := Except.ok.inj h
    cases hp with
    | building h₁ h₂ h₃ h₄ => exact .building h₁ h₂ h₃ h₄
    | fitted h₁ h₂ h₃ h₄ => exact .fitted h₁ h₂ h₃ h₄
    | loaded h₁ h₂ h₃ => exact .loaded h₁ h₂ h₃
  | setRowIndex rowIndex => exact ha.elim
  | setMetadata name v =>
    obtain rfl := Except.ok.inj h
    cases hp with
    | building h₁ h₂ h₃ h₄ => exact .building h₁ h₂ h₃ h₄
    | fitted h₁ h₂ h₃ h₄ => exact .fitted h₁ h₂ h₃ h₄
    | loaded h₁ h₂ h₃ => exact .loaded h₁ h₂ h₃

theorem standing_of_mem_run {ops : List (Operation α)} (ha : ∀ op ∈ ops, op.Admissible)
    (h : p ∈ (Store.empty.run ops).problems) : p.Standing :=
  Store.forall_problems_run (fun _ hp => hp.standing)
    (fun _ _ _ _ ho hp hq => hp.apply (ha _ ho) hq) (fun _ hp => by cases hp) p h

lemma apply_frame {a : Action α} (h : a.apply p = .ok q) :
    q.times = p.times ∧ q.coefficientCount = p.coefficientCount ∧
      q.outputCount = p.outputCount ∧ p.phase.Moves q.phase := by
  cases a with
  | constrain r =>
    obtain ⟨system, system', n, hs, -, -, rfl⟩ := constrain_cases h
    exact ⟨rfl, rfl, rfl, hs ▸ .constrain system system'⟩
  | fit =>
    obtain ⟨-, system, x, hs, -, rfl⟩ := fit_cases h
    refine ⟨rfl, rfl, rfl, ?_⟩
    cases hp : p.phase with
    | building s =>
      rw [hp] at hs
      obtain rfl := Option.some_inj.1 hs
      exact .fit s x
    | fitted s y =>
      rw [hp] at hs
      obtain rfl := Option.some_inj.1 hs
      exact .refit s y x
    | loaded y =>
      rw [hp] at hs
      cases hs
  | setTolerance tolerance =>
    obtain rfl := Except.ok.inj h
    exact ⟨rfl, rfl, rfl, .stay _⟩
  | setRowIndex rowIndex =>
    obtain rfl := Except.ok.inj h
    exact ⟨rfl, rfl, rfl, .stay _⟩
  | setMetadata name v =>
    obtain rfl := Except.ok.inj h
    exact ⟨rfl, rfl, rfl, .stay _⟩

/-- Whatever has been done to a store, each problem in it has increasing times, agrees with itself
in its sizes and stands in one of the three phases, by which alone it refuses what the phase does
not admit. Any further operation leaves times and sizes alone and moves on to the fitted phase at
most. -/
theorem lifecycle [OrderedDifferences α] {ops : List (Operation α)}
    (ha : ∀ op ∈ ops, op.Admissible) {id : ℕ} {p : Problem α}
    (hp : (Store.empty.run ops).problems[id]? = some p) :
    (2 ≤ p.times.length ∧ (∀ t ∈ p.times, Scalar.isFinite t = true) ∧
      p.times.IsChain (· < ·)) ∧
    (p.segmentCount + 1 = p.times.length ∧
      p.dimension = p.segmentCount * p.coefficientCount ∧ 1 ≤ p.dimension) ∧
    p.Standing ∧
    (p.isFitted = false ↔ ∃ system, p.phase = .building system) ∧
    (∀ t order, p.interpolate t order = .error .notFitted ↔ p.isFitted = false) ∧
    (∀ times order, p.sample times order = .error .notFitted ↔ p.isFitted = false) ∧
    (p.solution = .error .notFitted ↔ p.isFitted = false) ∧
    (∀ relative, p.segmentPolynomials relative = .error .notFitted ↔ p.isFitted = false) ∧
    (p.toRecord = .error .notFittedToWrite ↔ p.isFitted = false) ∧
    (∀ r, p.constrain r = .error .alreadyFitted ↔ p.isFitted = true) ∧
    (p.fit = .error .noSystem ↔ ∃ x, p.phase = .loaded x) ∧
    ∀ op : Operation α, ∃ q, ((Store.empty.run ops).after op).problems[id]? = some q ∧
      q.times = p.times ∧ q.coefficientCount = p.coefficientCount ∧
      q.outputCount = p.outputCount ∧ p.phase.Moves q.phase := by
  have hmem := List.mem_of_getElem? hp
  have hs := sized_of_mem_run hmem
  refine ⟨⟨hs.two_le_knotCount, hs.finite, isChain_of_differences hs.increasing⟩,
    ⟨segmentCount_add_one hs.two_le_knotCount, rfl, hs.one_le_dimension⟩,
    standing_of_mem_run ha hmem, ?_, interpolate_eq_notFitted_iff, sample_eq_notFitted_iff,
    solution_eq_notFitted_iff, segmentPolynomials_eq_notFitted_iff, toRecord_eq_notFitted_iff,
    constrain_eq_alreadyFitted_iff, ?_, fun op => ?_⟩
  · rw [isFitted]
    cases p.phase <;> simp [Phase.solution?]
  · rw [fit_eq_noSystem_iff]
    cases p.phase <;> simp [Phase.system?]
  · obtain ⟨q, hq, rfl | ⟨a, -, hpq⟩⟩ := Store.problem_after hp op
    · exact ⟨q, hq, rfl, rfl, rfl, .stay _⟩
    · exact ⟨q, hq, apply_frame hpq⟩

theorem lifecycle_of_line_record : ∃ p : Problem Float,
    (∀ op ∈ [.load (lineRecord 1 2 3 4), .act 0 .fit], (op : Operation Float).Admissible) ∧
    (Store.empty.run [.load (lineRecord (1 : Float) 2 3 4), .act 0 .fit]).problems[0]? = some p ∧
    p.Standing ∧ p.times.IsChain (· < ·) := by
  have ha : ∀ op ∈ [.load (lineRecord 1 2 3 4), .act 0 .fit],
      (op : Operation Float).Admissible := by
    intro op hop
    simp only [List.mem_cons, List.not_mem_nil, or_false] at hop
    rcases hop with rfl | rfl <;> trivial
  have hs : (Store.empty.run [.load (lineRecord (1 : Float) 2 3 4),
      .act 0 .fit]).problems[0]?.isSome = true := by
    decide +kernel
  obtain ⟨p, hp⟩ := Option.isSome_iff_exists.1 hs
  have h := lifecycle ha hp
  exact ⟨p, ha, hp, h.2.2.1, h.1.2.2⟩

end Problem

end KnotSpline
