import KnotSpline.Proofs.ConstraintOrder
import KnotSpline.Proofs.FiniteParts
import KnotSpline.Proofs.Homogeneous

/-! Full systems of too small a rank. A demand that follows from the others adds nothing to the
rank, and polynomials of low degree escape all demands on higher derivatives. -/

open Polynomial (derivative degreeLT)
open scoped Polynomial

namespace KnotSpline

open Matrix

def Constraint.site {α : Type} : Constraint α → ℕ × ℕ
  | constant knot order _ => (knot, order)
  | continuity knot order => (knot, order)

@[simp]
lemma Constraint.site_finitePart (c : Constraint Extended) : c.finitePart.site = c.site := by
  cases c <;> rfl

namespace Problem

variable {p : Problem ℝ} {cs : List (Constraint ℝ)}

lemma forall_dot_equations_eq_zero_iff {c : Constraint ℝ} (hc : p.Admits c) {x : List ℝ}
    (hx : x.length = p.dimension) :
    (∀ e ∈ p.equations c, dot e.left x = 0) ↔ p.Holds 0 (p.splineOf x) c := by
  have hiff := forall_dot_equations_iff hx ((admits_withValue 0 c).2 hc) 0
  rw [holds_withValue] at hiff
  rw [← hiff]
  cases c with
  | constant knot order target => simp [Constraint.withValue, equations]
  | continuity knot order => simp [Constraint.withValue, equations]

def leftMatrix (p : Problem ℝ) (es : List (Equation ℝ)) :
    Matrix (Fin es.length) (Fin p.dimension) ℝ :=
  of fun i => vec p.dimension (es.get i).left

lemma mem_homogeneous_of_mulVec (h : ∀ c ∈ cs, p.Admits c) {v : Fin p.dimension → ℝ}
    (hv : p.leftMatrix (cs.flatMap p.equations) *ᵥ v = 0) : p.splineEquiv v ∈ p.homogeneous cs := by
  have hdot : ∀ e ∈ cs.flatMap p.equations, dot e.left (List.ofFn v) = 0 := by
    intro e he
    obtain ⟨i, rfl⟩ := List.get_of_mem he
    obtain ⟨c, -, hc⟩ := List.mem_flatMap.1 he
    rw [dot_eq (length_left hc) List.length_ofFn, vec_ofFn]
    exact congrFun hv i
  intro c hc
  apply (forall_dot_equations_eq_zero_iff (h c hc) List.length_ofFn).1
  intro e he
  exact hdot e (List.mem_flatMap.2 ⟨c, hc, he⟩)

theorem dimension_le_length_add_finrank (h : ∀ c ∈ cs, p.Admits c) :
    p.dimension ≤ (cs.flatMap p.equations).length + Module.finrank ℝ (p.homogeneous cs) := by
  let M := (p.leftMatrix (cs.flatMap p.equations)).mulVecLin
  have hsum := M.finrank_range_add_finrank_ker
  have hrange := (LinearMap.range M).finrank_le
  have hker : (LinearMap.ker M).map (p.splineEquiv : (Fin p.dimension → ℝ) →ₗ[ℝ] p.Spline) ≤
      p.homogeneous cs := by
    rintro _ ⟨v, hv, rfl⟩
    exact mem_homogeneous_of_mulVec h hv
  have hle := Submodule.finrank_mono hker
  rw [LinearEquiv.finrank_map_eq] at hle
  rw [Module.finrank_fin_fun] at hsum hrange
  omega

section Repeated

variable {c c' : Constraint ℝ}

lemma holds_of_site_eq (h : c.site = c'.site) :
    (∀ f, p.Holds 0 f c → p.Holds 0 f c') ∨ ∀ f, p.Holds 0 f c' → p.Holds 0 f c := by
  have hjoin : ∀ knot order target f, p.Holds 0 f (.constant knot order target) →
      p.Holds 0 f (.continuity knot order) := by
    intro knot order target f hf s s' hs hs'
    rw [hf s (.inl hs), hf s' (.inr hs')]
  cases c with
  | constant knot order target =>
    cases c' with
    | constant knot' order' target' =>
      obtain ⟨rfl, rfl⟩ := Prod.mk.inj h
      exact .inl fun f hf => hf
    | continuity knot' order' =>
      obtain ⟨rfl, rfl⟩ := Prod.mk.inj h
      exact .inl (hjoin knot order target)
  | continuity knot order =>
    cases c' with
    | constant knot' order' target' =>
      obtain ⟨rfl, rfl⟩ := Prod.mk.inj h
      exact .inr (hjoin knot order target')
    | continuity knot' order' =>
      obtain ⟨rfl, rfl⟩ := Prod.mk.inj h
      exact .inl fun f hf => hf

lemma Fills.finrank_pos_of_follows (h : p.Fills cs) (hk : 2 ≤ p.knotCount) {i j : ℕ}
    (hi : cs[i]? = some c) (hj : cs[j]? = some c') (hij : i ≠ j)
    (hf : ∀ f, p.Holds 0 f c → p.Holds 0 f c') : 0 < Module.finrank ℝ (p.homogeneous cs) := by
  obtain ⟨hlt, rfl⟩ := List.getElem?_eq_some_iff.1 hj
  have hperm : (cs[j] :: cs.eraseIdx j).Perm cs := List.getElem_cons_eraseIdx_perm hlt
  have hc : c ∈ cs.eraseIdx j := List.mem_eraseIdx_iff_getElem?.2 ⟨i, hij, hi⟩
  have hsame : p.homogeneous (cs.eraseIdx j) = p.homogeneous cs := by
    ext f
    have hall : (∀ b ∈ cs, p.Holds 0 f b) ↔ ∀ b ∈ cs[j] :: cs.eraseIdx j, p.Holds 0 f b :=
      forall_congr' fun b => by rw [hperm.mem_iff]
    rw [mem_homogeneous, mem_homogeneous, hall, List.forall_mem_cons]
    exact ⟨fun hrest => ⟨hf f (hrest c hc), hrest⟩, And.right⟩
  have hlen := (hperm.flatMap_right p.equations).length_eq
  have hpos : 0 < (p.equations cs[j]).length := by
    rw [length_equations hk (h.admits _ (List.getElem_mem hlt))]
    cases cs[j] with
    | constant knot order target =>
      rw [equationCount]
      split <;> omega
    | continuity knot order => exact Nat.one_pos
  have hdim := dimension_le_length_add_finrank fun b hb =>
    h.admits b (hperm.mem_iff.1 (List.mem_cons_of_mem cs[j] hb))
  rw [List.flatMap_cons, List.length_append, h.length_eq] at hlen
  rw [hsame] at hdim
  omega

lemma Fills.finrank_pos_of_repeated (h : p.Fills cs) (hk : 2 ≤ p.knotCount) {i j : ℕ}
    (hi : cs[i]? = some c) (hj : cs[j]? = some c') (hij : i ≠ j) (hsite : c.site = c'.site) :
    0 < Module.finrank ℝ (p.homogeneous cs) := by
  rcases holds_of_site_eq (p := p) hsite with hf | hf
  · exact h.finrank_pos_of_follows hk hi hj hij hf
  · exact h.finrank_pos_of_follows hk hj hi hij.symm hf

end Repeated

section LowDegree

noncomputable def everywhere (p : Problem ℝ) {r : ℕ} (hr : r ≤ p.coefficientCount) :
    degreeLT ℝ r →ₗ[ℝ] p.Spline :=
  LinearMap.pi fun _ => Submodule.inclusion (Polynomial.degreeLT_mono hr)

lemma everywhere_apply {r : ℕ} (hr : r ≤ p.coefficientCount) (g : degreeLT ℝ r)
    (s : Fin p.segmentCount) : (p.everywhere hr g s : ℝ[X]) = g := by
  rw [everywhere, LinearMap.pi_apply, Submodule.coe_inclusion]

lemma holds_everywhere {r : ℕ} (hr : r ≤ p.coefficientCount) {c : Constraint ℝ}
    (hc : ∀ knot order target, c = .constant knot order target → r ≤ order) (g : degreeLT ℝ r) :
    p.Holds 0 (p.everywhere hr g) c := by
  cases c with
  | constant knot order target =>
    intro s _
    have hdeg : (g : ℝ[X]).degree < order :=
      (Polynomial.mem_degreeLT.1 g.2).trans_le (by exact_mod_cast hc _ _ _ rfl)
    rw [everywhere_apply, Polynomial.iterate_derivative_eq_zero_of_degree_lt hdeg,
      Polynomial.eval_zero]
  | continuity knot order =>
    intro s s' _ _
    rw [everywhere_apply, everywhere_apply]

lemma le_finrank_of_orders (hk : 2 ≤ p.knotCount) {r : ℕ} (hr : r ≤ p.coefficientCount)
    (hcs : ∀ knot order target, .constant knot order target ∈ cs → r ≤ order) :
    r ≤ Module.finrank ℝ (p.homogeneous cs) := by
  have hmem : ∀ g, p.everywhere hr g ∈ p.homogeneous cs := by
    intro g c hc
    refine holds_everywhere hr (fun knot order target heq => ?_) g
    exact hcs knot order target (heq ▸ hc)
  have hinj : Function.Injective ((p.everywhere hr).codRestrict (p.homogeneous cs) hmem) := by
    intro f g hfg
    have hfirst := congrFun (congrArg Subtype.val hfg) ⟨0, Nat.sub_pos_of_lt hk⟩
    apply Subtype.ext
    rw [← everywhere_apply hr f, ← everywhere_apply hr g]
    exact congrArg Subtype.val hfirst
  have hle := LinearMap.finrank_le_finrank_of_injective hinj
  rwa [(Polynomial.degreeLTEquiv ℝ r).finrank_eq, Module.finrank_fin_fun] at hle

end LowDegree

section Outcome

variable {α : Type} [Scalar α]

/-- A fit reports a rank that is too small by `missing` or more. The problem stays unfitted, and so
do all others of the store it is in. -/
def FailsBy (p : Problem α) (missing : ℕ) : Prop :=
  ∃ k, k + missing ≤ p.dimension ∧ p.fit = .error (.singular k p.dimension) ∧
    p.isFitted = false ∧ ∀ (s : Store α) (id : ℕ), s.problems[id]? = some p →
      ((Session.fit id).perform s).1 = .error (.singular k p.dimension) ∧
        ((Session.fit id).perform s).2.problems = s.problems

lemma failsBy_of_rank {p : Problem α} {cs : List (Constraint α)} (h : p.Fills cs)
    (hfin : ∀ e ∈ cs.flatMap p.equations, ∀ x ∈ e.left, Scalar.isFinite x = true)
    {tolerance : Value α} {k m : ℕ}
    (hrank : rank { p with rankTolerance := tolerance } (Step.factor p.dimension
      (Table.columns p.dimension ((cs.flatMap p.equations).map Equation.left))) = .ok k)
    (hk : k + m ≤ p.dimension) (h0 : 0 < m) :
    FailsBy { p.registering cs with rankTolerance := tolerance } m := by
  have hfit : fit { p.registering cs with rankTolerance := tolerance } =
      .error (.singular k p.dimension) :=
    fit_of_rank_lt (p := { p.registering cs with rankTolerance := tolerance }) h.system_eq
      h.rowIndex_eq hfin hrank (show k < p.dimension by omega)
  refine ⟨k, hk, hfit, rfl, fun s id hs => ?_⟩
  rw [Session.perform_fit hs, hfit]
  exact ⟨rfl, Store.problems_announce s id _⟩

end Outcome

inductive IsExact : (α : Type) → [Scalar α] → Prop
  | reals : IsExact ℝ
  | extended : IsExact Extended

lemma Fills.failsBy {p : Problem ℝ} {cs : List (Constraint ℝ)} (h : p.Fills cs)
    {tolerance : Value ℝ} (ht : IsTolerant tolerance) {m : ℕ} (h0 : 0 < m)
    (hm : m ≤ Module.finrank ℝ (p.homogeneous cs)) :
    FailsBy { p.registering cs with rankTolerance := tolerance } m := by
  have hself : (p.steps cs).map (fun s => |s.diagonal|) = _ := rfl
  obtain ⟨bound, hb, hrank, -⟩ := IsTolerance.exists_bound ht p hself
  have hle := Step.rank_le_rank_zero hb (p.steps cs)
  rw [h.rank_steps] at hle
  have hsum := h.rank_add_finrank
  refine failsBy_of_rank h (fun _ _ _ _ => rfl) hrank ?_ h0
  omega

lemma Fills.failsBy_extended {p : Problem Extended} {cs : List (Constraint Extended)}
    (h : p.Fills cs) (hfin : ∀ t ∈ p.times, Scalar.isFinite t = true)
    {tolerance : Value Extended} (ht : IsTolerant tolerance) {m : ℕ} (h0 : 0 < m)
    (hm : m ≤ Module.finrank ℝ (p.finitePart.homogeneous (cs.map Constraint.finitePart))) :
    FailsBy { p.registering cs with rankTolerance := tolerance } m := by
  have hreal := h.finitePart hfin
  obtain ⟨k, hk, hrank⟩ := IsTolerant.exists_rank (p := { p with rankTolerance := tolerance }) ht
    (p.finitePart.steps (cs.map Constraint.finitePart))
  rw [hreal.rank_steps] at hk
  have hsum := hreal.rank_add_finrank.trans (dimension_finitePart p)
  rw [← factor_finitePart hfin cs] at hrank
  refine failsBy_of_rank h (isFinite_of_mem_left hfin) hrank ?_ h0
  omega

/-- Two demands at one knot and of one order are never both counted, whether they agree or not. -/
theorem repeated_demand_is_singular {α : Type} [Scalar α] (hα : IsExact α)
    {times coefficientCount outputCount metadata : Value α} {p : Problem α}
    (hp : create times coefficientCount outputCount metadata = .ok p) {rs : List (Request α)}
    (hfull : (p.attemptAll rs).rowIndex = p.dimension) {i j : ℕ} {c c' : Constraint α}
    (hi : (p.accepted rs)[i]? = some c) (hj : (p.accepted rs)[j]? = some c') (hij : i ≠ j)
    (hsite : c.site = c'.site) {tolerance : Value α} (ht : IsTolerant tolerance) :
    FailsBy { p.attemptAll rs with rankTolerance := tolerance } 1 := by
  have hf := create_spec hp
  have hk := hf.two_le_knotCount
  have hfills := hf.fills_accepted hfull
  rw [hf.attemptAll_eq rs]
  cases hα with
  | reals => exact hfills.failsBy ht one_pos (hfills.finrank_pos_of_repeated hk hi hj hij hsite)
  | extended =>
    have hfin := (create_cases hp).1.finite
    have hplace : ∀ {n : ℕ} {b : Constraint Extended}, (p.accepted rs)[n]? = some b →
        ((p.accepted rs).map Constraint.finitePart)[n]? = some b.finitePart := by
      intro n b hb
      rw [List.getElem?_map, hb, Option.map_some]
    refine hfills.failsBy_extended hfin ht one_pos ?_
    exact (hfills.finitePart hfin).finrank_pos_of_repeated (by simpa) (hplace hi) (hplace hj) hij
      (by simpa)

noncomputable def twoCubics : Problem Extended where
  times := [.finite (-1), .finite 0, .finite 1]
  coefficientCount := 4
  outputCount := 2
  rowIndex := 0
  phase := .building (emptySystem 8 2)
  rankTolerance := .null
  metadata := []

lemma create_twoCubics :
    create (.list [.real (.finite (-1)), .real (.finite 0), .real (.finite 1)]) (.int 4) (.int 2)
      (.record []) = .ok twoCubics := by
  have hs : twoCubics.Sized := by
    refine ⟨by decide, ?_, ?_, by decide, rfl, fun x hx => by cases hx⟩
    · simp [twoCubics]
    · norm_num [twoCubics, differences]
      exact (Extended.finite_lt 0 1).2 one_pos
  exact create_again hs

noncomputable def doubledSlope : List (Constraint Extended) :=
  [.constant 0 0 [1, 0], .constant 1 1 [.notANumber, .infinite true], .constant 0 1 [0, 0],
    .constant 0 2 [0, 1], .continuity 1 1, .constant 2 0 [1, 1], .constant 2 1 [0, 1]]

theorem repeated_demand_of_twoCubics :
    create (.list [.real (.finite (-1)), .real (.finite 0), .real (.finite 1)]) (.int 4) (.int 2)
      (.record []) = .ok twoCubics ∧
    (twoCubics.attemptAll (doubledSlope.map Constraint.request)).rowIndex = twoCubics.dimension ∧
    (twoCubics.accepted (doubledSlope.map Constraint.request))[1]? =
      some (.constant 1 1 [.notANumber, .infinite true]) ∧
    (twoCubics.accepted (doubledSlope.map Constraint.request))[4]? = some (.continuity 1 1) ∧
    IsExact Extended ∧ IsTolerant (.null : Value Extended) ∧
    FailsBy { twoCubics.attemptAll (doubledSlope.map Constraint.request) with
      rankTolerance := .null } 1 := by
  obtain ⟨hall, hfull⟩ := (create_spec create_twoCubics).attempt_requests doubledSlope
    (by simp [doubledSlope, Admits, twoCubics, knotCount])
    (by simp [doubledSlope, Constraint.HasTargets, twoCubics]) rfl
  have hi : (twoCubics.accepted (doubledSlope.map Constraint.request))[1]? =
      some (.constant 1 1 [.notANumber, .infinite true]) := by
    rw [hall]
    rfl
  have hj : (twoCubics.accepted (doubledSlope.map Constraint.request))[4]? =
      some (.continuity 1 1) := by
    rw [hall]
    rfl
  exact ⟨create_twoCubics, hfull, hi, hj, .extended, .inl rfl,
    repeated_demand_is_singular .extended create_twoCubics hfull hi hj (by decide) rfl (.inl rfl)⟩

/-- If neither values nor derivatives of an order below `r` are set at any knot then as many
unknowns are open. -/
theorem missing_low_orders_are_singular {α : Type} [Scalar α] (hα : IsExact α)
    {times coefficientCount outputCount metadata : Value α} {p : Problem α}
    (hp : create times coefficientCount outputCount metadata = .ok p) {rs : List (Request α)}
    (hfull : (p.attemptAll rs).rowIndex = p.dimension) {r : ℕ} (h0 : 1 ≤ r)
    (hr : r ≤ p.coefficientCount)
    (hlow : ∀ knot order target, .constant knot order target ∈ p.accepted rs → r ≤ order)
    {tolerance : Value α} (ht : IsTolerant tolerance) :
    FailsBy { p.attemptAll rs with rankTolerance := tolerance } r := by
  have hf := create_spec hp
  have hk := hf.two_le_knotCount
  have hfills := hf.fills_accepted hfull
  rw [hf.attemptAll_eq rs]
  cases hα with
  | reals => exact hfills.failsBy ht h0 (le_finrank_of_orders hk hr hlow)
  | extended =>
    refine hfills.failsBy_extended (create_cases hp).1.finite ht h0 ?_
    refine le_finrank_of_orders (by simpa) hr fun knot order target hmem => ?_
    obtain ⟨c, hc, heq⟩ := List.mem_map.1 hmem
    cases c with
    | constant k d xs =>
      cases heq
      exact hlow _ _ xs hc
    | continuity k d => cases heq

noncomputable def accelerations : List (Constraint Extended) :=
  [.constant 0 2 [1, 0], .constant 1 2 [1, .notANumber], .continuity 1 0, .constant 2 2 [0, 1],
    .constant 0 3 [0, 0], .continuity 1 3, .continuity 1 1]

theorem missing_low_orders_of_twoCubics :
    create (.list [.real (.finite (-1)), .real (.finite 0), .real (.finite 1)]) (.int 4) (.int 2)
      (.record []) = .ok twoCubics ∧
    (twoCubics.attemptAll (accelerations.map Constraint.request)).rowIndex =
      twoCubics.dimension ∧
    2 ≤ twoCubics.coefficientCount ∧
    (∀ knot order target,
      .constant knot order target ∈ twoCubics.accepted (accelerations.map Constraint.request) →
        2 ≤ order) ∧
    IsExact Extended ∧ IsTolerant (.real (Extended.infinite false)) ∧
    FailsBy { twoCubics.attemptAll (accelerations.map Constraint.request) with
      rankTolerance := .real (.infinite false) } 2 := by
  obtain ⟨hall, hfull⟩ := (create_spec create_twoCubics).attempt_requests accelerations
    (by simp [accelerations, Admits, twoCubics, knotCount])
    (by simp [accelerations, Constraint.HasTargets, twoCubics]) rfl
  have hlow : ∀ knot order target,
      .constant knot order target ∈ twoCubics.accepted (accelerations.map Constraint.request) →
        2 ≤ order := by
    intro knot order target hmem
    rw [hall] at hmem
    simp only [accelerations, List.mem_cons, Constraint.constant.injEq, reduceCtorEq,
      List.not_mem_nil, or_false, false_or] at hmem
    omega
  have ht : IsTolerant (.real (Extended.infinite false)) :=
    .inr ⟨_, rfl, Extended.zero_le_iff.2 (.inr rfl)⟩
  have hr : 2 ≤ twoCubics.coefficientCount := by decide
  exact ⟨create_twoCubics, hfull, hr, hlow, .extended, ht,
    missing_low_orders_are_singular .extended create_twoCubics hfull one_le_two hr hlow ht⟩

end Problem

end KnotSpline
