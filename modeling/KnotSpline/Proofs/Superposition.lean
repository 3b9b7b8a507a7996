import KnotSpline.Proofs.CompleteSplines
import KnotSpline.Proofs.FittedCurve
import KnotSpline.Proofs.Homogeneous
import KnotSpline.Proofs.IndependentOutputs

/-! The same requests with other values. They are accepted or refused alike, have the same left
sides and so the same rank, and the fitted curves depend linearly on the values. -/

open Polynomial (derivative)
open scoped Polynomial

namespace KnotSpline

section Values

variable {α : Type} [Scalar α]

def Value.IsArray (v : Value α) (shape : List ℕ) (xs : List α) : Prop :=
  ∃ a, v.toArray = .ok a ∧ a.atLeastVector.shape = shape ∧ a.atLeastVector.entries = xs

def Value.Alike (u v : Value α) : Prop :=
  ∃ shape xs ys, u.IsArray shape xs ∧ v.IsArray shape ys

def mix (a b : ℝ) (xs ys : List ℝ) : List ℝ :=
  List.zipWith (fun x y => a * x + b * y) xs ys

def Value.Mixes (a b : ℝ) (u v w : Value ℝ) : Prop :=
  ∃ shape xs ys, u.IsArray shape xs ∧ v.IsArray shape ys ∧ xs.length = ys.length ∧
    w.IsArray shape (mix a b xs ys)

namespace Value

variable {u v w : Value α} {shape shape' : List ℕ} {xs ys : List α}

lemma IsArray.unique (h : v.IsArray shape xs) (h' : v.IsArray shape' ys) :
    shape = shape' ∧ xs = ys := by
  obtain ⟨x, hx, hs, he⟩ := h
  obtain ⟨y, hy, hs', he'⟩ := h'
  obtain rfl := Except.ok.inj (hx.symm.trans hy)
  exact ⟨hs.symm.trans hs', he.symm.trans he'⟩

lemma isArray_real (x : α) : (Value.real x).IsArray [1] [x] :=
  ⟨.scalar x, rfl, rfl, rfl⟩

lemma Alike.symm (h : u.Alike v) : v.Alike u := by
  obtain ⟨shape, xs, ys, hu, hv⟩ := h
  exact ⟨shape, ys, xs, hv, hu⟩

lemma Alike.exists_isArray (h : u.Alike v) (hu : u.IsArray shape xs) :
    ∃ ys, v.IsArray shape ys := by
  obtain ⟨_, _, ys, hu', hv⟩ := h
  obtain ⟨rfl, -⟩ := hu.unique hu'
  exact ⟨ys, hv⟩

lemma Alike.trans (h : u.Alike v) (h' : v.Alike w) : u.Alike w := by
  obtain ⟨shape, xs, ys, hu, hv⟩ := h
  obtain ⟨zs, hw⟩ := h'.exists_isArray hv
  exact ⟨shape, xs, zs, hu, hw⟩

lemma Mixes.alike {a b : ℝ} {u v w : Value ℝ} (h : Mixes a b u v w) : u.Alike w := by
  obtain ⟨shape, xs, ys, hu, -, -, hw⟩ := h
  exact ⟨shape, xs, _, hu, hw⟩

end Value

lemma getD_mix {a b : ℝ} {xs ys : List ℝ} (h : xs.length = ys.length) (i : ℕ) :
    (mix a b xs ys).getD i 0 = a * xs.getD i 0 + b * ys.getD i 0 := by
  simp only [mix, List.getD_eq_getElem?_getD, List.getElem?_zipWith]
  rcases lt_or_ge i xs.length with hi | hi
  · simp [hi, h ▸ hi]
  · simp [hi, h ▸ hi]

lemma mix_ofFn {a b : ℝ} {n : ℕ} (x y : Fin n → ℝ) :
    mix a b (List.ofFn x) (List.ofFn y) = List.ofFn fun i => a * x i + b * y i := by
  apply List.ext_getElem
  · simp [mix]
  · simp [mix]

namespace Request

def withValue (v : Value α) : Request α → Request α
  | constant knot order _ => constant knot order v
  | continuity knot order => continuity knot order

def withValues (v : ℕ → Value α) (rs : List (Request α)) : List (Request α) :=
  rs.mapIdx fun i r => r.withValue (v i)

end Request

end Values

namespace Problem

section Parallel

variable {α : Type} [Scalar α] {p : Problem α} {ι : Type}

/-- Requests that ask for the same in all of several runs, up to values. -/
def Parallel (p : Problem α) (f : ι → Request α) : Prop :=
  ∀ i j c, p.Asks (f i) c → ∃ c', p.Asks (f j) c' ∧ c'.demand = c.demand

lemma parallel_withValue {v : ι → Value α} (h : ∀ i j, (v i).Alike (v j)) (r : Request α) :
    p.Parallel fun i => r.withValue (v i) := by
  intro i j c hc
  cases r with
  | constant knot order value =>
    cases c with
    | constant k d target =>
      obtain ⟨ys, hy⟩ := (h i j).exists_isArray hc.2
      exact ⟨.constant k d ys, ⟨hc.1, hy⟩, rfl⟩
    | continuity k d => exact hc.elim
  | continuity knot order => exact ⟨c, hc, rfl⟩

lemma Asks.unique {r : Request α} {c c' : Constraint α} (h : p.Asks r c) (h' : p.Asks r c') :
    c = c' := by
  have hsame : ∀ {knot order : Value α} {k d k' d' : ℕ}, p.Locates knot order k d →
      p.Locates knot order k' d' → k = k' ∧ d = d' := by
    intro knot order k d k' d' hl hl'
    have hk := Option.some.inj (hl.1.1.symm.trans hl'.1.1)
    have hd := Option.some.inj (hl.2.1.1.symm.trans hl'.2.1.1)
    exact ⟨Int.ofNat_inj.1 hk, Int.ofNat_inj.1 hd⟩
  cases r with
  | constant knot order value =>
    cases c with
    | constant k d target =>
      cases c' with
      | constant k' d' target' =>
        obtain ⟨rfl, rfl⟩ := hsame h.1 h'.1
        obtain ⟨-, rfl⟩ := Value.IsArray.unique h.2 h'.2
        rfl
      | continuity k' d' => exact h'.elim
    | continuity k d => exact h.elim
  | continuity knot order =>
    cases c with
    | constant k d target => exact h.elim
    | continuity k d =>
      cases c' with
      | constant k' d' target' => exact h'.elim
      | continuity k' d' =>
        obtain ⟨rfl, rfl⟩ := hsame h.1 h'.1
        rfl

lemma Parallel.demand_eq {f : ι → Request α} (h : p.Parallel f) {g : ι → Constraint α}
    (hg : ∀ i, p.Asks (f i) (g i)) (i j : ι) : (g i).demand = (g j).demand := by
  obtain ⟨c, hc, hd⟩ := h j i (g j) (hg j)
  rw [(hg i).unique hc, hd]

lemma map_left_demand (c : Constraint α) :
    (p.equations c.demand).map Equation.left = (p.equations c).map Equation.left := by
  cases c with
  | constant knot order target => simp [Constraint.demand, equations]
  | continuity knot order => rfl

section Family

variable {P : List (ι → Constraint α)} (hP : ∀ g ∈ P, ∀ i j, (g i).demand = (g j).demand)

include hP

lemma map_left_family (i j : ι) :
    ((P.map (· i)).flatMap p.equations).map Equation.left =
      ((P.map (· j)).flatMap p.equations).map Equation.left := by
  simp only [List.map_flatMap, List.flatMap_map]
  refine List.flatMap_congr fun g hg => ?_
  rw [← map_left_demand, hP g hg i j, map_left_demand]

lemma length_family (i j : ι) : ((P.map (· i)).flatMap p.equations).length =
    ((P.map (· j)).flatMap p.equations).length := by
  have hl := congrArg List.length (map_left_family (p := p) hP i j)
  rwa [List.length_map, List.length_map] at hl

lemma Parallel.resolve {f : ι → Request α} (h : p.Parallel f) {i : ι} {c : Constraint α}
    (hc : (p.registering (P.map (· i))).resolve (f i) = .ok c) (j : ι) :
    ∃ c', (p.registering (P.map (· j))).resolve (f j) = .ok c' ∧ p.Asks (f j) c' := by
  obtain ⟨-, hasks, hroom⟩ := resolve_eq_ok_iff.1 hc
  obtain ⟨c', hc', hd⟩ := h i j c ((asks_congr rfl rfl rfl _ _).1 hasks)
  refine ⟨c', resolve_eq_ok_iff.2 ⟨rfl, (asks_congr rfl rfl rfl _ _).2 hc', ?_⟩, hc'⟩
  have hl : (p.equations c').length = (p.equations c).length := by
    have hl := congrArg List.length (map_left_demand (p := p) c')
    rw [hd, map_left_demand] at hl
    simpa using hl.symm
  change ((List.flatMap p.equations (P.map (· j))).length : ℤ) + (p.equations c').length ≤ _
  rw [length_family hP j i, hl]
  exact hroom

theorem exists_accepted (hreg : ∀ i, p.Registrable (P.map (· i))) {calls : List (ι → Request α)}
    (hcalls : ∀ f ∈ calls, p.Parallel f) : ∃ gs : List (ι → Constraint α),
      (∀ i, (p.registering (P.map (· i))).accepted (calls.map (· i)) = gs.map (· i)) ∧
      ∀ g ∈ gs, ∃ f ∈ calls, ∀ i, p.Asks (f i) (g i) := by
  induction calls generalizing P with
  | nil => exact ⟨[], fun i => rfl, by simp⟩
  | cons f calls ih =>
    obtain ⟨hf, hcalls⟩ := List.forall_mem_cons.1 hcalls
    -- if one run accepts the request then they all do, as the same rows are filled in all of them
    by_cases hres : ∃ i c, (p.registering (P.map (· i))).resolve (f i) = .ok c
    · obtain ⟨i, c, hc⟩ := hres
      choose g hg hasks using hf.resolve hP hc
      have hstep : ∀ j, p.Registrable ((P ++ [g]).map (· j)) ∧
          (p.registering (P.map (· j))).constrain (f j) =
            .ok (p.registering ((P ++ [g]).map (· j))) := by
        intro j
        rw [List.map_append, List.map_singleton]
        exact (hreg j).step (hg j)
      have hP' : ∀ b ∈ P ++ [g], ∀ i j, (b i).demand = (b j).demand := by
        intro b hb
        rcases List.mem_append.1 hb with hb | hb
        · exact hP b hb
        · rw [List.mem_singleton.1 hb]
          exact hf.demand_eq hasks
      obtain ⟨gs, hgs, hfrom⟩ := ih hP' (fun j => (hstep j).1) hcalls
      refine ⟨g :: gs, fun j => ?_, ?_⟩
      · rw [List.map_cons, accepted, hg j, (hstep j).2]
        exact congrArg (g j :: ·) (hgs j)
      · refine List.forall_mem_cons.2 ⟨⟨f, List.mem_cons_self, hasks⟩, fun b hb => ?_⟩
        obtain ⟨f', hf', hb⟩ := hfrom b hb
        exact ⟨f', List.mem_cons_of_mem f hf', hb⟩
    · obtain ⟨gs, hgs, hfrom⟩ := ih hP hreg hcalls
      refine ⟨gs, fun j => ?_, fun b hb => ?_⟩
      · rw [List.map_cons, accepted, ← hgs j]
        cases hj : (p.registering (P.map (· j))).resolve (f j) with
        | ok c => exact absurd ⟨j, c, hj⟩ hres
        | error e => rfl
      · obtain ⟨f', hf', hb⟩ := hfrom b hb
        exact ⟨f', List.mem_cons_of_mem f hf', hb⟩

end Family

abbrev Variants (u : ℕ → Value α) := {v : ℕ → Value α // ∀ i, (u i).Alike (v i)}

lemma Fresh.exists_accepted (h : p.Fresh) (u : ℕ → Value α) (rs : List (Request α)) :
    ∃ gs : List (Variants u → Constraint α),
      (∀ v : Variants u, p.accepted (Request.withValues v rs) = gs.map (· v)) ∧
      (∀ g ∈ gs, ∀ v w, (g v).demand = (g w).demand) ∧
      ∀ g ∈ gs, ∃ i r, ∀ v : Variants u, p.Asks (Request.withValue (v.1 i) r) (g v) := by
  have hpar : ∀ i r, p.Parallel fun v : Variants u => Request.withValue (v.1 i) r := fun i r =>
    parallel_withValue (fun v w => (v.2 i).symm.trans (w.2 i)) r
  have hcalls : ∀ f ∈ rs.mapIdx fun i r (v : Variants u) => Request.withValue (v.1 i) r,
      p.Parallel f := by
    intro f hf
    obtain ⟨i, hi, rfl⟩ := List.mem_mapIdx.1 hf
    exact hpar i rs[i]
  obtain ⟨gs, hgs, hfrom⟩ := Problem.exists_accepted (P := []) (by simp)
    (fun v => registrable_nil p) hcalls
  have hasks : ∀ g ∈ gs, ∃ i r, ∀ v : Variants u, p.Asks (Request.withValue (v.1 i) r) (g v) := by
    intro g hg
    obtain ⟨f, hf, hg⟩ := hfrom g hg
    obtain ⟨i, hi, rfl⟩ := List.mem_mapIdx.1 hf
    exact ⟨i, rs[i], hg⟩
  refine ⟨gs, fun v => ?_, fun g hg => ?_, hasks⟩
  · have hrun : (rs.mapIdx fun i r (w : Variants u) => Request.withValue (w.1 i) r).map (· v) =
        Request.withValues v rs := by
      apply List.ext_getElem
      · simp [Request.withValues]
      · simp [Request.withValues]
    rw [← hgs v, hrun, List.map_nil, h.registering_nil]
  · obtain ⟨i, r, hg⟩ := hasks g hg
    exact (hpar i r).demand_eq hg

end Parallel

variable {p : Problem ℝ}

lemma value_mix {a b : ℝ} {u v w : Value ℝ} (h : Value.Mixes a b u v w) {r : Request ℝ}
    {c c' c'' : Constraint ℝ} (hu : p.Asks (r.withValue u) c) (hv : p.Asks (r.withValue v) c')
    (hw : p.Asks (r.withValue w) c'') (i : ℕ) :
    c''.value i = a * c.value i + b * c'.value i := by
  obtain ⟨shape, xs, ys, hx, hy, hl, hz⟩ := h
  cases r with
  | constant knot order value =>
    cases c with
    | constant k d target =>
      cases c' with
      | constant k' d' target' =>
        cases c'' with
        | constant k'' d'' target'' =>
          obtain ⟨-, rfl⟩ := Value.IsArray.unique hu.2 hx
          obtain ⟨-, rfl⟩ := Value.IsArray.unique hv.2 hy
          obtain ⟨-, rfl⟩ := Value.IsArray.unique hw.2 hz
          exact getD_mix hl i
        | continuity k'' d'' => exact hw.elim
      | continuity k' d' => exact hv.elim
    | continuity k d => exact hu.elim
  | continuity knot order =>
    have hzero : ∀ {c : Constraint ℝ}, p.Asks (.continuity knot order) c → c.value i = 0 := by
      intro c hc
      cases c with
      | constant k d target => exact hc.elim
      | continuity k d => rfl
    rw [hzero hu, hzero hv, hzero hw, mul_zero, mul_zero, add_zero]

section Full

variable {ι : Type} {gs : List (ι → Constraint ℝ)}
  (hdemand : ∀ g ∈ gs, ∀ i j, (g i).demand = (g j).demand)
  (hfills : ∀ i, p.Fills (gs.map (· i)))

include hdemand hfills

lemma fit_family (i₀ : ι) {tolerance : Value ℝ} (ht : IsTolerance tolerance) :
    (∃ k < p.dimension, ∀ i,
      fit { p.registering (gs.map (· i)) with rankTolerance := tolerance } =
        .error (.singular k p.dimension)) ∨
    ∀ i, (∀ s ∈ p.steps (gs.map (· i)), s.diagonal ≠ 0) ∧
      ∃ q, fit { p.registering (gs.map (· i)) with rankTolerance := tolerance } = .ok q := by
  have hsteps : ∀ i, p.steps (gs.map (· i)) = p.steps (gs.map (· i₀)) := by
    intro i
    rw [steps, steps, triangular, triangular, map_left_family hdemand i i₀]
  have hself : (p.steps (gs.map (· i₀))).map (fun s => |s.diagonal|) = _ := rfl
  obtain ⟨bound, h0, hrank, -⟩ := ht.exists_bound p hself
  have hfit : ∀ i, _ := fun i => (hfills i).fit_of_rank h0 (by rw [hsteps i]; exact hrank)
  simp only [hsteps] at hfit ⊢
  by_cases hs : ∃ s ∈ p.steps (gs.map (· i₀)), |s.diagonal| ≤ bound
  · refine .inl ⟨_, ?_, fun i => (hfit i).trans (if_pos hs)⟩
    rw [← length_steps p (gs.map (· i₀))]
    exact (Step.rank_lt_iff _ _).2 hs
  · refine .inr fun i => ⟨fun s hm hz => hs ⟨s, hm, ?_⟩, _, (hfit i).trans (if_neg hs)⟩
    rwa [hz, abs_zero]

lemma fittedSpline_mix (hz : ∀ i, ∀ s ∈ p.steps (gs.map (· i)), s.diagonal ≠ 0) {x y z : ι}
    {a b : ℝ} {r : ℕ} (hmix : ∀ g ∈ gs, (g z).value r = a * (g x).value r + b * (g y).value r) :
    p.fittedSpline (gs.map (· z)) r =
      a • p.fittedSpline (gs.map (· x)) r + b • p.fittedSpline (gs.map (· y)) r := by
  have hholds : ∀ i, ∀ g ∈ gs,
      p.Holds ((g i).value r) (p.fittedSpline (gs.map (· i)) r) (g z) := by
    intro i g hg
    rw [← holds_demand, hdemand g hg z i, holds_demand]
    exact ((hfills i).forall_holds_iff (hz i) r _).2 rfl _ (List.mem_map_of_mem hg)
  refine (((hfills z).forall_holds_iff (hz z) r _).1 (List.forall_mem_map.2 fun g hg => ?_)).symm
  rw [hmix g hg]
  exact ((hholds x g hg).smul a).add ((hholds y g hg).smul b)

lemma interpolate_mix (hp : p.Fresh) (hz : ∀ i, ∀ s ∈ p.steps (gs.map (· i)), s.diagonal ≠ 0)
    {i j k : ι} {a b : ℝ}
    (hmix : ∀ g ∈ gs, ∀ r, (g k).value r = a * (g i).value r + b * (g j).value r)
    {tolerance : Value ℝ} {q q' q'' : Problem ℝ}
    (hq : fit { p.registering (gs.map (· i)) with rankTolerance := tolerance } = .ok q)
    (hq' : fit { p.registering (gs.map (· j)) with rankTolerance := tolerance } = .ok q')
    (hq'' : fit { p.registering (gs.map (· k)) with rankTolerance := tolerance } = .ok q'')
    {t : Time ℝ} {x : ℝ} (ht : t.toScalar = .ok x) {order : Value ℝ} {d : ℕ}
    (ho : order.int? = some (d : ℤ)) : ∃ ys zs, q.interpolate t order = .ok ys ∧
      q'.interpolate t order = .ok zs ∧ q''.interpolate t order = .ok (mix a b ys zs) := by
  have hlt := (segmentOf_owns (pairwise_of_differences hp.increasing) hp.two_le_knotCount x).lt
  refine ⟨_, _, (hfills i).interpolate_eq hq ht ho (s := ⟨_, hlt⟩) rfl,
    (hfills j).interpolate_eq hq' ht ho (s := ⟨_, hlt⟩) rfl, ?_⟩
  rw [(hfills k).interpolate_eq hq'' ht ho (s := ⟨_, hlt⟩) rfl, mix_ofFn]
  congr 2
  funext r
  rw [fittedSpline_mix hdemand hfills hz fun g hg => hmix g hg r]
  simp only [Pi.add_apply, Pi.smul_apply, Submodule.coe_add, Submodule.coe_smul, iterate_map_add,
    Polynomial.iterate_derivative_smul, Polynomial.eval_add, Polynomial.eval_smul, smul_eq_mul]

end Full

noncomputable def fitWith (p : Problem ℝ) (rs : List (Request ℝ)) (tolerance : Value ℝ)
    (v : ℕ → Value ℝ) : Except (Fault ℝ) (Problem ℝ) :=
  fit { p.attemptAll (Request.withValues v rs) with rankTolerance := tolerance }

/-- The values make no difference to what a fit of the same requests comes to: too few rows, too
small a rank, or curves. Curves depend linearly on the values. -/
theorem fit_is_linear {times coefficientCount outputCount metadata : Value ℝ} {p : Problem ℝ}
    (hp : create times coefficientCount outputCount metadata = .ok p) (rs : List (Request ℝ))
    {u v : ℕ → Value ℝ} (huv : ∀ i, (u i).Alike (v i)) {tolerance : Value ℝ}
    (ht : IsTolerance tolerance) :
    ∃ rows ≤ p.dimension, (p.attemptAll (Request.withValues u rs)).rowIndex = rows ∧
      (p.attemptAll (Request.withValues v rs)).rowIndex = rows ∧
      (rows < p.dimension →
        p.fitWith rs tolerance u = .error (.underdetermined rows p.dimension) ∧
        p.fitWith rs tolerance v = .error (.underdetermined rows p.dimension)) ∧
      (rows = p.dimension →
        (∃ k < p.dimension, p.fitWith rs tolerance u = .error (.singular k p.dimension) ∧
          p.fitWith rs tolerance v = .error (.singular k p.dimension)) ∨
        ∃ q q', p.fitWith rs tolerance u = .ok q ∧ p.fitWith rs tolerance v = .ok q' ∧
          ∀ a b w, (∀ i, Value.Mixes a b (u i) (v i) (w i)) →
            ∃ q'', p.fitWith rs tolerance w = .ok q'' ∧
              ∀ (t : Time ℝ) (x : ℝ) (order : Value ℝ) (d : ℕ), t.toScalar = .ok x →
                order.int? = some (d : ℤ) → ∃ ys zs, q.interpolate t order = .ok ys ∧
                  q'.interpolate t order = .ok zs ∧
                  q''.interpolate t order = .ok (mix a b ys zs)) := by
  have hf := create_spec hp
  obtain ⟨gs, hgs, hdemand, hasks⟩ := hf.exists_accepted u rs
  have hrun : ∀ x : Variants u, p.attemptAll (Request.withValues x rs) =
      p.registering (gs.map (· x)) := by
    intro x
    rw [hf.attemptAll_eq, hgs]
  let first : Variants u := ⟨u, fun i => (huv i).trans (huv i).symm⟩
  let second : Variants u := ⟨v, huv⟩
  have hreg : ∀ x : Variants u, p.Registrable (gs.map (· x)) := fun x =>
    hgs x ▸ hf.registrable_accepted _
  have hrow : ∀ x : Variants u, ((gs.map (· x)).flatMap p.equations).length =
      ((gs.map (· first)).flatMap p.equations).length := fun x => length_family hdemand x first
  refine ⟨_, (hreg first).length_le, by rw [hrun first]; rfl,
    by rw [hrun second, ← hrow second]; rfl, fun hlt => ?_, fun heq => ?_⟩
  · -- the rows are counted before the rank is looked at
    have hunder : ∀ x : Variants u, p.fitWith rs tolerance x = .error (.underdetermined
        ((gs.map (· first)).flatMap p.equations).length p.dimension) := by
      intro x
      rw [fitWith, hrun x, ← hrow x]
      refine fit_of_rowIndex_lt (p := { p.registering _ with rankTolerance := tolerance }) rfl ?_
      exact Int.ofNat_lt.2 (by rwa [hrow x])
    exact ⟨hunder first, hunder second⟩
  · have hfills : ∀ x : Variants u, p.Fills (gs.map (· x)) := fun x =>
      ⟨hreg x, (hrow x).trans heq⟩
    have hwith : ∀ x : Variants u, p.fitWith rs tolerance x =
        fit { p.registering (gs.map (· x)) with rankTolerance := tolerance } := by
      intro x
      rw [fitWith, hrun x]
    rcases fit_family hdemand hfills first ht with ⟨k, hk, hsing⟩ | hfit
    · exact .inl ⟨k, hk, (hwith first).trans (hsing first), (hwith second).trans (hsing second)⟩
    · obtain ⟨q, hq⟩ := (hfit first).2
      obtain ⟨q', hq'⟩ := (hfit second).2
      refine .inr ⟨q, q', (hwith first).trans hq, (hwith second).trans hq', fun a b w hw => ?_⟩
      let third : Variants u := ⟨w, fun i => (hw i).alike⟩
      obtain ⟨q'', hq''⟩ := (hfit third).2
      refine ⟨q'', (hwith third).trans hq'', fun t x order d htx ho => ?_⟩
      refine interpolate_mix hdemand hfills hf (fun x => (hfit x).1) (fun g hg r => ?_) hq hq' hq''
        htx ho
      obtain ⟨i, c, hc⟩ := hasks g hg
      exact value_mix (hw i) (hc first) (hc second) (hc third) r

def lineValues (y s : ℝ) (i : ℕ) : Value ℝ :=
  .real (if i = 0 then y else s)

theorem fit_is_linear_for_lines : ∃ q q' q'',
    create (.list [.real 1, .real 2]) (.int 2) (.int 1) (.record []) = .ok (line 1 2) ∧
    (∀ i, (lineValues 3 4 i).Alike (lineValues 5 6 i)) ∧ IsTolerance (.real 0) ∧
    (∀ i, Value.Mixes 2 (-1) (lineValues 3 4 i) (lineValues 5 6 i) (lineValues 1 2 i)) ∧
    (line 1 2).fitWith (lineRequests 0 0) (.real 0) (lineValues 3 4) = .ok q ∧
    (line 1 2).fitWith (lineRequests 0 0) (.real 0) (lineValues 5 6) = .ok q' ∧
    (line 1 2).fitWith (lineRequests 0 0) (.real 0) (lineValues 1 2) = .ok q'' ∧
    ∀ t : ℝ, ∃ ys zs, q.interpolate (.given t) (.int 0) = .ok ys ∧
      q'.interpolate (.given t) (.int 0) = .ok zs ∧
      q''.interpolate (.given t) (.int 0) = .ok (mix 2 (-1) ys zs) := by
  have hc := create_line (one_lt_two : (1 : ℝ) < 2)
  have halike : ∀ i, (lineValues 3 4 i).Alike (lineValues 5 6 i) := fun i =>
    ⟨[1], _, _, Value.isArray_real _, Value.isArray_real _⟩
  have ht : IsTolerance (.real 0) := .inr ⟨0, rfl, le_rfl⟩
  have hmix : ∀ i, Value.Mixes 2 (-1) (lineValues 3 4 i) (lineValues 5 6 i) (lineValues 1 2 i) := by
    intro i
    refine ⟨[1], _, _, Value.isArray_real _, Value.isArray_real _, rfl, ?_⟩
    have heq : mix 2 (-1) [if i = 0 then 3 else 4] [if i = 0 then 5 else 6] =
        [if i = 0 then 1 else 2] := by
      split <;> norm_num [mix]
    rw [heq]
    exact Value.isArray_real _
  have h0 : (Value.real 0 : Value ℝ).toNumber = .ok 0 := rfl
  obtain ⟨p, hfit⟩ := exists_fit_line one_pos one_lt_two 3 4 h0
  obtain ⟨rows, -, hrow, -, -, hfull⟩ := fit_is_linear hc (lineRequests 0 0) halike ht
  have hrow' := rowIndex_attemptAll_line (one_lt_two : (1 : ℝ) < 2) 3 4
  obtain ⟨k, -, hk, -⟩ | ⟨q, q', hq, hq', h⟩ := hfull (Int.ofNat_inj.1 (hrow.symm.trans hrow'))
  · cases hk.symm.trans hfit
  · obtain ⟨q'', hq'', hcurve⟩ := h 2 (-1) _ hmix
    exact ⟨q, q', q'', hc, halike, ht, hmix, hq, hq', hq'', fun t =>
      hcurve (.given t) t (.int 0) 0 rfl rfl⟩

def valueAlone : List (Request ℝ) :=
  [.constant (.int 0) (.int 0) .null]

/-- With the value alone the slope is open, and a fit does not get as far as the rank. -/
theorem rank_of_few_rows_is_not_found :
    create (.list [.real 1, .real 2]) (.int 2) (.int 1) (.record []) = .ok (line 1 2) ∧
    (Value.real 3 : Value ℝ).Alike (.real 4) ∧ IsTolerance .null ∧
    (∀ y : ℝ, (line 1 2).fitWith valueAlone .null (fun _ => .real y) =
      .error (.underdetermined 1 2)) ∧
    ¬((∃ q q', (line 1 2).fitWith valueAlone .null (fun _ => .real 3) = .ok q ∧
        (line 1 2).fitWith valueAlone .null (fun _ => .real 4) = .ok q') ∨
      ∃ k n,
        (line 1 2).fitWith valueAlone .null (fun _ => .real 3) = .error (.singular k n) ∧
        (line 1 2).fitWith valueAlone .null (fun _ => .real 4) = .error (.singular k n)) := by
  have hc := create_line (one_lt_two : (1 : ℝ) < 2)
  have hf := create_spec hc
  have hunder : ∀ y : ℝ, (line 1 2).fitWith valueAlone .null (fun _ => .real y) =
      .error (.underdetermined 1 2) := by
    intro y
    have hplace : (line 1 2).Locates (.int 0) (.int 0) 0 0 :=
      ⟨⟨rfl, by decide⟩, ⟨rfl, by decide⟩, fun b hb => by cases hb⟩
    have hasks : List.Forall₂ (line 1 2).Asks
        (Request.withValues (fun _ => .real y) valueAlone) [.constant 0 0 [y]] :=
      .cons ⟨hplace, Value.isArray_real y⟩ .nil
    have hall := (Fresh.registrable_nil (line 1 2)).accepted_of_asks hasks one_le_two
    rw [hf.registering_nil] at hall
    rw [fitWith, hf.attemptAll_eq, hall]
    exact fit_of_rowIndex_lt (p := (line 1 2).registering [.constant 0 0 [y]]) rfl one_lt_two
  refine ⟨hc, ⟨[1], _, _, Value.isArray_real 3, Value.isArray_real 4⟩, .inl rfl, hunder, ?_⟩
  rw [hunder 3, hunder 4]
  rintro (⟨q, q', hq, -⟩ | ⟨k, n, hk, -⟩)
  · cases hq
  · cases hk

end Problem

end KnotSpline
