import KnotSpline.Proofs.Acceptance
import KnotSpline.Proofs.Lifecycle

/-! Some outputs of a problem without the others. Requests act on the outputs separately, so that
restricting a problem to chosen outputs commutes with every run of requests. -/

namespace KnotSpline

section Pick

variable {β γ : Type}

def pick (chosen : List ℕ) (absent : β) (xs : List β) : List β :=
  chosen.map fun r => xs.getD r absent

variable {chosen : List ℕ} {absent : β}

lemma getD_pick (xs : List β) {j : ℕ} (hj : j < chosen.length) :
    (pick chosen absent xs).getD j absent = xs.getD chosen[j] absent := by
  simp [pick, hj]

lemma pick_replicate (n : ℕ) :
    pick chosen absent (List.replicate n absent) = List.replicate chosen.length absent := by
  rw [pick, ← List.map_const']
  refine List.map_congr_left fun r _ => ?_
  rw [List.getD_eq_getElem?_getD, List.getElem?_replicate]
  split <;> rfl

lemma pick_map {f : β → γ} {absent' : γ} (hf : f absent = absent') (xs : List β) :
    pick chosen absent' (xs.map f) = (pick chosen absent xs).map f := by
  rw [pick, pick, List.map_map]
  refine List.map_congr_left fun r _ => ?_
  rw [← hf, List.getD_map]
  rfl

lemma pick_map_range {n : ℕ} (h : ∀ r ∈ chosen, r < n) (f : ℕ → β) :
    pick chosen absent ((List.range n).map f) = chosen.map f := by
  refine List.map_congr_left fun r hr => ?_
  simp [h r hr]

lemma map_modify {f : β → γ} {g : β → β} {g' : γ → γ} (h : ∀ x, g' (f x) = f (g x))
    (xs : List β) (i : ℕ) : (xs.map f).modify i g' = (xs.modify i g).map f := by
  apply List.ext_getElem?
  intro j
  rw [List.getElem?_modify, List.getElem?_map, List.getElem?_map, List.getElem?_modify]
  cases xs[j]? with
  | none => rfl
  | some x =>
    by_cases hij : i = j
    · simp [hij, h]
    · simp [hij]

end Pick

variable {α : Type} [Scalar α] (chosen : List ℕ)

namespace Equation

def restrict (e : Equation α) : Equation α :=
  ⟨e.left, pick chosen 0 e.right⟩

end Equation

namespace Row

def restrict (row : Row α) : Row α :=
  ⟨row.blocks, pick chosen 0 row.right⟩

lemma fill_restrict (width : ℕ) (row : Row α) (e : Equation α) :
    fill width (row.restrict chosen) (e.restrict chosen) =
      (fill width row e).restrict chosen := rfl

lemma fillAll_restrict (width : ℕ) (system : List (Equation α)) (start : ℤ)
    (rows : List (Row α)) :
    fillAll width (system.map (Equation.restrict chosen)) start (rows.map (restrict chosen)) =
      (fillAll width system start rows).map (List.map (Equation.restrict chosen)) := by
  induction rows generalizing system start with
  | nil => rfl
  | cons row rows ih =>
    rw [List.map_cons, fillAll, fillAll, List.length_map]
    cases place? system.length start with
    | none => rfl
    | some i =>
      dsimp only
      rw [map_modify (fill_restrict chosen width row), ih]

end Row

namespace Constraint

def restrict : Constraint α → Constraint α
  | constant knot order target => constant knot order (pick chosen 0 target)
  | continuity knot order => continuity knot order

end Constraint

namespace Phase

def restrict : Phase α → Phase α
  | building system => building (system.map (Equation.restrict chosen))
  | fitted system x => fitted (system.map (Equation.restrict chosen)) (x.map (pick chosen []))
  | loaded x => loaded (x.map (pick chosen []))

lemma system?_restrict (phase : Phase α) : (phase.restrict chosen).system? =
    phase.system?.map (List.map (Equation.restrict chosen)) := by
  cases phase <;> rfl

lemma solution?_restrict (phase : Phase α) : (phase.restrict chosen).solution? =
    phase.solution?.map (List.map (pick chosen [])) := by
  cases phase <;> rfl

end Phase

def Value.Reads (v : Value α) (n : ℕ) (xs : List α) : Prop :=
  ∃ a, v.toArray = .ok a ∧ a.atLeastVector.shape = [n] ∧ a.atLeastVector.entries = xs

namespace Value.Reads

variable {v v' knot order : Value α} {n : ℕ} {xs ys : List α} {chosen}

lemma unique (h : v.Reads n xs) (h' : v.Reads n ys) : xs = ys := by
  obtain ⟨a, ha, -, hx⟩ := h
  obtain ⟨b, hb, -, hy⟩ := h'
  obtain rfl := Except.ok.inj (ha.symm.trans hb)
  exact hx.symm.trans hy

lemma reals_iff : (Value.list (xs.map .real)).Reads n ys ↔ xs.length = n ∧ xs = ys := by
  have ha : (NumArray.vector xs).atLeastVector = .vector xs := rfl
  simp only [Reads, toArray_reals, Except.ok.injEq, exists_eq_left', ha]
  simp [NumArray.vector]

lemma real (x : α) : (Value.real x).Reads 1 [x] :=
  ⟨.scalar x, rfl, rfl, rfl⟩

end Value.Reads

/-- The second request is the first one for the chosen ones of `n` outputs. A value that does not
have an entry for each output stays such a value. -/
inductive Request.Restricts (n : ℕ) : Request α → Request α → Prop
  | constant {knot order value value' : Value α}
      (h : ∀ ys, value'.Reads chosen.length ys ↔ ∃ xs, value.Reads n xs ∧ pick chosen 0 xs = ys) :
      Restricts n (.constant knot order value) (.constant knot order value')
  | continuity (knot order : Value α) :
      Restricts n (.continuity knot order) (.continuity knot order)

namespace Request

variable {n : ℕ} {chosen}

lemma restricts_of_reads {value value' : Value α} {xs : List α} (h : value.Reads n xs)
    (h' : value'.Reads chosen.length (pick chosen 0 xs)) (knot order : Value α) :
    Restricts chosen n (.constant knot order value) (.constant knot order value') := by
  refine .constant fun ys => ⟨fun hy => ⟨xs, h, h'.unique hy⟩, ?_⟩
  rintro ⟨zs, hz, rfl⟩
  rwa [← h.unique hz]

theorem exists_restricts (chosen : List ℕ) (n : ℕ) (r : Request α) :
    ∃ r', Restricts chosen n r r' := by
  cases r with
  | constant knot order value =>
    by_cases hv : ∃ xs, value.Reads n xs
    · obtain ⟨xs, hx⟩ := hv
      have hpick : (Value.list ((pick chosen 0 xs).map .real)).Reads chosen.length _ :=
        Value.Reads.reals_iff.2 ⟨List.length_map _, rfl⟩
      exact ⟨_, restricts_of_reads hx hpick knot order⟩
    · -- one entry too many
      refine ⟨.constant knot order (.list ((List.replicate (chosen.length + 1) 0).map .real)),
        .constant fun ys => iff_of_false (fun h => ?_) fun ⟨xs, hx, _⟩ => hv ⟨xs, hx⟩⟩
      have hlen := (Value.Reads.reals_iff.1 h).1
      rw [List.length_replicate] at hlen
      omega
  | continuity knot order => exact ⟨_, .continuity knot order⟩

end Request

namespace Problem

def restrict (p : Problem α) : Problem α :=
  { p with outputCount := chosen.length, phase := p.phase.restrict chosen }

variable {p : Problem α} {chosen}

lemma isFitted_restrict : (p.restrict chosen).isFitted = p.isFitted := by
  rw [isFitted, restrict, Phase.solution?_restrict, Option.isSome_map, isFitted]

lemma equations_restrict (c : Constraint α) :
    (p.restrict chosen).equations (c.restrict chosen) =
      (p.equations c).map (Equation.restrict chosen) := by
  cases c with
  | constant knot order target =>
    rw [equations, List.map_map]
    rfl
  | continuity knot order =>
    rw [equations, List.map_singleton, Equation.restrict, pick_replicate]
    rfl

lemma rowsOf_restrict (c : Constraint α) :
    (p.restrict chosen).rowsOf (c.restrict chosen) =
      (p.rowsOf c).map (List.map (Row.restrict chosen)) := by
  have hv : ∀ knot order, (p.restrict chosen).knotVector knot order = .ok (p.knotRow knot order) :=
    knotVector_eq
  cases c with
  | constant knot order target =>
    rw [Constraint.restrict, rowsOf, rowsOf, hv, knotVector_eq]
    change Except.ok _ = Except.ok _
    rw [List.map_map]
    rfl
  | continuity knot order =>
    rw [Constraint.restrict, rowsOf, rowsOf, hv, knotVector_eq]
    change Except.ok _ = Except.ok _
    rw [List.map_singleton, Row.restrict, pick_replicate]
    rfl

lemma register_restrict (c : Constraint α) :
    (p.restrict chosen).register (c.restrict chosen) = (p.register c).map (restrict chosen) := by
  have hrows : (p.restrict chosen).rowsOf (c.restrict chosen) = _ := rowsOf_restrict c
  rw [register, register]
  cases hp : p.phase with
  | building system =>
    have hphase : (p.restrict chosen).phase =
        .building (system.map (Equation.restrict chosen)) := by
      rw [restrict, hp, Phase.restrict]
    rw [hphase, hrows]
    dsimp only
    cases p.rowsOf c with
    | error e => rfl
    | ok rows =>
      have hfill := Row.fillAll_restrict chosen p.coefficientCount system p.rowIndex rows
      change Row.fillAll p.coefficientCount _ p.rowIndex _ >>= _ =
        (Row.fillAll p.coefficientCount system p.rowIndex rows >>= _).map _
      rw [hfill]
      cases Row.fillAll p.coefficientCount system p.rowIndex rows with
      | error e => rfl
      | ok system =>
        change Except.ok _ = Except.ok _
        rw [List.length_map]
        rfl
  | fitted system x => rw [restrict, hp]; rfl
  | loaded x => rw [restrict, hp]; rfl

section Runs

variable {r r' : Request α} {rs rs' : List (Request α)}

lemma asks_restrict_iff (h : Request.Restricts chosen p.outputCount r r') {c' : Constraint α} :
    (p.restrict chosen).Asks r' c' ↔ ∃ c, p.Asks r c ∧ c.restrict chosen = c' := by
  cases h with
  | @constant knot order value value' h =>
    cases c' with
    | constant k d target =>
      constructor
      · rintro ⟨hl, hv⟩
        obtain ⟨xs, hx, rfl⟩ := (h target).1 hv
        exact ⟨.constant k d xs, ⟨hl, hx⟩, rfl⟩
      · rintro ⟨c, hc, hr⟩
        cases c with
        | constant k' d' xs =>
          obtain ⟨rfl, rfl, rfl⟩ := Constraint.constant.inj hr
          exact ⟨hc.1, (h _).2 ⟨xs, hc.2, rfl⟩⟩
        | continuity k' d' => exact hc.elim
    | continuity k d =>
      refine iff_of_false id ?_
      rintro ⟨c, hc, hr⟩
      cases c with
      | constant k' d' xs => cases hr
      | continuity k' d' => exact hc.elim
  | continuity knot order =>
    cases c' with
    | constant k d target =>
      refine iff_of_false id ?_
      rintro ⟨c, hc, hr⟩
      cases c with
      | constant k' d' xs => exact hc.elim
      | continuity k' d' => cases hr
    | continuity k d =>
      constructor
      · exact fun hc => ⟨.continuity k d, hc, rfl⟩
      · rintro ⟨c, hc, hr⟩
        cases c with
        | constant k' d' xs => exact hc.elim
        | continuity k' d' =>
          obtain ⟨rfl, rfl⟩ := Constraint.continuity.inj hr
          exact hc

lemma resolve_restrict_iff (h : Request.Restricts chosen p.outputCount r r')
    {c' : Constraint α} : (p.restrict chosen).resolve r' = .ok c' ↔
      ∃ c, p.resolve r = .ok c ∧ c.restrict chosen = c' := by
  have hl : ∀ c : Constraint α, ((p.restrict chosen).equations (c.restrict chosen)).length =
      (p.equations c).length := by
    intro c
    rw [equations_restrict, List.length_map]
  have hrow : (p.restrict chosen).rowIndex = p.rowIndex := rfl
  have hdim : (p.restrict chosen).dimension = p.dimension := rfl
  simp only [resolve_eq_ok_iff, isFitted_restrict, asks_restrict_iff h, hrow, hdim]
  constructor
  · rintro ⟨hb, ⟨c, hc, rfl⟩, hle⟩
    rw [hl] at hle
    exact ⟨c, ⟨hb, hc, hle⟩, rfl⟩
  · rintro ⟨c, ⟨hb, hc, hle⟩, rfl⟩
    rw [hl]
    exact ⟨hb, ⟨c, hc, rfl⟩, hle⟩

theorem constrain_restrict_iff (h : Request.Restricts chosen p.outputCount r r')
    {q' : Problem α} : (p.restrict chosen).constrain r' = .ok q' ↔
      ∃ q, p.constrain r = .ok q ∧ q.restrict chosen = q' := by
  simp only [constrain, bind_eq_ok_iff, resolve_restrict_iff h]
  constructor
  · rintro ⟨_, ⟨c, hc, rfl⟩, hq⟩
    rw [register_restrict, map_eq_ok_iff] at hq
    obtain ⟨q, hq, rfl⟩ := hq
    exact ⟨q, ⟨c, hc, hq⟩, rfl⟩
  · rintro ⟨q, ⟨c, hc, hq⟩, rfl⟩
    refine ⟨_, ⟨c, hc, rfl⟩, ?_⟩
    rw [register_restrict, hq]
    rfl

lemma accepts_restrict_iff (h : Request.Restricts chosen p.outputCount r r') :
    (p.restrict chosen).Accepts r' ↔ p.Accepts r := by
  simp [Accepts, constrain_restrict_iff h]

lemma attempt_restrict (h : Request.Restricts chosen p.outputCount r r') :
    (p.restrict chosen).attempt r' = (p.attempt r).restrict chosen := by
  rw [attempt, attempt]
  cases hq : p.constrain r with
  | ok q => rw [(constrain_restrict_iff h).2 ⟨q, hq, rfl⟩]
  | error e =>
    cases hq' : (p.restrict chosen).constrain r' with
    | ok q' =>
      obtain ⟨q, hok, -⟩ := (constrain_restrict_iff h).1 hq'
      cases hok.symm.trans hq
    | error e' => rfl

lemma outputCount_attempt (p : Problem α) (r : Request α) :
    (p.attempt r).outputCount = p.outputCount := by
  rw [attempt]
  cases hq : p.constrain r with
  | ok q =>
    obtain ⟨-, -, -, -, -, -, rfl⟩ := constrain_cases hq
    rfl
  | error e => rfl

lemma outputCount_attemptAll (p : Problem α) (rs : List (Request α)) :
    (p.attemptAll rs).outputCount = p.outputCount := by
  induction rs generalizing p with
  | nil => rfl
  | cons r rs ih => exact (ih (p.attempt r)).trans (outputCount_attempt p r)

theorem attemptAll_restrict
    (h : List.Forall₂ (Request.Restricts chosen p.outputCount) rs rs') :
    (p.restrict chosen).attemptAll rs' = (p.attemptAll rs).restrict chosen := by
  induction rs generalizing p rs' with
  | nil =>
    obtain rfl := List.forall₂_nil_left_iff.1 h
    rfl
  | cons r rs ih =>
    obtain ⟨r', rs', hr, hrs, rfl⟩ := List.forall₂_cons_left_iff.1 h
    rw [attemptAll, attemptAll, List.foldl_cons, List.foldl_cons, attempt_restrict hr]
    exact ih (by rwa [outputCount_attempt])

end Runs

end Problem

end KnotSpline
