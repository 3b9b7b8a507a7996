import KnotSpline.Problem.Constraint
import KnotSpline.Problem.Curve
import KnotSpline.Problem.Fit
import KnotSpline.Problem.Record
import KnotSpline.Problem.Segments
import KnotSpline.Proofs.Checks
import Mathlib.Tactic.Contrapose

/-! When the phase of a problem is the reason for which an operation is refused. Nothing that
depends on the arguments ends in one of these faults. -/

namespace KnotSpline

variable {α β γ : Type}

def Fault.IsOfPhase : Fault α → Prop
  | alreadyFitted => True
  | noSystem => True
  | notFitted => True
  | notFittedToWrite => True
  | _ => False

def Settled (x : Except (Fault α) β) : Prop :=
  ∀ e, x = .error e → ¬e.IsOfPhase

lemma Settled.ne_error {x : Except (Fault α) β} (h : Settled x) {e : Fault α} (he : e.IsOfPhase) :
    x ≠ .error e :=
  fun hx => h e hx he

lemma settled_pure (b : β) : Settled (pure b : Except (Fault α) β) := by
  intro e h
  cases h

lemma settled_throw {e : Fault α} (h : ¬e.IsOfPhase) :
    Settled (throw e : Except (Fault α) β) := by
  intro e' he
  cases he
  exact h

lemma Settled.bind {x : Except (Fault α) β} {f : β → Except (Fault α) γ} (hx : Settled x)
    (hf : ∀ b, Settled (f b)) : Settled (x >>= f) := by
  cases x with
  | error e => exact fun e' he => hx e' (by cases he; rfl)
  | ok b => exact hf b

lemma settled_check {p : Prop} [Decidable p] {e : Fault α} {f : Unit → Except (Fault α) β}
    (he : ¬e.IsOfPhase) (hf : Settled (f ())) : Settled (if p then (throw e >>= f) else f ()) := by
  split
  · exact settled_throw he
  · exact hf

lemma settled_mapM {f : β → Except (Fault α) γ} (h : ∀ b, Settled (f b)) (bs : List β) :
    Settled (bs.mapM f) := by
  induction bs with
  | nil => exact settled_pure _
  | cons b bs ih =>
    rw [List.mapM_cons]
    exact (h b).bind fun _ => ih.bind fun _ => settled_pure _

variable [Scalar α]

namespace Value

lemma settled_ofInt (z : Int) : Settled (ofInt z : Except (Fault α) α) := by
  rw [ofInt]
  split
  · exact settled_pure _
  · exact settled_throw id

lemma settled_toScalar (v : Value α) : Settled v.toScalar := by
  cases v with
  | int z => exact settled_ofInt z
  | text s =>
    rw [toScalar]
    split
    · exact settled_pure _
    · exact settled_throw id
  | null | bool | real => exact settled_pure _
  | list | record | array | problem | foreign => exact settled_throw id

lemma settled_toArray (v : Value α) : Settled v.toArray := by
  rw [toArray]
  split
  · exact settled_throw id
  · exact settled_check id ((settled_mapM settled_toScalar _).bind fun _ => settled_pure _)

lemma settled_toNumber (v : Value α) : Settled v.toNumber := by
  cases v with
  | int z => exact settled_ofInt z
  | bool | real => exact settled_pure _
  | null | text | list | record | array | problem | foreign => exact settled_throw id

lemma settled_sub (a b : Value α) : Settled (a.sub b) := by
  unfold sub
  split
  · exact settled_pure _
  · split
    · exact (settled_toNumber _).bind fun _ => settled_pure _
    · exact (settled_toNumber _).bind fun _ => settled_pure _
    · exact settled_throw id

lemma settled_toBound (v : Value α) : Settled v.toBound := by
  unfold toBound
  split
  · exact settled_pure _
  · exact settled_toNumber _

end Value

namespace Step

lemma settled_rankAgainst (steps : List (Step α)) (tolerances : List (Value α)) :
    Settled (rankAgainst steps tolerances) := by
  unfold rankAgainst
  exact settled_check id ((settled_mapM Value.settled_toBound _).bind fun _ => settled_pure _)

lemma settled_rankAlong (steps : List (Step α)) (tolerances : Value α) :
    Settled (rankAlong steps tolerances) := by
  rw [rankAlong]
  split
  · exact settled_throw id
  · exact settled_check id (settled_check id
      ((settled_mapM (settled_rankAgainst steps) _).bind fun _ => settled_pure _))

end Step

lemma Time.settled_power (t : Time α) (n : Nat) : Settled (t.power n) := by
  cases t with
  | whole z => exact Value.settled_ofInt _
  | given x =>
    rw [power]
    split
    · exact settled_throw id
    · exact settled_pure _
  | stored x => exact settled_pure _
  | other => exact settled_throw id

lemma Time.settled_toScalar (t : Time α) : Settled t.toScalar := by
  cases t with
  | whole z =>
    rw [toScalar]
    split
    · exact Value.settled_ofInt _
    · exact settled_throw id
  | given x => exact settled_pure _
  | stored x => exact settled_pure _
  | other => exact settled_throw id

lemma settled_evaluationVector (n : Nat) (t : Time α) (d : Nat) :
    Settled (evaluationVector n t d) := by
  rw [evaluationVector]
  split
  · exact settled_pure _
  · refine (settled_mapM (fun j => ?_) _).bind fun _ => settled_pure _
    split
    · exact settled_pure _
    · split
      · exact settled_pure _
      · exact t.settled_power _

lemma Polynomial.settled_shift (f : Polynomial α) (center : Value α) :
    Settled (f.shift center) := by
  refine (Value.settled_sub _ _).bind fun d => (Value.settled_toNumber d).bind fun x => ?_
  split
  · split
    · exact settled_throw id
    · split
      · exact settled_pure _
      · exact settled_throw id
    · exact settled_pure _
  · exact settled_pure _

namespace Problem

variable (p : Problem α)

lemma settled_rank (steps : List (Step α)) : Settled (p.rank steps) := by
  rw [rank]
  split
  · exact settled_pure _
  · exact Step.settled_rankAlong _ _
  · exact settled_throw id
  · exact (Value.settled_toNumber _).bind fun _ => settled_pure _

omit [Scalar α] in
lemma settled_naturalOrder (order : Value α) : Settled (naturalOrder order) := by
  rw [naturalOrder]
  split
  · split
    · exact settled_pure _
    · exact settled_throw id
  · exact settled_throw id

lemma settled_segmentIndex (t : Time α) : Settled (p.segmentIndex t) :=
  t.settled_toScalar.bind fun _ => settled_check id (settled_pure _)

omit [Scalar α] in
lemma settled_checkKnot (knot : Value α) : Settled (p.checkKnot knot) := by
  rw [checkKnot]
  split
  · split
    · exact settled_pure _
    · exact settled_throw id
  · exact settled_throw id

omit [Scalar α] in
lemma settled_checkOrder (order : Value α) : Settled (p.checkOrder order) := by
  rw [checkOrder]
  split
  · split
    · exact settled_pure _
    · exact settled_throw id
  · exact settled_throw id

omit [Scalar α] in
lemma settled_checkRows (rows : Nat) : Settled (p.checkRows rows) := by
  rw [checkRows]
  split
  · exact settled_throw id
  · exact settled_pure _

omit [Scalar α] in
lemma settled_checkSelection (knot : Value α) (order : Nat) :
    Settled (p.checkSelection knot order) := by
  unfold checkSelection
  split
  · split
    · exact settled_throw id
    · exact settled_pure _
  · exact settled_pure _

lemma settled_rowsOf (c : Constraint α) : Settled (p.rowsOf c) := by
  cases c with
  | constant => exact (settled_evaluationVector _ _ _).bind fun _ => settled_pure _
  | continuity => exact (settled_evaluationVector _ _ _).bind fun _ => settled_pure _

omit [Scalar α] in
lemma settled_fillAll (width : Nat) (rows : List (Row α)) (system : List (Equation α))
    (start : Int) : Settled (Row.fillAll width system start rows) := by
  induction rows generalizing system start with
  | nil => exact settled_pure _
  | cons row rows ih =>
    rw [Row.fillAll]
    split
    · exact ih _ _
    · exact settled_throw id

variable {p}

omit [Scalar α] in
lemma isFitted_eq_true_iff : p.isFitted = true ↔ ∃ x, p.phase.solution? = some x :=
  Option.isSome_iff_exists

lemma constrain_eq_alreadyFitted_iff (r : Request α) :
    p.constrain r = .error .alreadyFitted ↔ p.isFitted = true := by
  constructor
  · contrapose
    intro hf
    have hb : p.checkBuilding = pure () := if_neg hf
    obtain ⟨system, hs⟩ : ∃ system, p.phase = .building system := by
      cases hp : p.phase with
      | building system => exact ⟨system, rfl⟩
      | fitted | loaded => simp [isFitted, Phase.solution?, hp] at hf
    refine Settled.ne_error ?_ trivial
    refine Settled.bind ?_ fun c => ?_
    · cases r with
      | constant knot order value =>
        rw [resolve, hb]
        exact (settled_pure _).bind fun _ => (p.settled_checkKnot knot).bind fun k =>
          (p.settled_checkOrder order).bind fun d => value.settled_toArray.bind fun a =>
          settled_check id ((p.settled_checkRows _).bind fun _ =>
            (p.settled_checkSelection knot d).bind fun _ => settled_pure _)
      | continuity knot order =>
        rw [resolve, hb]
        exact (settled_pure _).bind fun _ => (p.settled_checkKnot knot).bind fun k =>
          settled_check id ((p.settled_checkOrder order).bind fun d =>
            (p.settled_checkRows _).bind fun _ =>
            (p.settled_checkSelection knot d).bind fun _ => settled_pure _)
    · rw [register, hs]
      exact (p.settled_rowsOf c).bind fun rows =>
        (settled_fillAll _ rows _ _).bind fun _ => settled_pure _
  · intro hf
    have hb : p.checkBuilding = .error .alreadyFitted := if_pos hf
    cases r with
    | constant => rw [constrain, resolve, hb]; rfl
    | continuity => rw [constrain, resolve, hb]; rfl

lemma fit_eq_noSystem_iff : p.fit = .error .noSystem ↔ p.phase.system? = none := by
  constructor
  · contrapose
    intro hs
    obtain ⟨system, hs⟩ := Option.ne_none_iff_exists'.1 hs
    refine Settled.ne_error ?_ trivial
    rw [fit, hs]
    refine settled_check id (settled_check id (settled_check id
      ((p.settled_rank _).bind fun rank => settled_check id ?_)))
    split
    · exact settled_check id (settled_check id (settled_check id (settled_pure _)))
    · exact settled_pure _
  · intro hs
    rw [fit, hs]
    rfl

omit [Scalar α] in
lemma bind_solution_eq_notFitted_iff {f : Solution α → Except (Fault α) β}
    (hf : ∀ x, p.phase.solution? = some x → Settled (f x)) :
    (p.solution >>= f) = .error .notFitted ↔ p.isFitted = false := by
  rw [solution, isFitted]
  cases h : p.phase.solution? with
  | none => exact iff_of_true rfl rfl
  | some x => exact iff_of_false ((hf x h).ne_error trivial) (by simp)

omit [Scalar α] in
lemma solution_eq_notFitted_iff : p.solution = .error .notFitted ↔ p.isFitted = false := by
  rw [← bind_pure p.solution]
  exact bind_solution_eq_notFitted_iff fun x _ => settled_pure x

lemma settled_interpolate (hp : p.isFitted = true) (t : Time α) (order : Value α) :
    Settled (p.interpolate t order) := by
  have hs : Settled p.solution := by
    obtain ⟨x, hx⟩ := isFitted_eq_true_iff.1 hp
    rw [solution, hx]
    exact settled_pure x
  exact hs.bind fun _ => ((settled_naturalOrder order).bind fun _ =>
    settled_evaluationVector _ _ _).bind fun _ => (p.settled_segmentIndex t).bind fun _ =>
      settled_pure _

lemma interpolate_eq_notFitted_iff (t : Time α) (order : Value α) :
    p.interpolate t order = .error .notFitted ↔ p.isFitted = false :=
  bind_solution_eq_notFitted_iff fun _ _ => ((settled_naturalOrder order).bind fun _ =>
    settled_evaluationVector _ _ _).bind fun _ => (p.settled_segmentIndex t).bind fun _ =>
      settled_pure _

lemma sample_eq_notFitted_iff (times order : Value α) :
    p.sample times order = .error .notFitted ↔ p.isFitted = false :=
  bind_solution_eq_notFitted_iff fun _ hx => (settled_naturalOrder order).bind fun _ =>
    times.settled_toArray.bind fun _ => settled_check id
      (settled_mapM (fun _ => settled_interpolate (isFitted_eq_true_iff.2 ⟨_, hx⟩) _ _) _)

lemma segmentPolynomials_eq_notFitted_iff (relative : Bool) :
    p.segmentPolynomials relative = .error .notFitted ↔ p.isFitted = false := by
  refine bind_solution_eq_notFitted_iff fun x _ => settled_mapM (fun piece => ?_) _
  obtain ⟨start, segment⟩ := piece
  dsimp only
  split
  · exact Polynomial.settled_shift _ _
  · exact settled_pure _

omit [Scalar α] in
lemma toRecord_eq_notFitted_iff : p.toRecord = .error .notFittedToWrite ↔ p.isFitted = false := by
  rw [toRecord, isFitted]
  cases p.phase.solution? with
  | none => exact iff_of_true rfl rfl
  | some x => exact iff_of_false (fun h => by cases h) (by simp)

end Problem

end KnotSpline
