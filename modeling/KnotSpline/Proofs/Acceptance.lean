import KnotSpline.Proofs.Records
import KnotSpline.Proofs.System

/-! Requests whose arguments are in range. They are accepted one after another as long as there is
room for their rows, whatever their order. -/

namespace KnotSpline

namespace Constraint

variable {α : Type}

def request : Constraint α → Request α
  | constant knot order target => .constant (.int knot) (.int order) (.list (target.map .real))
  | continuity knot order => .continuity (.int knot) (.int order)

def HasTargets (outputs : ℕ) : Constraint α → Prop
  | constant _ _ target => target.length = outputs
  | continuity _ _ => True

end Constraint

namespace Problem

variable {α : Type} [Scalar α] {p q : Problem α}

def Locates (p : Problem α) (knot order : Value α) (k d : ℕ) : Prop :=
  (knot.int? = some (k : ℤ) ∧ k < p.knotCount) ∧
    (order.int? = some (d : ℤ) ∧ d < p.coefficientCount) ∧
    ∀ b, knot = .bool b → p.coefficientCount < d + 2

/-- The request has arguments in range, and this is the constraint that it asks for. -/
def Asks (p : Problem α) : Request α → Constraint α → Prop
  | .constant knot order value, .constant k d target => p.Locates knot order k d ∧
    ∃ a, value.toArray = .ok a ∧ a.atLeastVector.shape = [p.outputCount] ∧
      a.atLeastVector.entries = target
  | .continuity knot order, .continuity k d =>
    p.Locates knot order k d ∧ 0 < k ∧ k + 1 < p.knotCount
  | _, _ => False

def constrainAll (p : Problem α) (rs : List (Request α)) : Except (Fault α) (Problem α) :=
  rs.foldlM constrain p

def Accepts (p : Problem α) (r : Request α) : Prop :=
  ∃ q, p.constrain r = .ok q

lemma asks_congr (hk : q.knotCount = p.knotCount) (hn : q.coefficientCount = p.coefficientCount)
    (ho : q.outputCount = p.outputCount) (r : Request α) (c : Constraint α) :
    q.Asks r c ↔ p.Asks r c := by
  cases r <;> cases c <;> simp only [Asks, Locates, hk, hn, ho]

lemma Asks.admits {r : Request α} {c : Constraint α} (h : p.Asks r c) : p.Admits c := by
  cases r with
  | constant knot order value =>
    cases c with
    | constant k d target => exact ⟨h.1.1.2, h.1.2.1.2⟩
    | continuity k d => exact h.elim
  | continuity knot order =>
    cases c with
    | constant k d target => exact h.elim
    | continuity k d => exact ⟨h.2.1, h.2.2, h.1.2.1.2⟩

lemma asks_request {c : Constraint α} (h : p.Admits c) (ht : c.HasTargets p.outputCount) :
    p.Asks c.request c := by
  cases c with
  | constant k d target =>
    refine ⟨⟨⟨rfl, h.1⟩, ⟨rfl, h.2⟩, fun b hb => by cases hb⟩, _, Value.toArray_reals target, ?_,
      rfl⟩
    rw [← show target.length = p.outputCount from ht]
    rfl
  | continuity k d =>
    have hk : k < p.knotCount := Nat.lt_of_succ_lt h.2.1
    exact ⟨⟨⟨rfl, hk⟩, ⟨rfl, h.2.2⟩, fun b hb => by cases hb⟩, h.1, h.2.1⟩

lemma asks_requests {cs : List (Constraint α)} (h : ∀ c ∈ cs, p.Admits c)
    (ht : ∀ c ∈ cs, c.HasTargets p.outputCount) :
    List.Forall₂ p.Asks (cs.map Constraint.request) cs := by
  rw [List.forall₂_map_left_iff, List.forall₂_same]
  exact fun c hc => asks_request (h c hc) (ht c hc)

omit [Scalar α] in
lemma checkSelection_eq_ok_iff {knot : Value α} {d : ℕ} {u : Unit} :
    p.checkSelection knot d = .ok u ↔ ∀ b, knot = .bool b → p.coefficientCount < d + 2 := by
  cases knot with
  | bool b => simp [checkSelection, unless_eq_ok_iff]
  | _ => simp [checkSelection, pure, Except.pure]

omit [Scalar α] in
lemma checkBuilding_eq_ok_iff {u : Unit} : p.checkBuilding = .ok u ↔ p.isFitted = false := by
  simp [checkBuilding, unless_eq_ok_iff]

lemma resolve_constant_eq_ok_iff {knot order value : Value α} {c : Constraint α} :
    p.resolve (.constant knot order value) = .ok c ↔
      p.isFitted = false ∧ ∃ k d target,
        p.Asks (.constant knot order value) (.constant k d target) ∧
          p.rowIndex + (p.adjoining k).length ≤ p.dimension ∧ .constant k d target = c := by
  simp only [resolve, bind_eq_ok_iff, check_eq_ok_iff, checkBuilding_eq_ok_iff, checkRows,
    unless_eq_ok_iff, checkKnot_eq_ok_iff, checkOrder_eq_ok_iff, checkSelection_eq_ok_iff, Asks,
    Locates]
  constructor
  · rintro ⟨-, hb, k, hk, d, hd, a, ha, hs, -, ⟨hr, -⟩, -, hu, hc⟩
    exact ⟨hb, k, d, _, ⟨⟨hk, hd, hu⟩, a, ha, not_not.1 hs, rfl⟩, not_lt.1 hr, Except.ok.inj hc⟩
  · rintro ⟨hb, k, d, target, ⟨⟨hk, hd, hu⟩, a, ha, hs, rfl⟩, hr, hc⟩
    exact ⟨(), hb, k, hk, d, hd, a, ha, not_not.2 hs, (), ⟨not_lt.2 hr, trivial⟩, (), hu,
      congrArg Except.ok hc⟩

lemma resolve_continuity_eq_ok_iff {knot order : Value α} {c : Constraint α} :
    p.resolve (.continuity knot order) = .ok c ↔
      p.isFitted = false ∧ ∃ k d, p.Asks (.continuity knot order) (.continuity k d) ∧
        p.rowIndex + (1 : ℕ) ≤ p.dimension ∧ .continuity k d = c := by
  simp only [resolve, bind_eq_ok_iff, check_eq_ok_iff, checkBuilding_eq_ok_iff, checkRows,
    unless_eq_ok_iff, checkKnot_eq_ok_iff, checkOrder_eq_ok_iff, checkSelection_eq_ok_iff, Asks,
    Locates]
  constructor
  · rintro ⟨-, hb, k, hk, he, d, hd, -, ⟨hr, -⟩, -, hu, hc⟩
    have hlt := hk.2
    exact ⟨hb, k, d, ⟨⟨hk, hd, hu⟩, by omega, by omega⟩, not_lt.1 hr, Except.ok.inj hc⟩
  · rintro ⟨hb, k, d, ⟨⟨hk, hd, hu⟩, h0, h1⟩, hr, hc⟩
    refine ⟨(), hb, k, hk, by omega, d, hd, (), ⟨not_lt.2 hr, trivial⟩, (), hu, ?_⟩
    rw [← hc]
    rfl

theorem resolve_eq_ok_iff {r : Request α} {c : Constraint α} : p.resolve r = .ok c ↔
    p.isFitted = false ∧ p.Asks r c ∧ p.rowIndex + (p.equations c).length ≤ p.dimension := by
  cases r with
  | constant knot order value =>
    rw [resolve_constant_eq_ok_iff]
    refine and_congr_right fun _ => ?_
    constructor
    · rintro ⟨k, d, target, ha, hr, rfl⟩
      exact ⟨ha, by rwa [equations, List.length_map]⟩
    · rintro ⟨ha, hr⟩
      cases c with
      | constant k d target =>
        rw [equations, List.length_map] at hr
        exact ⟨k, d, target, ha, hr, rfl⟩
      | continuity k d => exact ha.elim
  | continuity knot order =>
    rw [resolve_continuity_eq_ok_iff]
    refine and_congr_right fun _ => ?_
    constructor
    · rintro ⟨k, d, ha, hr, rfl⟩
      exact ⟨ha, hr⟩
    · rintro ⟨ha, hr⟩
      cases c with
      | constant k d target => exact ha.elim
      | continuity k d => exact ⟨k, d, ha, hr, rfl⟩

lemma admits_of_forall₂ {rs : List (Request α)} {cs : List (Constraint α)}
    (h : List.Forall₂ p.Asks rs cs) : ∀ c ∈ cs, p.Admits c := by
  induction h with
  | nil => simp
  | cons hr _ ih => exact List.forall_mem_cons.2 ⟨hr.admits, ih⟩

lemma Registrable.accepts_iff {cs : List (Constraint α)} (h : p.Registrable cs) (r : Request α) :
    (p.registering cs).Accepts r ↔ ∃ c, (p.registering cs).resolve r = .ok c := by
  constructor
  · rintro ⟨q, hq⟩
    obtain ⟨c, hc, -⟩ := bind_eq_ok_iff.1 hq
    exact ⟨c, hc⟩
  · rintro ⟨c, hc⟩
    exact ⟨_, (h.step hc).2⟩

section Room

variable {cs cs' : List (Constraint α)} (h : p.Registrable cs) {r : Request α} {c : Constraint α}
  {rs : List (Request α)}

lemma resolve_of_asks (hr : p.Asks r c)
    (hl : ((cs ++ c :: cs').flatMap p.equations).length ≤ p.dimension) :
    (p.registering cs).resolve r = .ok c := by
  simp only [List.flatMap_append, List.flatMap_cons, List.length_append] at hl
  have hroom : (cs.flatMap p.equations).length + (p.equations c).length ≤ p.dimension := by omega
  exact resolve_eq_ok_iff.2 ⟨rfl, (asks_congr rfl rfl rfl r c).2 hr, Int.ofNat_le.2 hroom⟩

include h

theorem Registrable.constrainAll_eq (hrs : List.Forall₂ p.Asks rs cs')
    (hl : ((cs ++ cs').flatMap p.equations).length ≤ p.dimension) :
    p.Registrable (cs ++ cs') ∧
      (p.registering cs).constrainAll rs = .ok (p.registering (cs ++ cs')) := by
  induction hrs generalizing cs with
  | nil => exact ⟨by simpa using h, by rw [List.append_nil]; rfl⟩
  | @cons r c rs cs' hr hrs ih =>
    obtain ⟨hreg, hstep⟩ := h.step (resolve_of_asks hr hl)
    obtain ⟨hall, hrun⟩ := ih hreg (by rwa [List.append_assoc])
    rw [List.append_assoc] at hall hrun
    refine ⟨hall, ?_⟩
    rw [constrainAll, List.foldlM_cons, hstep]
    exact hrun

lemma Registrable.accepted_of_asks (hrs : List.Forall₂ p.Asks rs cs')
    (hl : ((cs ++ cs').flatMap p.equations).length ≤ p.dimension) :
    (p.registering cs).accepted rs = cs' := by
  induction hrs generalizing cs with
  | nil => rfl
  | @cons r c rs cs' hr hrs ih =>
    have hres := resolve_of_asks hr hl
    obtain ⟨hreg, hstep⟩ := h.step hres
    rw [accepted, hres, hstep]
    exact congrArg (c :: ·) (ih hreg (by rwa [List.append_assoc]))

end Room

theorem Fresh.fills_of_asks (h : p.Fresh) {rs : List (Request α)} {cs : List (Constraint α)}
    (hrs : List.Forall₂ p.Asks rs cs) (hrows : (cs.map p.equationCount).sum = p.dimension) :
    p.Fills cs ∧ p.constrainAll rs = .ok (p.registering cs) := by
  have hlen : (cs.flatMap p.equations).length = p.dimension := by
    rw [← hrows, List.length_flatMap]
    refine congrArg List.sum (List.map_congr_left fun c hc => ?_)
    exact length_equations h.two_le_knotCount (admits_of_forall₂ hrs c hc)
  obtain ⟨hreg, hrun⟩ := (Fresh.registrable_nil p).constrainAll_eq hrs hlen.le
  rw [h.registering_nil] at hrun
  exact ⟨⟨hreg, hlen⟩, hrun⟩

lemma Fresh.accepted_of_asks (h : p.Fresh) {rs : List (Request α)} {cs : List (Constraint α)}
    (hrs : List.Forall₂ p.Asks rs cs) (hrows : (cs.map p.equationCount).sum = p.dimension) :
    p.accepted rs = cs := by
  obtain ⟨hfills, -⟩ := h.fills_of_asks hrs hrows
  have hall := (Fresh.registrable_nil p).accepted_of_asks hrs hfills.length_le
  rwa [h.registering_nil] at hall

lemma Fresh.attempt_requests (h : p.Fresh) (cs : List (Constraint α)) (hcs : ∀ c ∈ cs, p.Admits c)
    (htargets : ∀ c ∈ cs, c.HasTargets p.outputCount)
    (hrows : (cs.map p.equationCount).sum = p.dimension) :
    p.accepted (cs.map Constraint.request) = cs ∧
      (p.attemptAll (cs.map Constraint.request)).rowIndex = p.dimension := by
  have hasks := asks_requests hcs htargets
  have hall := h.accepted_of_asks hasks hrows
  refine ⟨hall, ?_⟩
  rw [h.attemptAll_eq, hall]
  exact (h.fills_of_asks hasks hrows).1.rowIndex_eq

end Problem

end KnotSpline
