import KnotSpline.Proofs.Acceptance
import KnotSpline.Proofs.Lookup

/-! A problem with one more knot, inside one of its segments. The knots after it, and the requests
at them, get the next number; all constraints keep their rows. -/

namespace KnotSpline

def skip (m k : ℕ) : ℕ :=
  if m < k then k + 1 else k

def whole (m s : ℕ) : ℕ :=
  if m < s then s - 1 else s

section Numbers

variable {m k s : ℕ}

lemma skip_eq_zero_iff : skip m k = 0 ↔ k = 0 := by
  unfold skip
  split <;> omega

lemma skip_le (m k : ℕ) : skip m k ≤ k + 1 := by
  unfold skip
  split <;> omega

@[simp] lemma whole_skip (m k : ℕ) : whole m (skip m k) = k := by
  unfold skip whole
  split_ifs <;> omega

lemma whole_add_one (h : s + 1 = skip m k) : whole m s + 1 = k := by
  unfold skip at h
  unfold whole
  split at h <;> split <;> omega

lemma whole_le (m s : ℕ) : whole m s ≤ s := by
  unfold whole
  split <;> omega

lemma le_whole_add_one (m s : ℕ) : s ≤ whole m s + 1 := by
  unfold whole
  split <;> omega

lemma whole_lt {n : ℕ} (hm : m < n) (hs : s < n + 1) : whole m s < n := by
  unfold whole
  split <;> omega

lemma skip_whole (m s : ℕ) : skip m (whole m s) = if s = m + 1 then m else s := by
  unfold skip whole
  split_ifs <;> omega

end Numbers

section Requests

variable {α : Type}

def Value.skipKnot (m : ℕ) (knot : Value α) : Value α :=
  match knot.int? with
  | some z => if (m : ℤ) < z then .int (z + 1) else knot
  | none => knot

def Request.skipKnot (m : ℕ) : Request α → Request α
  | constant knot order value => constant (knot.skipKnot m) order value
  | continuity knot order => continuity (knot.skipKnot m) order

def Constraint.skipKnot (m : ℕ) : Constraint α → Constraint α
  | constant knot order target => constant (skip m knot) order target
  | continuity knot order => continuity (skip m knot) order

def Request.continuities (knot n : ℕ) : List (Request α) :=
  (List.range n).map fun d : ℕ => continuity (.int knot) (.int d)

def Constraint.continuities (knot n : ℕ) : List (Constraint α) :=
  (List.range n).map (continuity knot)

end Requests

lemma differences_of_isChain {xs : List ℝ} (h : xs.IsChain (· < ·)) :
    (Problem.differences xs).all fun d => decide (0 < d) := by
  induction h with
  | nil | singleton => rfl
  | cons_cons hab _ ih =>
    simp only [Problem.differences, List.tail_cons, List.zipWith_cons_cons, List.all_cons,
      Bool.and_eq_true, decide_eq_true_eq]
    exact ⟨sub_pos.2 hab, ih⟩

lemma isChain_insertIdx {xs : List ℝ} {m : ℕ} {τ : ℝ} (h : xs.IsChain (· < ·))
    (hm : m + 1 < xs.length) (hlo : xs.getD m 0 < τ) (hhi : τ < xs.getD (m + 1) 0) :
    (xs.insertIdx (m + 1) τ).IsChain (· < ·) := by
  induction h generalizing m with
  | nil | singleton => simp at hm
  | cons_cons hab hrest ih =>
    cases m with
    | zero => exact .cons_cons hlo (.cons_cons hhi hrest)
    | succ m => exact .cons_cons hab (ih (Nat.lt_of_succ_lt_succ hm) hlo hhi)

namespace Problem

variable {α : Type} [Scalar α] {p : Problem α} {m : ℕ} {τ : α}

def insertKnot (m : ℕ) (τ : α) (p : Problem α) : Problem α :=
  { p with
    times := p.times.insertIdx (m + 1) τ
    phase := .building (emptySystem (p.dimension + p.coefficientCount) p.outputCount) }

section Sizes

variable (hm : m < p.segmentCount) (τ : α)

include hm

lemma knotCount_insertKnot : (p.insertKnot m τ).knotCount = p.knotCount + 1 :=
  List.length_insertIdx_of_le_length (Nat.add_lt_of_lt_sub hm).le τ

lemma segmentCount_insertKnot : (p.insertKnot m τ).segmentCount = p.segmentCount + 1 := by
  have hlt : m + 1 < p.knotCount := Nat.add_lt_of_lt_sub hm
  rw [segmentCount, knotCount_insertKnot hm, segmentCount]
  omega

lemma dimension_insertKnot :
    (p.insertKnot m τ).dimension = p.dimension + p.coefficientCount := by
  rw [dimension, segmentCount_insertKnot hm, dimension]
  exact Nat.succ_mul _ _

lemma getD_times_inserted : (p.insertKnot m τ).times.getD (m + 1) 0 = τ := by
  have hle : m + 1 ≤ p.times.length := (Nat.add_lt_of_lt_sub hm).le
  rw [insertKnot, List.getD_eq_getElem?_getD, List.getElem?_insertIdx_self, if_pos hle]
  rfl

end Sizes

lemma getD_times_skip (m : ℕ) (τ : α) (p : Problem α) (k : ℕ) :
    (p.insertKnot m τ).times.getD (skip m k) 0 = p.times.getD k 0 := by
  rw [insertKnot, List.getD_eq_getElem?_getD, List.getD_eq_getElem?_getD, skip]
  split
  · next h => rw [List.getElem?_insertIdx_of_gt (by omega), Nat.add_sub_cancel]
  · next h => rw [List.getElem?_insertIdx_of_lt (by omega)]

lemma equationCount_skipKnot (hm : m < p.segmentCount) (c : Constraint α) :
    (p.insertKnot m τ).equationCount (c.skipKnot m) = p.equationCount c := by
  cases c with
  | constant knot order target =>
    have hlt : m + 1 < p.knotCount := Nat.add_lt_of_lt_sub hm
    have hlast : skip m knot + 1 = p.knotCount + 1 ↔ knot + 1 = p.knotCount := by
      unfold skip
      split <;> omega
    simp only [Constraint.skipKnot, equationCount, skip_eq_zero_iff, knotCount_insertKnot hm, hlast]
  | continuity knot order => rfl

omit [Scalar α] in
lemma sum_equationCount_continuities (p : Problem α) (knot n : ℕ) :
    ((Constraint.continuities knot n).map p.equationCount).sum = n := by
  simp [Constraint.continuities, Function.comp_def, equationCount]

section Requests

variable (hm : m < p.segmentCount)

include hm

lemma Locates.skipKnot {knot order : Value α} {k d : ℕ} (h : p.Locates knot order k d) :
    (p.insertKnot m τ).Locates (knot.skipKnot m) order (skip m k) d := by
  obtain ⟨⟨hz, hk⟩, hd, hb⟩ := h
  rw [Locates, knotCount_insertKnot hm, Value.skipKnot, hz, skip]
  dsimp only
  split
  · next hlt =>
    rw [if_pos (by omega)]
    exact ⟨⟨rfl, by omega⟩, hd, fun b hb' => by cases hb'⟩
  · next hlt =>
    rw [if_neg (by omega)]
    exact ⟨⟨hz, by omega⟩, hd, hb⟩

lemma Asks.skipKnot {r : Request α} {c : Constraint α} (h : p.Asks r c) :
    (p.insertKnot m τ).Asks (r.skipKnot m) (c.skipKnot m) := by
  cases r with
  | constant knot order value =>
    cases c with
    | constant k d target => exact ⟨h.1.skipKnot hm, h.2⟩
    | continuity k d => exact h.elim
  | continuity knot order =>
    cases c with
    | constant k d target => exact h.elim
    | continuity k d =>
      obtain ⟨hl, h0, h1⟩ := h
      refine ⟨hl.skipKnot hm, Nat.pos_of_ne_zero (mt skip_eq_zero_iff.1 h0.ne'), ?_⟩
      rw [knotCount_insertKnot hm]
      have := skip_le m k
      omega

lemma asks_continuities : List.Forall₂ (p.insertKnot m τ).Asks
    (Request.continuities (m + 1) p.coefficientCount)
    (Constraint.continuities (m + 1) p.coefficientCount) := by
  have hlt : m + 1 + 1 < (p.insertKnot m τ).knotCount := by
    rw [knotCount_insertKnot hm]
    exact Nat.succ_lt_succ (Nat.add_lt_of_lt_sub hm)
  rw [Request.continuities, Constraint.continuities, List.forall₂_map_left_iff,
    List.forall₂_map_right_iff, List.forall₂_same]
  intro d hd
  have hadmits : (p.insertKnot m τ).Admits (.continuity (m + 1) d) :=
    ⟨Nat.succ_pos m, hlt, List.mem_range.1 hd⟩
  exact asks_request hadmits trivial

end Requests

def acceptedRequests (p : Problem α) : List (Request α) → List (Request α)
  | [] => []
  | r :: rs =>
    match p.constrain r with
    | .ok q => r :: q.acceptedRequests rs
    | .error _ => p.acceptedRequests rs

lemma Registrable.asks_accepted {cs : List (Constraint α)} (h : p.Registrable cs)
    (rs : List (Request α)) :
    List.Forall₂ p.Asks ((p.registering cs).acceptedRequests rs)
      ((p.registering cs).accepted rs) := by
  induction rs generalizing cs with
  | nil => exact .nil
  | cons r rs ih =>
    rw [acceptedRequests, accepted]
    cases hr : (p.registering cs).resolve r with
    | ok c =>
      obtain ⟨hn, hc⟩ := h.step hr
      rw [hc]
      exact .cons ((asks_congr rfl rfl rfl r c).1 (resolve_eq_ok_iff.1 hr).2.1) (ih hn)
    | error e =>
      rw [constrain_of_resolve_error hr]
      exact ih h

lemma Fresh.asks_accepted (h : p.Fresh) (rs : List (Request α)) :
    List.Forall₂ p.Asks (p.acceptedRequests rs) (p.accepted rs) := by
  have := (Fresh.registrable_nil p).asks_accepted rs
  rwa [h.registering_nil] at this

lemma Fresh.fills_of_insertKnot (hf : (p.insertKnot m τ).Fresh) (hm : m < p.segmentCount)
    {rs rs' : List (Request α)} {cs : List (Constraint α)} (hrs : List.Forall₂ p.Asks rs cs)
    (hrows : (cs.map p.equationCount).sum = p.dimension)
    (hperm : rs'.Perm (rs.map (Request.skipKnot m) ++
      Request.continuities (m + 1) p.coefficientCount)) :
    ∃ cs' : List (Constraint α), cs'.Perm (cs.map (Constraint.skipKnot m) ++
        Constraint.continuities (m + 1) p.coefficientCount) ∧
      (p.insertKnot m τ).Fills cs' ∧
      (p.insertKnot m τ).constrainAll rs' = .ok ((p.insertKnot m τ).registering cs') := by
  have hasks : List.Forall₂ (p.insertKnot m τ).Asks (rs.map (Request.skipKnot m))
      (cs.map (Constraint.skipKnot m)) := by
    rw [List.forall₂_map_left_iff, List.forall₂_map_right_iff]
    exact hrs.imp fun _ _ h => h.skipKnot hm
  obtain ⟨cs', hrs', hcs⟩ :=
    List.perm_comp_forall₂ hperm (List.rel_append hasks (asks_continuities hm))
  refine ⟨cs', hcs, hf.fills_of_asks hrs' ?_⟩
  -- the system grows by as many rows as there are orders of continuity
  have hold : (p.insertKnot m τ).equationCount ∘ Constraint.skipKnot m = p.equationCount :=
    funext (equationCount_skipKnot hm)
  rw [(hcs.map _).sum_eq, List.map_append, List.sum_append, List.map_map, hold, hrows,
    sum_equationCount_continuities, dimension_insertKnot hm]

lemma knotTimes_insertIdx {xs : List ℝ} {m : ℕ} {τ : ℝ} (hinc : xs.IsChain (· < ·))
    (hm : m + 1 < xs.length) (hlo : xs.getD m 0 < τ) (hhi : τ < xs.getD (m + 1) 0)
    {times : Value ℝ} (h : times.toArray = .ok (.vector (xs.insertIdx (m + 1) τ))) :
    knotTimes times = .ok (xs.insertIdx (m + 1) τ) := by
  have hlen := List.length_insertIdx_of_le_length hm.le τ
  simp only [knotTimes, bind_eq_ok_iff, check_eq_ok_iff]
  refine ⟨_, h, not_not.2 rfl, ?_, by simp, ?_, rfl⟩
  · change ¬(xs.insertIdx (m + 1) τ).length < 2
    omega
  · rw [NumArray.vector, differences_of_isChain (isChain_insertIdx hinc hm hlo hhi)]
    decide

lemma create_insertKnot {p : Problem ℝ} {m : ℕ} {τ : ℝ} (hm : m < p.segmentCount)
    (hlo : p.times.getD m 0 < τ) (hhi : τ < p.times.getD (m + 1) 0)
    {times times' coefficientCount outputCount metadata : Value ℝ}
    (hp : create times coefficientCount outputCount metadata = .ok p)
    (htimes : times'.toArray = .ok (.vector (p.times.insertIdx (m + 1) τ)))
    (hroom : checkExtents p.coefficientCount (p.dimension + p.coefficientCount) p.outputCount =
      (.ok () : Except (Fault ℝ) Unit)) :
    create times' coefficientCount outputCount metadata = .ok (p.insertKnot m τ) := by
  have hinc := isChain_of_differences (create_spec hp).increasing
  have hlen : m + 1 < p.times.length := Nat.add_lt_of_lt_sub hm
  have hknots := knotTimes_insertIdx hinc hlen hlo hhi htimes
  have hdim := dimension_insertKnot hm τ
  rw [← hdim] at hroom
  simp only [create, bind_eq_ok_iff] at hp ⊢
  obtain ⟨knots, -, n, hn, outputs, ho, u, -, fields, hf, hp⟩ := hp
  obtain rfl := Except.ok.inj hp
  refine ⟨_, hknots, n, hn, outputs, ho, u, hroom, fields, hf, ?_⟩
  rw [insertKnot, ← hdim]
  rfl

section Lookup

variable {p : Problem ℝ} {m : ℕ} {τ : ℝ} (hm : m < p.segmentCount)

include hm

lemma times_whole_le (hlo : p.times.getD m 0 < τ) (s : ℕ) :
    p.times.getD (whole m s) 0 ≤ (p.insertKnot m τ).times.getD s 0 := by
  by_cases h : s = m + 1
  · rw [h, getD_times_inserted hm, whole, if_pos (Nat.lt_succ_self m)]
    exact hlo.le
  · rw [← getD_times_skip m τ p, skip_whole, if_neg h]

lemma le_times_whole (hhi : τ < p.times.getD (m + 1) 0) (s : ℕ) :
    (p.insertKnot m τ).times.getD (s + 1) 0 ≤ p.times.getD (whole m s + 1) 0 := by
  by_cases h : s = m
  · rw [h, getD_times_inserted hm, whole, if_neg (lt_irrefl m)]
    exact hhi.le
  · have hs : skip m (whole m s + 1) = s + 1 := by
      unfold skip whole
      split_ifs <;> omega
    rw [← getD_times_skip m τ p (whole m s + 1), hs]

lemma Owns.of_insertKnot (hlo : p.times.getD m 0 < τ) (hhi : τ < p.times.getD (m + 1) 0)
    {t : ℝ} {s : ℕ} (h : (p.insertKnot m τ).Owns t s) : p.Owns t (whole m s) where
  lt := whole_lt hm (h.lt.trans_eq (segmentCount_insertKnot hm τ))
  start_le h0 :=
    (times_whole_le hm hlo s).trans (h.start_le (h0.trans_le (whole_le m s)))
  lt_end h1 := by
    have hs : s + 1 < (p.insertKnot m τ).segmentCount := by
      have hle := le_whole_add_one m s
      rw [segmentCount_insertKnot hm]
      omega
    exact (h.lt_end hs).trans_le (le_times_whole hm hhi s)

lemma segmentOf_insertKnot (hf : p.Fresh) (hf' : (p.insertKnot m τ).Fresh)
    (hlo : p.times.getD m 0 < τ) (hhi : τ < p.times.getD (m + 1) 0) (t : ℝ) :
    whole m ((p.insertKnot m τ).segmentOf t) = p.segmentOf t := by
  have hinc := pairwise_of_differences hf.increasing
  have hinc' := pairwise_of_differences hf'.increasing
  have howns := segmentOf_owns hinc' hf'.two_le_knotCount t
  exact (howns.of_insertKnot hm hlo hhi).unique hinc (segmentOf_owns hinc hf.two_le_knotCount t)

end Lookup

end Problem

end KnotSpline
