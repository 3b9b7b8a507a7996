import KnotSpline.Proofs.Checks
import KnotSpline.Proofs.Rows

/-! Runs of constraint requests, some of which are refused. The linear system holds the equations of
the accepted constraints in order, and nothing else. -/

namespace KnotSpline

variable {α : Type}

lemma Row.place?_natCast {n i : ℕ} (h : i < n) : Row.place? n i = some i := by
  have hi : ¬(i : ℤ) < 0 := by omega
  simp [Row.place?, hi, h]

lemma Row.fillAll_append (width : ℕ) (done : List (Equation α)) (e : Equation α)
    (rows : List (Row α)) {k : ℕ} (h : rows.length ≤ k) :
    Row.fillAll width (done ++ List.replicate k e) done.length rows =
      .ok (done ++ rows.map (fun row => Row.fill width row e) ++
        List.replicate (k - rows.length) e) := by
  induction rows generalizing done k with
  | nil => simp [Row.fillAll, pure, Except.pure]
  | cons row rows ih =>
    obtain ⟨k, rfl⟩ := Nat.exists_eq_add_of_lt (Nat.lt_of_lt_of_le (Nat.succ_pos _) h)
    rw [Nat.zero_add, List.length_cons, Nat.succ_le_succ_iff] at *
    have hlen : (done ++ List.replicate (k + 1) e).length = done.length + (k + 1) := by simp
    have hm : (done ++ List.replicate (k + 1) e).modify done.length (Row.fill width row) =
        (done ++ [Row.fill width row e]) ++ List.replicate k e := by
      rw [List.modify_eq_take_cons_drop (by omega)]
      simp [List.replicate_succ]
    have hl : (done.length : ℤ) + 1 = ((done ++ [Row.fill width row e]).length : ℕ) := by simp
    rw [Row.fillAll, Row.place?_natCast (by omega)]
    dsimp only
    rw [hm, hl, ih _ h]
    simp

namespace Problem

variable [Scalar α]

/-- The problem after a request. One that is refused leaves it as it is. -/
def attempt (p : Problem α) (r : Request α) : Problem α :=
  match p.constrain r with
  | .ok q => q
  | .error _ => p

def attemptAll (p : Problem α) (rs : List (Request α)) : Problem α :=
  rs.foldl attempt p

/-- The constraints of the requests that are not refused. -/
def accepted (p : Problem α) : List (Request α) → List (Constraint α)
  | [] => []
  | r :: rs =>
    match p.resolve r, p.constrain r with
    | .ok c, .ok q => c :: q.accepted rs
    | _, _ => p.accepted rs

def registering (p : Problem α) (cs : List (Constraint α)) : Problem α :=
  { p with
    rowIndex := (cs.flatMap p.equations).length
    phase := .building (cs.flatMap p.equations ++
      List.replicate (p.dimension - (cs.flatMap p.equations).length) p.emptyEquation) }

structure Registrable (p : Problem α) (cs : List (Constraint α)) : Prop where
  admits : ∀ c ∈ cs, p.Admits c
  length_le : (cs.flatMap p.equations).length ≤ p.dimension

structure Fills (p : Problem α) (cs : List (Constraint α)) : Prop extends Registrable p cs where
  length_eq : (cs.flatMap p.equations).length = p.dimension

variable {p : Problem α}

omit [Scalar α] in
lemma checkKnot_eq_ok_iff {v : Value α} {k : ℕ} :
    p.checkKnot v = .ok k ↔ v.int? = some (k : ℤ) ∧ k < p.knotCount := by
  rw [checkKnot]
  refine (index_eq_ok_iff (fun z => 0 ≤ z ∧ z < p.knotCount) fun z hz => hz.1).trans ?_
  exact and_congr_right fun _ => by omega

omit [Scalar α] in
lemma checkOrder_eq_ok_iff {v : Value α} {d : ℕ} :
    p.checkOrder v = .ok d ↔ v.int? = some (d : ℤ) ∧ d < p.coefficientCount := by
  rw [checkOrder]
  refine (index_eq_ok_iff (fun z => 0 ≤ z ∧ z < p.coefficientCount) fun z hz => hz.1).trans ?_
  exact and_congr_right fun _ => by omega

lemma constrain_of_resolve_error {r : Request α} {e : Fault α} (h : p.resolve r = .error e) :
    p.constrain r = .error e := by
  rw [constrain, h]
  rfl

lemma constrain_of_resolve {r : Request α} {c : Constraint α} (h : p.resolve r = .ok c) :
    p.constrain r = p.register c := by
  rw [constrain, h]
  rfl

lemma resolve_spec {r : Request α} {c : Constraint α} (h : p.resolve r = .ok c) :
    p.Admits c ∧ p.rowIndex + (p.equations c).length ≤ p.dimension := by
  cases r with
  | constant knot order value =>
    simp only [resolve, bind_eq_ok_iff, check_eq_ok_iff, checkRows, unless_eq_ok_iff,
      checkKnot_eq_ok_iff, checkOrder_eq_ok_iff] at h
    obtain ⟨_, -, k, ⟨-, hk⟩, d, ⟨-, hd⟩, a, -, -, _, ⟨hrows, -⟩, _, -, hc⟩ := h
    obtain rfl := Except.ok.inj hc
    refine ⟨⟨hk, hd⟩, ?_⟩
    rw [equations, List.length_map]
    omega
  | continuity knot order =>
    simp only [resolve, bind_eq_ok_iff, check_eq_ok_iff, checkRows, unless_eq_ok_iff,
      checkKnot_eq_ok_iff, checkOrder_eq_ok_iff] at h
    obtain ⟨_, -, k, ⟨-, hk⟩, hend, d, ⟨-, hd⟩, _, ⟨hrows, -⟩, _, -, hc⟩ := h
    obtain rfl := Except.ok.inj hc
    refine ⟨⟨by omega, by omega, hd⟩, ?_⟩
    rw [equations, List.length_singleton]
    omega

lemma rowsOf_spec {c : Constraint α} (hc : p.Admits c) : ∃ rows, p.rowsOf c = .ok rows ∧
    rows.map (fun row => Row.fill p.coefficientCount row p.emptyEquation) = p.equations c := by
  cases c with
  | constant knot order target =>
    refine ⟨_, by rw [rowsOf, knotVector_eq]; rfl, ?_⟩
    rw [List.map_map, equations]
    refine List.map_congr_left fun s hs => ?_
    exact fill_constant ((mem_adjoining hc.1).1 hs).1 target
  | continuity knot order =>
    refine ⟨_, by rw [rowsOf, knotVector_eq]; rfl, ?_⟩
    rw [List.map_singleton, fill_continuity hc.1 (lt_segmentCount hc.2.1), equations]

lemma register_registering (p : Problem α) (cs : List (Constraint α)) {c : Constraint α}
    (hc : p.Admits c)
    (h : (cs.flatMap p.equations).length + (p.equations c).length ≤ p.dimension) :
    (p.registering cs).register c = .ok (p.registering (cs ++ [c])) := by
  obtain ⟨rows, hr, hm⟩ := rowsOf_spec hc
  have hl : rows.length = (p.equations c).length := by rw [← hm, List.length_map]
  have hf := Row.fillAll_append p.coefficientCount (cs.flatMap p.equations) p.emptyEquation rows
    (k := p.dimension - (cs.flatMap p.equations).length) (by omega)
  rw [hm] at hf
  have hreg : (p.registering cs).register c = (do
      let rows ← p.rowsOf c
      let system ← Row.fillAll p.coefficientCount (cs.flatMap p.equations ++
        List.replicate (p.dimension - (cs.flatMap p.equations).length) p.emptyEquation)
        (cs.flatMap p.equations).length rows
      pure { p with
        rowIndex := (cs.flatMap p.equations).length + rows.length
        phase := .building system }) := rfl
  rw [hreg, hr]
  dsimp only [bind, Except.bind]
  rw [hf]
  dsimp only [pure, Except.pure]
  rw [registering, List.flatMap_append, List.flatMap_singleton, List.length_append, hl,
    Nat.sub_sub, Nat.cast_add]

namespace Registrable

variable {cs : List (Constraint α)}

lemma append {c : Constraint α} (h : p.Registrable cs) (hc : p.Admits c)
    (hl : (cs.flatMap p.equations).length + (p.equations c).length ≤ p.dimension) :
    p.Registrable (cs ++ [c]) where
  admits := by
    intro b hb
    rcases List.mem_append.1 hb with hb | hb
    · exact h.admits b hb
    · exact List.mem_singleton.1 hb ▸ hc
  length_le := by simpa using hl

lemma step (h : p.Registrable cs) {r : Request α} {c : Constraint α}
    (hr : (p.registering cs).resolve r = .ok c) : p.Registrable (cs ++ [c]) ∧
      (p.registering cs).constrain r = .ok (p.registering (cs ++ [c])) := by
  obtain ⟨hc, hl⟩ := resolve_spec hr
  replace hl : ((cs.flatMap p.equations).length : ℤ) + (p.equations c).length ≤ p.dimension := hl
  norm_cast at hl
  refine ⟨h.append hc hl, ?_⟩
  rw [constrain_of_resolve hr]
  exact register_registering p cs hc hl

theorem run (h : p.Registrable cs) (rs : List (Request α)) :
    p.Registrable (cs ++ (p.registering cs).accepted rs) ∧
      (p.registering cs).attemptAll rs =
        p.registering (cs ++ (p.registering cs).accepted rs) := by
  induction rs generalizing cs with
  | nil => simpa [accepted, attemptAll] using h
  | cons r rs ih =>
    rw [accepted, attemptAll, List.foldl_cons, attempt]
    cases hr : (p.registering cs).resolve r with
    | ok c =>
      obtain ⟨hn, hc⟩ := h.step hr
      obtain ⟨hrun, hall⟩ := ih hn
      rw [List.append_assoc] at hrun hall
      rw [hc]
      exact ⟨hrun, hall⟩
    | error e =>
      rw [constrain_of_resolve_error hr]
      exact ih h

end Registrable

namespace Fills

variable {cs : List (Constraint α)} (h : p.Fills cs)

include h

lemma rowIndex_eq : (p.registering cs).rowIndex = p.dimension := by
  rw [registering, h.length_eq]

lemma system_eq : (p.registering cs).phase.system? = some (cs.flatMap p.equations) := by
  rw [registering, h.length_eq, Nat.sub_self, List.replicate_zero, List.append_nil]
  rfl

lemma leftRows_eq :
    (p.registering cs).leftRows? = some ((cs.flatMap p.equations).map Equation.left) := by
  rw [leftRows?, h.system_eq]
  rfl

end Fills

structure Fresh (p : Problem α) : Prop where
  two_le_knotCount : 2 ≤ p.knotCount
  one_le_coefficientCount : 1 ≤ p.coefficientCount
  increasing : (differences p.times).all fun d => decide (0 < d)
  rankTolerance_eq : p.rankTolerance = .null
  registering_nil : p.registering [] = p

namespace Fresh

lemma registrable_nil (p : Problem α) : p.Registrable [] :=
  ⟨by simp, by simp⟩

lemma registrable_accepted (h : p.Fresh) (rs : List (Request α)) :
    p.Registrable (p.accepted rs) := by
  have := ((registrable_nil p).run rs).1
  rwa [h.registering_nil, List.nil_append] at this

lemma attemptAll_eq (h : p.Fresh) (rs : List (Request α)) :
    p.attemptAll rs = p.registering (p.accepted rs) := by
  have := ((registrable_nil p).run rs).2
  rwa [h.registering_nil, List.nil_append] at this

lemma fills_accepted (h : p.Fresh) {rs : List (Request α)}
    (hr : (p.attemptAll rs).rowIndex = p.dimension) : p.Fills (p.accepted rs) := by
  rw [h.attemptAll_eq rs] at hr
  exact ⟨h.registrable_accepted rs, Int.ofNat_inj.1 hr⟩

end Fresh

omit [Scalar α] in
lemma count_eq_ok_iff {least : ℤ} {cause : InvalidInput α} {v : Value α} {n : ℕ}
    (hl : 0 ≤ least) : count least cause v = .ok n ↔ v.int? = some (n : ℤ) ∧ least ≤ n := by
  rw [count]
  exact index_eq_ok_iff (least ≤ ·) fun z hz => hl.trans hz

lemma create_spec {times coefficientCount outputCount metadata : Value α}
    (h : create times coefficientCount outputCount metadata = .ok p) : p.Fresh := by
  simp only [create, bind_eq_ok_iff, knotTimes, check_eq_ok_iff] at h
  obtain ⟨knots, ⟨a, -, -, hlen, -, hinc, hk⟩, n, hn, m, -, -, -, fields, -, hp⟩ := h
  obtain rfl := Except.ok.inj hk
  obtain rfl := Except.ok.inj hp
  refine ⟨not_lt.1 hlen, ?_, by simpa using hinc, rfl, ?_⟩
  · exact_mod_cast ((count_eq_ok_iff (by omega)).1 hn).2
  · rfl

end Problem

end KnotSpline
