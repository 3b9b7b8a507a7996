import KnotSpline.Proofs.Acceptance
import KnotSpline.Proofs.FirstFault
import KnotSpline.Proofs.Lifecycle

/-! What comes of a constraint request: the fault of the first check that it does not pass, or the
rows of the constraint. Once all checks are passed no row fails after another one has been written,
so that a request is carried out as a whole or not at all. -/

namespace KnotSpline

namespace Problem

variable {α : Type} [Scalar α] {p q : Problem α}

def IsKnot (p : Problem α) (v : Value α) : Prop :=
  ∃ k : ℕ, v.int? = some (k : ℤ) ∧ k < p.knotCount

def IsOrder (p : Problem α) (v : Value α) : Prop :=
  ∃ d : ℕ, v.int? = some (d : ℤ) ∧ d < p.coefficientCount

/-- The reasons to refuse a request, in the order in which they are looked at. -/
def exits (p : Problem α) : Request α → List (Fault α → Prop)
  | .constant knot order value =>
    [When (p.isFitted = true) .alreadyFitted,
      When (¬p.IsKnot knot) (.invalidInput (.knotOutside knot p.knotCount)),
      When (¬p.IsOrder order) (.invalidInput (.orderOutside order p.coefficientCount)),
      fun f => value.toArray = .error f,
      fun f => ∃ a, value.toArray = .ok a ∧ When (a.atLeastVector.shape ≠ [p.outputCount])
        (.invalidInput (.valueShape a.atLeastVector.shape p.outputCount)) f,
      fun f => ∃ k : ℕ, knot.int? = some (k : ℤ) ∧
        When (p.dimension < p.rowIndex + (p.adjoining k).length)
          (.overdetermined (p.rowIndex + (p.adjoining k).length) p.dimension) f]
  | .continuity knot order =>
    [When (p.isFitted = true) .alreadyFitted,
      When (¬p.IsKnot knot) (.invalidInput (.knotOutside knot p.knotCount)),
      fun f => ∃ k : ℕ, knot.int? = some (k : ℤ) ∧
        When (k = 0 ∨ k + 1 = p.knotCount) (.invalidInput (.endKnot knot)) f,
      When (¬p.IsOrder order) (.invalidInput (.orderOutside order p.coefficientCount)),
      When (p.dimension < p.rowIndex + (1 : ℕ))
        (.overdetermined (p.rowIndex + (1 : ℕ)) p.dimension)]

end Problem

namespace Problem

variable {α : Type} [Scalar α] {p q : Problem α}

end Problem

variable {α : Type}

lemma Row.length_fillAll {width : ℕ} {rows : List (Row α)} {system system' : List (Equation α)}
    {start : ℤ} (h : Row.fillAll width system start rows = .ok system') :
    system'.length = system.length := by
  induction rows generalizing system start with
  | nil => rw [← Except.ok.inj h]
  | cons row rows ih =>
    rw [Row.fillAll] at h
    split at h
    · rw [ih h, List.length_modify]
    · cases h

namespace Problem

variable [Scalar α] {p q : Problem α}

def writeRow (p : Problem α) (row : Row α) : Except (Fault α) (Problem α) :=
  match p.phase with
  | .building system =>
    match Row.place? system.length p.rowIndex with
    | some i => pure
      { p with
        phase := .building (system.modify i (row.fill p.coefficientCount))
        rowIndex := p.rowIndex + 1 }
    | none => throw .indexOutside
  | _ => throw .alreadyFitted

def writeRows (p : Problem α) : List (Row α) → Except (Fault α) Unit × Problem α
  | [] => (.ok (), p)
  | row :: rows =>
    match p.writeRow row with
    | .ok q => q.writeRows rows
    | .error f => (.error f, p)

def call (p : Problem α) (r : Request α) : Except (Fault α) Unit × Problem α :=
  match p.resolve r with
  | .error f => (.error f, p)
  | .ok c =>
    match p.rowsOf c with
    | .error f => (.error f, p)
    | .ok rows => p.writeRows rows

def Square (p : Problem α) : Prop :=
  ∀ system, p.phase.system? = some system → system.length = p.dimension

lemma Square.apply (hp : p.Square) {a : Action α} (h : a.apply p = .ok q) : q.Square := by
  cases a with
  | constrain r =>
    obtain ⟨c, -, hc⟩ := bind_eq_ok_iff.1 h
    rw [register] at hc
    split at hc
    · next system hs =>
      obtain ⟨rows, -, hc⟩ := bind_eq_ok_iff.1 hc
      obtain ⟨system', hf, hc⟩ := bind_eq_ok_iff.1 hc
      obtain rfl := Except.ok.inj hc
      intro system'' h''
      obtain rfl := Option.some_inj.1 h''
      exact (Row.length_fillAll hf).trans (hp _ (by rw [hs]; rfl))
    · cases hc
  | fit =>
    obtain ⟨-, system, x, hs, -, rfl⟩ := fit_cases h
    intro system' h'
    obtain rfl := Option.some_inj.1 h'
    exact hp _ hs
  | setTolerance tolerance => exact Except.ok.inj h ▸ hp
  | setRowIndex rowIndex => exact Except.ok.inj h ▸ hp
  | setMetadata name v => exact Except.ok.inj h ▸ hp

lemma New.square (h : p.New) : p.Square := by
  intro system hs
  cases h with
  | create h =>
    rw [(create_cases h).2.2] at hs
    obtain rfl := Option.some_inj.1 hs
    exact List.length_replicate
  | ofRecord h =>
    obtain ⟨-, -, x, hx⟩ := ofRecord_cases h
    rw [hx] at hs
    cases hs

end Problem

end KnotSpline
