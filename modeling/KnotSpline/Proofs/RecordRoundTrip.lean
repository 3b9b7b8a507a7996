import KnotSpline.Problem.Segments
import KnotSpline.Proofs.Records

/-! Problems from the records of other problems, and from records of any shape: which entry of a
record becomes which coefficient. -/

namespace KnotSpline

variable {α : Type}

namespace NumArray

lemma getElem?_pieces {k n i : ℕ} (hi : i < n) (xs : List α) :
    (pieces k n xs)[i]? = some ((xs.drop (i * k)).take k) := by
  induction n generalizing i xs with
  | zero => exact absurd hi (Nat.not_lt_zero i)
  | succ n ih =>
    rw [pieces]
    cases i with
    | zero => rw [Nat.zero_mul, List.drop_zero, List.getElem?_cons_zero]
    | succ i =>
      rw [List.getElem?_cons_succ, ih (Nat.lt_of_succ_lt_succ hi), List.drop_drop, Nat.succ_mul,
        Nat.add_comm k]

lemma getElem?_take_drop {k j : ℕ} (hj : j < k) (i : ℕ) (xs : List α) :
    ((xs.drop i).take k)[j]? = xs[i + j]? := by
  rw [List.getElem?_take_of_lt hj, List.getElem?_drop]

end NumArray

namespace Problem

variable {p q : Problem α} {x : Solution α} {r : Record α}

lemma exists_of_solutionOf {a : NumArray α} (h : p.solutionOf a = .ok x) {i k j : ℕ}
    (hi : i < p.segmentCount) (hk : k < p.outputCount) (hj : j < p.coefficientCount) :
    ∃ block row c, x[i]? = some block ∧ block[k]? = some row ∧ row[j]? = some c ∧
      a.entries[(i * p.outputCount + k) * p.coefficientCount + j]? = some c := by
  rw [solutionOf, require_eq_ok_iff] at h
  obtain ⟨hl, rfl⟩ := h
  have hlt : (i * p.outputCount + k) * p.coefficientCount + j < a.entries.length := by
    have hrow : i * p.outputCount + k < p.segmentCount * p.outputCount := by
      have := Nat.mul_le_mul_right p.outputCount (Nat.succ_le_of_lt hi)
      rw [Nat.succ_mul] at this
      omega
    have := Nat.mul_le_mul_right p.coefficientCount (Nat.succ_le_of_lt hrow)
    rw [Nat.succ_mul] at this
    omega
  have hrow : k * p.coefficientCount + p.coefficientCount ≤ p.outputCount * p.coefficientCount := by
    rw [← Nat.succ_mul]
    exact Nat.mul_le_mul_right _ (Nat.succ_le_of_lt hk)
  have hblock := NumArray.getElem?_pieces hi (k := p.outputCount * p.coefficientCount) a.entries
  rw [List.getElem?_map, hblock, Option.map_some]
  refine ⟨_, _, _, rfl, NumArray.getElem?_pieces hk _, ?_, List.getElem?_eq_getElem hlt⟩
  rw [NumArray.getElem?_take_drop hj, NumArray.getElem?_take_drop (by omega),
    ← List.getElem?_eq_getElem hlt]
  congr 1
  ring

lemma flatten_of_solutionOf {a : NumArray α} (h : p.solutionOf a = .ok x) :
    x.flatten.flatten = a.entries := by
  rw [solutionOf, require_eq_ok_iff] at h
  obtain ⟨hl, rfl⟩ := h
  rw [Nat.mul_assoc] at hl
  have hblock : ∀ ys ∈
      NumArray.pieces (p.outputCount * p.coefficientCount) p.segmentCount a.entries,
      (List.flatten ∘ NumArray.pieces p.coefficientCount p.outputCount) ys = ys := by
    intro ys hy
    rw [Function.comp_apply, NumArray.flatten_pieces,
      ← NumArray.length_of_mem_pieces hl.ge hy, List.take_length]
  rw [List.flatten_flatten, List.map_map, List.map_congr_left hblock, List.map_id',
    NumArray.flatten_pieces, ← hl, List.take_length]

def recordOf (p : Problem α) (x : Solution α) : Record α :=
  [(.text "type", .text recordType), (.text "times", .array (.vector p.times)),
    (.text "nCoef", .int p.coefficientCount), (.text "nDep", .int p.outputCount),
    (.text "solution", .array (p.solutionArray x)), (.text "metadata", .record p.metadata)]

lemma toRecord_eq (hx : p.phase.solution? = some x) : p.toRecord = .ok (p.recordOf x) := by
  rw [toRecord, hx]
  rfl

lemma metadata_mem_recordOf (p : Problem α) (x : Solution α) :
    (.text "metadata", .record p.metadata) ∈ p.recordOf x := by
  simp [recordOf]

lemma toRecord_eq_ok_iff {r : Record α} :
    p.toRecord = .ok r ↔ ∃ x, p.phase.solution? = some x ∧ r = p.recordOf x := by
  refine ⟨fun h => ?_, fun ⟨x, hx, h⟩ => h ▸ toRecord_eq hx⟩
  cases hx : p.phase.solution? with
  | none =>
    rw [toRecord, hx] at h
    cases h
  | some x => exact ⟨x, rfl, Except.ok.inj (h.symm.trans (toRecord_eq hx))⟩

lemma solutionOf_isOk_iff {a : NumArray α} : (∃ x, p.solutionOf a = .ok x) ↔
    a.entries.length = p.segmentCount * p.outputCount * p.coefficientCount := by
  simp only [solutionOf, require_eq_ok_iff]
  refine ⟨?_, fun h => ⟨_, h, rfl⟩⟩
  rintro ⟨_, h, -⟩
  exact h

end Problem

namespace Value

variable [Scalar α] {v w : Value α}

lemma toArray_array {a : NumArray α} (h : a.shape.length ≤ maxAxes) :
    (array a).toArray = .ok a :=
  toArray_eq_ok_iff.2 ⟨rfl, h, mapM_toScalar a.entries⟩

lemma mapM_leaves_of_toArray {a : NumArray α} (h : v.toArray = .ok a) :
    v.leaves.mapM toScalar = .ok a.entries :=
  (toArray_eq_ok_iff.1 h).2.2

omit [Scalar α] in
def IsNumber : Value α → Prop
  | int _ => True
  | real _ => True
  | _ => False

lemma IsNumber.toScalar_error {e : Fault α} (hv : v.IsNumber) (h : v.toScalar = .error e) :
    e = .outOfRange ∧ ∃ z, v = int z ∧ (Scalar.ofInt? z : Option α) = none := by
  cases v with
  | int z =>
    rw [toScalar, ofInt] at h
    split at h
    · cases h
    · next hz => exact ⟨(Except.error.inj h).symm, z, rfl, hz⟩
  | real x => cases h
  | null | bool | text | list | record | array | problem | foreign => exact hv.elim

lemma toArray_error_of_numbers (hv : ∀ w ∈ v.leaves, w.IsNumber) {e : Fault α}
    (h : v.toArray = .error e) : e = .unusable ∨
      e = .outOfRange ∧ ∃ z, int z ∈ v.leaves ∧ (Scalar.ofInt? z : Option α) = none := by
  rw [toArray] at h
  split at h
  · exact .inl (Except.error.inj h).symm
  · split at h
    · exact .inl (Except.error.inj h).symm
    · cases hm : v.leaves.mapM toScalar with
      | ok entries =>
        rw [hm] at h
        cases h
      | error e' =>
        rw [hm] at h
        obtain rfl := Except.error.inj h
        obtain ⟨done, w, rest, hl, -, hw⟩ := exists_of_mapM_eq_error hm
        have hmem : w ∈ v.leaves := hl ▸ List.mem_append_right _ List.mem_cons_self
        obtain ⟨he, z, rfl, hz⟩ := (hv w hmem).toScalar_error hw
        exact .inr ⟨he, z, hmem, hz⟩

end Value

namespace Problem

variable [Scalar α] {p q : Problem α} {x : Solution α} {r : Record α} {v : Value α}

/-- The same data, and the same answer to every question about the curve. -/
structure Alike (q p : Problem α) : Prop where
  times : q.times = p.times
  coefficientCount : q.coefficientCount = p.coefficientCount
  outputCount : q.outputCount = p.outputCount
  metadata : q.metadata = p.metadata
  solution : q.solution = p.solution
  interpolate : ∀ t order, q.interpolate t order = p.interpolate t order
  sample : ∀ times order, q.sample times order = p.sample times order
  segmentIndex : ∀ t, q.segmentIndex t = p.segmentIndex t
  segmentPolynomials : ∀ relative, q.segmentPolynomials relative = p.segmentPolynomials relative
  toRecord : q.toRecord = p.toRecord

lemma alike_reloaded (hx : p.phase.solution? = some x) : (p.reloaded x).Alike p := by
  have hsolution : (p.reloaded x).solution = p.solution := by
    rw [Problem.solution, Problem.solution, hx]
    rfl
  have hinterpolate : ∀ t order, (p.reloaded x).interpolate t order = p.interpolate t order := by
    intro t order
    rw [Problem.interpolate, Problem.interpolate, hsolution]
    rfl
  refine ⟨rfl, rfl, rfl, rfl, hsolution, hinterpolate, fun times order => ?_, fun t => rfl,
    fun relative => ?_, ?_⟩
  · simp only [Problem.sample, hsolution, hinterpolate]
  · rw [Problem.segmentPolynomials, Problem.segmentPolynomials, hsolution]
    rfl
  · rw [Problem.toRecord, Problem.toRecord, hx]
    rfl

lemma Sized.reloaded (h : p.Sized) (hx : p.phase.solution? = some x) : (p.reloaded x).Sized := by
  refine ⟨h.two_le_knotCount, h.finite, h.increasing, h.one_le_coefficientCount, h.checkExtents,
    fun y hy => ?_⟩
  obtain rfl := Option.some_inj.1 hy
  exact h.hasSolution x hx

lemma field_eq_ok_iff {name : String} :
    field r name = .ok v ↔ r.get? (.text name) = some v := by
  rw [field]
  cases r.get? (.text name) with
  | none => exact iff_of_false (fun h => by cases h) (fun h => by cases h)
  | some w => exact ⟨fun h => congrArg some (Except.ok.inj h), fun h => congrArg Except.ok
      (Option.some_inj.1 h)⟩

lemma openRecord_eq {times coefficientCount outputCount metadata : Value α}
    (ht : r.get? (.text "times") = some times)
    (hc : r.get? (.text "nCoef") = some coefficientCount)
    (ho : r.get? (.text "nDep") = some outputCount)
    (hm : r.get? (.text "metadata") = some metadata) :
    openRecord r = create times coefficientCount outputCount metadata := by
  rw [openRecord, field_eq_ok_iff.2 ht, field_eq_ok_iff.2 hc, field_eq_ok_iff.2 ho, hm]
  rfl

lemma ofRecord_eq (hp : openRecord r = .ok p) (hv : r.get? (.text "solution") = some v) :
    ofRecord r = v.toArray >>= fun a => p.solutionOf a >>= fun x =>
      .ok { p with phase := .loaded x, rowIndex := p.dimension } := by
  rw [ofRecord, hp]
  change p.loadSolution r = _
  rw [loadSolution, field_eq_ok_iff.2 hv]
  rfl

lemma ofRecord_recordOf (h : p.Sized) (hx : p.phase.solution? = some x) :
    ofRecord (p.recordOf x) = .ok (p.reloaded x) := by
  have htimes : (Value.array (.vector p.times)).toArray =
      (Value.list (p.times.map .real)).toArray := by
    rw [Value.toArray_reals]
    exact Value.toArray_array (show 1 ≤ Value.maxAxes by decide)
  have hknots : knotTimes (.array (.vector p.times)) = knotTimes (.list (p.times.map .real)) := by
    rw [knotTimes, knotTimes, htimes]
  have hcreate := create_again h
  rw [create, ← hknots, ← create] at hcreate
  have haxes : (p.solutionArray x).shape.length ≤ Value.maxAxes := by
    rw [(h.hasSolution x hx).shape_solutionArray]
    exact show 3 ≤ Value.maxAxes by decide
  have harray := Value.toArray_array haxes
  have hof : Problem.solutionOf { p with
      rowIndex := 0
      phase := .building (emptySystem p.dimension p.outputCount)
      rankTolerance := .null } (p.solutionArray x) = .ok x :=
    (h.hasSolution x hx).solutionOf (p.entries_solutionArray x)
  have hopen := (openRecord_eq (r := p.recordOf x) rfl rfl rfl rfl).trans hcreate
  rw [ofRecord_eq hopen rfl, harray]
  change Problem.solutionOf _ _ >>= _ = _
  rw [hof]
  rfl

lemma ofRecord_error_of_numbers (hp : openRecord r = .ok p)
    (hv : r.get? (.text "solution") = some v) (hnumbers : ∀ w ∈ v.leaves, w.IsNumber)
    (hl : v.leaves.length ≠ p.segmentCount * p.outputCount * p.coefficientCount) :
    ofRecord r = .error .unusable ∨ ofRecord r = .error .outOfRange ∧
      ∃ z, .int z ∈ v.leaves ∧ (Scalar.ofInt? z : Option α) = none := by
  rw [ofRecord_eq hp hv]
  cases ha : v.toArray with
  | error e =>
    rcases Value.toArray_error_of_numbers hnumbers ha with rfl | ⟨rfl, h⟩
    · exact .inl rfl
    · exact .inr ⟨rfl, h⟩
  | ok a =>
    have hm := (mapM_eq_ok_iff.1 (Value.mapM_leaves_of_toArray ha)).length_eq
    have hx : p.solutionOf a = .error .unusable := if_neg (hm ▸ hl)
    left
    change p.solutionOf a >>= _ = _
    rw [hx]
    rfl

lemma ofRecord_isOk_iff (hp : openRecord r = .ok p) (hv : r.get? (.text "solution") = some v)
    {a : NumArray α} (ha : v.toArray = .ok a) : (∃ q, ofRecord r = .ok q) ↔
      v.leaves.length = p.segmentCount * p.outputCount * p.coefficientCount := by
  have hm := (mapM_eq_ok_iff.1 (Value.mapM_leaves_of_toArray ha)).length_eq
  rw [hm, ← solutionOf_isOk_iff, ofRecord_eq hp hv, ha]
  change (∃ q, p.solutionOf a >>= _ = .ok q) ↔ _
  simp only [bind_eq_ok_iff]
  exact ⟨fun ⟨_, x, hx, _⟩ => ⟨x, hx⟩, fun ⟨x, hx⟩ => ⟨_, x, hx, rfl⟩⟩

/-- A problem is made anew from its record and gives the same answers. Whatever the nesting of the
solution in a record, its numbers are the coefficients, segment after segment, in each of them
output after output, and they stand in the record of the new problem in the same order; any other
number of them is refused. -/
theorem record_roundTrip :
    (∀ (ops : List (Operation α)) (p : Problem α), p ∈ (Store.empty.run ops).problems →
      p.isFitted = true → ∃ r q x, p.toRecord = .ok r ∧ ofRecord r = .ok q ∧
        p.phase.solution? = some x ∧ q.phase = .loaded x ∧ q.Alike p ∧
        ∀ t order, q.evaluationVector t order = p.evaluationVector t order) ∧
    (∀ (r : Record α) (q : Problem α), ofRecord r = .ok q → ∃ v entries x,
      r.get? (.text "solution") = some v ∧ v.leaves.mapM Value.toScalar = .ok entries ∧
      q.phase = .loaded x ∧
      (∀ i k j, i < q.segmentCount → k < q.outputCount → j < q.coefficientCount →
        ∃ block row c, x[i]? = some block ∧ block[k]? = some row ∧ row[j]? = some c ∧
          entries[(i * q.outputCount + k) * q.coefficientCount + j]? = some c) ∧
      ∃ r' v', q.toRecord = .ok r' ∧ r'.get? (.text "solution") = some v' ∧
        v'.leaves.mapM Value.toScalar = .ok entries) ∧
    ∀ (r : Record α) (p : Problem α) (v : Value α), openRecord r = .ok p →
      r.get? (.text "solution") = some v →
      (∀ a, v.toArray = .ok a → ((∃ q, ofRecord r = .ok q) ↔
        v.leaves.length = p.segmentCount * p.outputCount * p.coefficientCount)) ∧
      ((∀ w ∈ v.leaves, w.IsNumber) →
        v.leaves.length ≠ p.segmentCount * p.outputCount * p.coefficientCount →
        ofRecord r = .error .unusable ∨ ofRecord r = .error .outOfRange ∧
          ∃ z, .int z ∈ v.leaves ∧ (Scalar.ofInt? z : Option α) = none) := by
  refine ⟨fun ops p hp hf => ?_, fun r q hq => ?_, fun r p v hp hv =>
    ⟨fun a => ofRecord_isOk_iff hp hv, ofRecord_error_of_numbers hp hv⟩⟩
  · obtain ⟨x, hx⟩ := isFitted_eq_true_iff.1 hf
    exact ⟨_, _, x, toRecord_eq hx, ofRecord_recordOf (sized_of_mem_run hp) hx, hx, rfl,
      alike_reloaded hx, fun _ _ => rfl⟩
  · simp only [ofRecord, loadSolution, bind_eq_ok_iff, field_eq_ok_iff] at hq
    obtain ⟨p, -, v, hv, a, ha, x, hx, hq⟩ := hq
    obtain rfl := Except.ok.inj hq
    refine ⟨v, a.entries, x, hv, Value.mapM_leaves_of_toArray ha, rfl,
      fun i k j => exists_of_solutionOf hx, _, _, toRecord_eq rfl, rfl, ?_⟩
    rw [← flatten_of_solutionOf hx, Value.leaves, entries_solutionArray, Value.mapM_toScalar]

omit [Scalar α] in
lemma exists_of_sizes (sizes : ℕ × ℕ × ℕ) {x : Except (Fault α) (Problem α)}
    (h : (x.toOption.map fun p => (p.segmentCount, p.outputCount, p.coefficientCount)) =
      some sizes) :
    ∃ p, x = .ok p ∧ (p.segmentCount, p.outputCount, p.coefficientCount) = sizes := by
  cases x with
  | error e => cases h
  | ok p => exact ⟨p, rfl, Option.some_inj.1 h⟩

def inTwoRows (first second : List Float) : Record Float :=
  [(.text "times", .list [.real 0, .real 1, .real 3]), (.text "nCoef", .int 3),
    (.text "nDep", .int 2),
    (.text "solution", .list [.list (first.map .real), .list (second.map .real)])]

lemma solution_inTwoRows (first second : List Float) : ∃ v,
    Record.get? (inTwoRows first second) (.text "solution") = some v ∧
      v.leaves = (first ++ second).map .real := by
  refine ⟨_, rfl, ?_⟩
  rw [Value.leaves, Value.leavesOf_eq, List.flatMap_cons, List.flatMap_singleton,
    Value.leaves_reals, Value.leaves_reals, List.map_append]

theorem record_roundTrip_of_two_rows : ∃ (p q : Problem Float) (r : Record Float)
    (x : Solution Float) (block : List (List Float)) (row : List Float),
      ofRecord (inTwoRows [1, 2, 3, 4, 5, 6] [7, 8, 9, 10, 11, 12]) = .ok p ∧
      p.phase = .loaded x ∧ x[1]? = some block ∧ block[0]? = some row ∧ row[2]? = some 9 ∧
      p.toRecord = .ok r ∧ ofRecord r = .ok q ∧ q.Alike p ∧
      ofRecord (inTwoRows [1, 2, 3, 4, 5, 6] [7, 8, 9, 10, 11]) = .error .unusable := by
  obtain ⟨hagain, hentries, hnumber⟩ := record_roundTrip (α := Float)
  obtain ⟨p, hp, hsizes⟩ := exists_of_sizes (2, 2, 3)
    (x := ofRecord (inTwoRows [1, 2, 3, 4, 5, 6] [7, 8, 9, 10, 11, 12])) (by decide +kernel)
  obtain ⟨p', hp', hsizes'⟩ := exists_of_sizes (2, 2, 3)
    (x := openRecord (inTwoRows [1, 2, 3, 4, 5, 6] [7, 8, 9, 10, 11])) (by decide +kernel)
  simp only [Prod.mk.injEq] at hsizes hsizes'
  obtain ⟨hs, ho, hc⟩ := hsizes
  obtain ⟨hs', ho', hc'⟩ := hsizes'
  have hmem : p ∈ (Store.empty.run
      [.load (inTwoRows [1, 2, 3, 4, 5, 6] [7, 8, 9, 10, 11, 12])]).problems := by
    have hrun := Store.problems_after_load hp Store.empty
    exact hrun ▸ List.mem_append_right _ (List.mem_singleton_self p)
  obtain ⟨v, entries, x, hv, he, hx, hat, -⟩ := hentries _ _ hp
  obtain ⟨w, hw, hleaves⟩ := solution_inTwoRows [1, 2, 3, 4, 5, 6] [7, 8, 9, 10, 11, 12]
  obtain rfl := Option.some_inj.1 (hv.symm.trans hw)
  rw [hleaves, Value.mapM_toScalar] at he
  obtain rfl := Except.ok.inj he
  obtain ⟨block, row, c, hblock, hrow, hcoefficient, hentry⟩ :=
    hat 1 0 2 (by omega) (by omega) (by omega)
  rw [ho, hc] at hentry
  obtain rfl := Option.some_inj.1 hentry
  obtain ⟨r, q, -, hr, hq, -, -, halike, -⟩ := hagain _ p hmem (by rw [isFitted, hx]; rfl)
  refine ⟨p, q, r, x, block, row, hp, hx, hblock, hrow, hcoefficient, hr, hq, halike, ?_⟩
  obtain ⟨w', hw', hleaves'⟩ := solution_inTwoRows [1, 2, 3, 4, 5, 6] [7, 8, 9, 10, 11]
  have hreal : ∀ u ∈ w'.leaves, ∃ c, u = .real c := by
    intro u hu
    obtain ⟨c, -, rfl⟩ := List.mem_map.1 (hleaves' ▸ hu)
    exact ⟨c, rfl⟩
  have hnumbers : ∀ u ∈ w'.leaves, u.IsNumber := by
    intro u hu
    obtain ⟨c, rfl⟩ := hreal u hu
    trivial
  have hlength : w'.leaves.length ≠ p'.segmentCount * p'.outputCount * p'.coefficientCount := by
    rw [hleaves', hs', ho', hc']
    decide
  rcases (hnumber _ p' w' hp' hw').2 hnumbers hlength with h | ⟨-, z, hz, -⟩
  · exact h
  · obtain ⟨c, hint⟩ := hreal _ hz
    cases hint

lemma toArray_of_ofInt?_eq_none {z : ℤ} (h : (Scalar.ofInt? z : Option α) = none) :
    (Value.list [.int z] : Value α).toArray = .error .outOfRange := by
  have hentry : (Value.int z : Value α).toScalar = .error .outOfRange := by
    rw [Value.toScalar, Value.ofInt, h]
    rfl
  have hleaves : (Value.list [.int z] : Value α).leaves = [.int z] := rfl
  have hshape : (Value.list [.int z] : Value α).shape? = some [1] := rfl
  rw [Value.toArray, hshape, hleaves, List.mapM_cons, hentry]
  rfl

def hugeCoefficient : Record Float :=
  [(.text "times", .list [.int 0, .int 1]), (.text "nCoef", .int 2), (.text "nDep", .int 1),
    (.text "solution", .list [.int (10 ^ 400)])]

theorem wrong_number_is_out_of_range : ∃ (p : Problem Float) (v : Value Float),
    openRecord hugeCoefficient = .ok p ∧ Record.get? hugeCoefficient (.text "solution") = some v ∧
    (∀ w ∈ v.leaves, w.IsNumber) ∧
    v.leaves.length ≠ p.segmentCount * p.outputCount * p.coefficientCount ∧
    ofRecord hugeCoefficient = .error .outOfRange := by
  obtain ⟨p, hp, hsizes⟩ := exists_of_sizes (1, 1, 2)
    (x := openRecord hugeCoefficient) (by decide +kernel)
  simp only [Prod.mk.injEq] at hsizes
  obtain ⟨hs, ho, hc⟩ := hsizes
  have hnone : (Scalar.ofInt? (10 ^ 400) : Option Float) = none :=
    Option.isNone_iff_eq_none.1 (by decide +kernel)
  have harray := toArray_of_ofInt?_eq_none hnone
  refine ⟨p, _, hp, rfl, ?_, ?_, ?_⟩
  · intro w hw
    obtain rfl := List.mem_singleton.1 hw
    trivial
  · rw [hs, ho, hc]
    decide
  · rw [ofRecord_eq hp rfl, harray]
    rfl

end Problem

end KnotSpline
