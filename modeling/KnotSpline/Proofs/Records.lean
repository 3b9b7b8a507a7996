import KnotSpline.Proofs.Arrays
import KnotSpline.Proofs.JsonText
import KnotSpline.Proofs.Lifecycle

/-! The record of a fitted problem as JSON, and the problem that is made of it. Arrays become nested
lists, which are flattened and cut into rows again. -/

namespace KnotSpline

variable {α : Type}

namespace NumArray

variable {β : Type}

lemma pieces_flatten {k : ℕ} {xss : List (List α)} (h : ∀ xs ∈ xss, xs.length = k) :
    pieces k xss.length xss.flatten = xss := by
  induction xss with
  | nil => rfl
  | cons xs xss ih =>
    have hl := h xs List.mem_cons_self
    rw [List.length_cons, pieces, List.flatten_cons, List.take_left' hl, List.drop_left' hl,
      ih fun ys hy => h ys (List.mem_cons_of_mem _ hy)]

lemma nest_flatten (leaf : α → β) (node : List β → β) {shape : List ℕ} {xss : List (List α)}
    (h : ∀ xs ∈ xss, xs.length = size shape) :
    nest leaf node (xss.length :: shape) xss.flatten =
      node (xss.map (nest leaf node shape)) := by
  rw [nest, pieces_flatten h]

lemma length_flatten_of_forall {k : ℕ} {xss : List (List α)} (h : ∀ xs ∈ xss, xs.length = k) :
    xss.flatten.length = xss.length * k := by
  have hk : ∀ n ∈ xss.map List.length, n = k := by simpa using h
  rw [List.length_flatten, List.sum_eq_card_nsmul _ k hk, List.length_map, smul_eq_mul]

lemma nest_row (leaf : α → β) (node : List β → β) (xs : List α) :
    nest leaf node [xs.length] xs = node (xs.map leaf) := by
  have hp : pieces (size []) xs.length xs = xs.map fun x => [x] := by
    induction xs with
    | nil => rfl
    | cons x xs ih => exact congrArg ([x] :: ·) ih
  rw [nest, hp, List.map_map]
  rfl

end NumArray

namespace Json

def ofSolution (x : Solution α) : Json α :=
  list (x.map fun block => list (block.map fun row => list (row.map real)))

end Json

namespace Problem

variable {p : Problem α} {x : Solution α}

lemma HasSolution.length_flatten (h : p.HasSolution x) :
    x.flatten.flatten.length = p.segmentCount * p.outputCount * p.coefficientCount := by
  have hrows : ∀ row ∈ x.flatten, row.length = p.coefficientCount := by
    intro row hr
    obtain ⟨block, hb, hr⟩ := List.mem_flatten.1 hr
    exact (h.2 block hb).2 row hr
  rw [NumArray.length_flatten_of_forall hrows,
    NumArray.length_flatten_of_forall fun block hb => (h.2 block hb).1, h.1]

@[simp]
lemma entries_solutionArray (p : Problem α) (x : Solution α) :
    (p.solutionArray x).entries = x.flatten.flatten :=
  NumArray.entries_shaped _ _

lemma HasSolution.shape_solutionArray (h : p.HasSolution x) :
    (p.solutionArray x).shape = [p.segmentCount, p.outputCount, p.coefficientCount] := by
  have hl : x.flatten.flatten.length =
      NumArray.size [p.segmentCount, p.outputCount, p.coefficientCount] := by
    simp only [h.length_flatten, NumArray.size, List.foldr_cons, List.foldr_nil, Nat.mul_one,
      Nat.mul_assoc]
  rw [solutionArray, NumArray.shaped_eq hl]

lemma HasSolution.toNested {β : Type} (h : p.HasSolution x) (leaf : α → β) (node : List β → β) :
    (p.solutionArray x).toNested leaf node =
      node (x.map fun block => node (block.map fun row => node (row.map leaf))) := by
  have hblocks : ∀ ys ∈ x.map List.flatten,
      ys.length = NumArray.size [p.outputCount, p.coefficientCount] := by
    intro ys hy
    obtain ⟨block, hb, rfl⟩ := List.mem_map.1 hy
    obtain ⟨hm, hn⟩ := h.2 block hb
    rw [NumArray.length_flatten_of_forall hn, hm]
    exact congrArg _ (Nat.mul_one _).symm
  have hblock : ∀ block ∈ x,
      NumArray.nest leaf node [p.outputCount, p.coefficientCount] block.flatten =
        node (block.map fun row => node (row.map leaf)) := by
    intro block hb
    obtain ⟨hm, hn⟩ := h.2 block hb
    rw [← hm, NumArray.nest_flatten _ _ fun row hr => (hn row hr).trans (Nat.mul_one _).symm]
    refine congrArg node (List.map_congr_left fun row hr => ?_)
    rw [← hn row hr, NumArray.nest_row]
  have hl : p.segmentCount = (x.map List.flatten).length := by rw [List.length_map, h.1]
  rw [NumArray.toNested, h.shape_solutionArray, entries_solutionArray, List.flatten_flatten, hl,
    NumArray.nest_flatten _ _ hblocks, List.map_map]
  exact congrArg node (List.map_congr_left hblock)

lemma HasSolution.solutionOf (h : p.HasSolution x) {a : NumArray α}
    (ha : a.entries = x.flatten.flatten) : p.solutionOf a = .ok x := by
  have hblocks : ∀ ys ∈ x.map List.flatten, ys.length = p.outputCount * p.coefficientCount := by
    intro ys hy
    obtain ⟨block, hb, rfl⟩ := List.mem_map.1 hy
    obtain ⟨hm, hn⟩ := h.2 block hb
    rw [NumArray.length_flatten_of_forall hn, hm]
  have hl : p.segmentCount = (x.map List.flatten).length := by rw [List.length_map, h.1]
  rw [Problem.solutionOf, ha, if_pos h.length_flatten, List.flatten_flatten, hl,
    NumArray.pieces_flatten hblocks, List.map_map]
  refine congrArg Except.ok ((List.map_congr_left fun block hb => ?_).trans x.map_id)
  obtain ⟨hm, hn⟩ := h.2 block hb
  rw [Function.comp_apply, ← hm, NumArray.pieces_flatten hn, id]

end Problem

namespace Json

lemma toValues_eq (xs : List (Json α)) : toValues xs = xs.map toValue := by
  induction xs with
  | nil => rfl
  | cons x xs ih => rw [toValues, ih, List.map_cons]

lemma toValue_list_map {β : Type} (f : β → Json α) (ys : List β) :
    (list (ys.map f)).toValue = .list (ys.map fun y => (f y).toValue) := by
  rw [toValue, toValues_eq, List.map_map]
  rfl

lemma toValue_ofSolution (x : Solution α) : (ofSolution x).toValue =
    .list (x.map fun block => .list (block.map fun row => .list (row.map .real))) := by
  simp only [ofSolution, toValue_list_map]
  rfl

lemma leaves_toValue_ofSolution (x : Solution α) :
    (ofSolution x).toValue.leaves = x.flatten.flatten.map .real := by
  have hblock : ∀ block : List (List α),
      (Value.list (block.map fun row => .list (row.map .real))).leaves =
        block.flatten.map .real := by
    intro block
    rw [Value.leaves, Value.leavesOf_eq, List.flatMap_map, List.map_flatten, List.flatMap_def]
    exact congrArg _ (List.map_congr_left fun row _ => Value.leaves_reals row)
  rw [toValue_ofSolution, Value.leaves, Value.leavesOf_eq, List.flatMap_map, List.flatMap_def,
    List.map_congr_left fun block _ => hblock block, List.flatten_flatten, List.map_flatten,
    List.map_map]
  rfl

end Json

namespace Problem

variable [Scalar α] {p : Problem α} {x : Solution α}

lemma HasSolution.toArray (h : p.HasSolution x) :
    ∃ a, (Json.ofSolution x).toValue.toArray = .ok a ∧ a.entries = x.flatten.flatten := by
  have hrow : ∀ block ∈ x, ∀ v ∈ block.map fun row => Value.list (row.map Value.real),
      v.shape? = some [p.coefficientCount] := by
    intro block hb v hv
    obtain ⟨row, hr, rfl⟩ := List.mem_map.1 hv
    rw [Value.shape?_reals, (h.2 block hb).2 row hr]
  have hblock : ∀ v ∈ x.map fun block => Value.list (block.map fun row => .list (row.map .real)),
      v.shape? = some
        (p.outputCount :: if p.outputCount = 0 then [] else [p.coefficientCount]) := by
    intro v hv
    obtain ⟨block, hb, rfl⟩ := List.mem_map.1 hv
    rw [Value.shape?_list (hrow block hb), List.length_map, (h.2 block hb).1]
  have hs := Value.shape?_list hblock
  rw [← Json.toValue_ofSolution] at hs
  suffices hl : _ ≤ Value.maxAxes by
    obtain ⟨a, ha, -, hentries⟩ :=
      Value.exists_toArray_of_leaves hs hl (Json.leaves_toValue_ofSolution x)
    exact ⟨a, ha, hentries⟩
  split
  · rw [List.length_singleton]
    decide
  · split
    · rw [List.length_cons, List.length_singleton]
      decide
    · rw [List.length_cons, List.length_cons, List.length_singleton]
      decide

end Problem

namespace Problem

variable {p : Problem α} {x : Solution α} {metadata : List (Text × Json α)}

def fileFields (p : Problem α) (x : Solution α) (metadata : List (Text × Json α)) :
    List (Text × Json α) :=
  [("type", .text recordType), ("times", .list (p.times.map .real)),
    ("nCoef", .int p.coefficientCount), ("nDep", .int p.outputCount),
    ("solution", .ofSolution x), ("metadata", .record metadata)]

def reloaded (p : Problem α) (x : Solution α) : Problem α :=
  { p with rowIndex := p.dimension, phase := .loaded x, rankTolerance := .null }

variable [Scalar α]

omit [Scalar α] in
lemma isShort_of_le {n : ℕ} (h : n ≤ NumArray.entryLimit) : Json.isShort n = true := by
  have hlt : NumArray.entryLimit < 10 ^ 10 := by decide
  have hle : 10 ^ 10 ≤ 10 ^ Json.maxDigits := Nat.pow_le_pow_right (by decide) (by decide)
  exact Json.isShort_iff.2 (h.trans_lt (hlt.trans_le hle))

lemma Sized.isShort (h : p.Sized) :
    Json.isShort p.coefficientCount = true ∧ Json.isShort p.outputCount = true := by
  have hx := h.checkExtents
  simp only [Problem.checkExtents, bind_eq_ok_iff] at hx
  obtain ⟨⟨⟩, hc, ⟨⟩, -, ho⟩ := hx
  replace hc := (NumArray.checkShape_eq_ok_iff.1 hc).2
  replace ho := (NumArray.checkShape_eq_ok_iff.1 ho).2
  simp only [NumArray.size, List.foldr_cons, List.foldr_nil, Nat.mul_one] at hc ho
  exact ⟨isShort_of_le ((Nat.le_mul_of_pos_left _ h.one_le_coefficientCount).trans hc),
    isShort_of_le ((Nat.le_mul_of_pos_left _ h.one_le_dimension).trans ho)⟩

lemma storable_reals {xs : List α} (h : ∀ c ∈ xs, Scalar.ReadsBack c) :
    (Json.list (xs.map .real)).Storable := by
  refine .list fun j hj => ?_
  obtain ⟨c, hc, rfl⟩ := List.mem_map.1 hj
  exact .real (h c hc)

lemma storable_ofSolution (h : ∀ block ∈ x, ∀ row ∈ block, ∀ c ∈ row, Scalar.ReadsBack c) :
    (Json.ofSolution x).Storable := by
  refine .list fun j hj => ?_
  obtain ⟨block, hb, rfl⟩ := List.mem_map.1 hj
  refine .list fun j hj => ?_
  obtain ⟨row, hr, rfl⟩ := List.mem_map.1 hj
  exact storable_reals (h block hb row hr)

lemma storable_fileFields (h : p.Sized) (ht : ∀ t ∈ p.times, Scalar.ReadsBack t)
    (hx : ∀ block ∈ x, ∀ row ∈ block, ∀ c ∈ row, Scalar.ReadsBack c)
    (hs : (Json.record metadata).Storable) : (Json.record (p.fileFields x metadata)).Storable := by
  obtain ⟨hc, ho⟩ := h.isShort
  have hnames : (p.fileFields x metadata).map Prod.fst =
      ["type", "times", "nCoef", "nDep", "solution", "metadata"].map Text.ofString := rfl
  refine .record ?_ ?_ ?_
  · rw [hnames]
    decide
  · intro f hf
    have hm := List.mem_map_of_mem (f := Prod.fst) hf
    rw [hnames] at hm
    obtain ⟨name, -, hname⟩ := List.mem_map.1 hm
    exact ⟨name.toList, hname.symm⟩
  · intro f hf
    simp only [fileFields, List.mem_cons, List.not_mem_nil, or_false] at hf
    rcases hf with rfl | rfl | rfl | rfl | rfl | rfl
    · exact .text recordType.toList
    · exact storable_reals ht
    · exact .int hc
    · exact .int ho
    · exact storable_ofSolution hx
    · exact hs

lemma knotTimes_reals (h : p.Sized) : knotTimes (.list (p.times.map .real)) = .ok p.times := by
  have hf : p.times.all Scalar.isFinite = true := List.all_eq_true.2 h.finite
  have hk : ¬p.times.length < 2 := Nat.not_lt.2 h.two_le_knotCount
  rw [knotTimes, Value.toArray_reals]
  simp only [bind, Except.bind, NumArray.vector, List.length_singleton, ne_eq, not_true_eq_false,
    if_false, hk, hf, h.increasing, Bool.not_true, Bool.false_eq_true]
  rfl

lemma create_again (h : p.Sized) :
    create (.list (p.times.map .real)) (.int p.coefficientCount) (.int p.outputCount)
      (.record p.metadata) = .ok { p with
        rowIndex := 0
        phase := .building (emptySystem p.dimension p.outputCount)
        rankTolerance := .null } := by
  have hc : count 1 .coefficientCount (.int p.coefficientCount : Value α) =
      .ok p.coefficientCount :=
    (count_eq_ok_iff (by decide)).2 ⟨rfl, by exact_mod_cast h.one_le_coefficientCount⟩
  have ho : count 0 .outputCount (.int p.outputCount : Value α) = .ok p.outputCount :=
    (count_eq_ok_iff le_rfl).2 ⟨rfl, Int.natCast_nonneg _⟩
  have hx : Problem.checkExtents p.coefficientCount ((p.times.length - 1) * p.coefficientCount)
      p.outputCount = (.ok () : Except (Fault α) Unit) := h.checkExtents
  simp only [create, knotTimes_reals h, hc, ho, hx, bind, Except.bind]
  rfl

lemma ofRecord_fileFields (h : p.Sized) (hx : p.phase.solution? = some x)
    (hm : p.metadata = Json.toFields metadata) :
    ∃ q, openRecord (Json.toFields (p.fileFields x metadata)) = .ok q ∧
      q.loadSolution (Json.toFields (p.fileFields x metadata)) = .ok (p.reloaded x) := by
  have htimes : field (Json.toFields (p.fileFields x metadata)) "times" =
      .ok (.list (p.times.map .real)) := by
    rw [show (Value.list (p.times.map .real) : Value α) = (Json.list (p.times.map .real)).toValue
      from (Json.toValue_list_map Json.real p.times).symm]
    rfl
  have hopen : openRecord (Json.toFields (p.fileFields x metadata)) =
      create (.list (p.times.map .real)) (.int p.coefficientCount) (.int p.outputCount)
        (.record p.metadata) := by
    rw [openRecord, htimes, hm]
    rfl
  refine ⟨_, hopen.trans (create_again h), ?_⟩
  obtain ⟨a, harray, hentries⟩ := (h.hasSolution x hx).toArray
  have hsolution : field (Json.toFields (p.fileFields x metadata)) "solution" =
      .ok (Json.ofSolution x).toValue := rfl
  have hof : Problem.solutionOf { p with
      rowIndex := 0
      phase := .building (emptySystem p.dimension p.outputCount)
      rankTolerance := .null } a = .ok x :=
    (h.hasSolution x hx).solutionOf hentries
  rw [loadSolution, hsolution]
  simp only [bind, Except.bind, harray, hof]
  rfl

end Problem

end KnotSpline
