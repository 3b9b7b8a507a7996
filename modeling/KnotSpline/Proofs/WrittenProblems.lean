import KnotSpline.Proofs.References
import KnotSpline.Proofs.WrittenValues

/-! What is written in the place of problems: it is read back as it was written, and each of the
problems that are referred to can be made anew from its own part of it. -/

namespace KnotSpline

open Relation

variable {α : Type}

variable [Scalar α]

namespace Json

omit [Scalar α] in
lemma toFields_eq (fields : List (Text × Json α)) :
    toFields fields = fields.map fun f => (.text f.1, f.2.toValue) := by
  induction fields with
  | nil => rfl
  | cons f fields ih => rw [toFields, ih, List.map_cons]

end Json

/-- The texts of a value are found again by a reader, and no two fields have the same name. -/
def Value.Legible : Value α → Prop
  | real x => Scalar.ReadsBack x
  | text t => ∃ cs, t = Text.ofChars cs
  | record fields => (fields.map fun f => f.1.name).Nodup ∧
      ∀ f ∈ fields, ∃ cs, f.1.name = Text.ofChars cs
  | _ => True

structure Problem.Legible (p : Problem α) : Prop where
  times : ∀ t ∈ p.times, Scalar.ReadsBack t
  coefficients : ∀ x, p.phase.solution? = some x →
    ∀ block ∈ x, ∀ row ∈ block, ∀ c ∈ row, Scalar.ReadsBack c
  metadata : ∀ y, (Value.record p.metadata).Holds y → y.Legible

lemma Problem.Legible.recordOf {p : Problem α} {x : Solution α} {y : Value α} (h : p.Legible)
    (hx : p.phase.solution? = some x) (hy : (Value.record (p.recordOf x)).Holds y) :
    y.Legible := by
  cases recorded_of_holds hy with
  | whole =>
    have hnames : (p.recordOf x).map (fun f => f.1.name) =
        ["type", "times", "nCoef", "nDep", "solution", "metadata"].map Text.ofString := rfl
    refine ⟨?_, fun f hf => ?_⟩
    · rw [hnames]
      decide
    · have hmem := List.mem_map_of_mem (f := fun f => f.1.name) hf
      rw [hnames] at hmem
      obtain ⟨name, -, hname⟩ := List.mem_map.1 hmem
      exact ⟨name.toList, hname.symm⟩
  | name name => exact ⟨name.toList, rfl⟩
  | entries h' =>
    cases h' with
    | list => trivial
    | @real c hc =>
      rcases hc with hc | hc
      · exact h.times c hc
      · obtain ⟨row, hrow, hc⟩ := List.mem_flatten.1 hc
        obtain ⟨block, hblock, hrow⟩ := List.mem_flatten.1 hrow
        exact h.coefficients x hx block hblock row hrow c hc
  | metadata hy => exact h.metadata y hy
  | times | solution | coefficientCount | outputCount => trivial

namespace Visit

variable {s : Store α} {id : ℕ} {v w : Visit α}

structure Readable (s : Store α) (v : Visit α) : Prop where
  clear : v.Clear s
  legible : ∀ w, v.Reaches s w → w.value.Legible

lemma Readable.inner (h : v.Readable s) (hw : w ∈ v.inner s) : w.Readable s where
  clear := h.clear.inner hw
  legible u hu := h.legible u (((Reaches.refl v).inner hw).trans hu)

lemma Readable.of_value_eq {x : Value α} (h : v.Readable s) (hx : v.value = x) :
    x.Legible ∧ x.flaw? s v.around = none :=
  hx ▸ ⟨h.legible v (.refl v), (obstacle?_eq_none_iff.1 (h.clear [] v rfl)).2⟩

lemma readable_root (hclear : (root id : Visit α).Clear s)
    (hlegible : ∀ a, ReflTransGen s.RefersTo id a → ∀ p, s.problem? a = some p → p.Legible) :
    (root id : Visit α).Readable s := by
  refine ⟨hclear, fun w hw => ?_⟩
  by_cases hproblem : ∃ b, w.value = .problem b
  · obtain ⟨b, hb⟩ := hproblem
    rw [hb]
    trivial
  · obtain ⟨a, p, x, ha, hp, hx, hholds⟩ :=
      (sound_of_reaches hw).exists_holds fun b hb => hproblem ⟨b, hb⟩
    exact (hlegible a ha p hp).recordOf hx hholds

end Visit

namespace Value.WrittenAs

variable {s : Store α} {v : Visit α} {j : Json α}

omit [Scalar α] in
lemma exists_mem_of_forall₂ {β γ : Type} {R : β → γ → Prop} {xs : List β} {ys : List γ} {y : γ}
    (h : List.Forall₂ R xs ys) (hy : y ∈ ys) : ∃ x ∈ xs, R x y := by
  induction h with
  | nil => nomatch hy
  | cons hxy _ ih =>
    rcases List.mem_cons.1 hy with rfl | hy
    · exact ⟨_, List.mem_cons_self, hxy⟩
    · obtain ⟨x, hx, hxy⟩ := ih hy
      exact ⟨x, List.mem_cons_of_mem _ hx, hxy⟩

theorem storable (h : v.value.WrittenAs s j) (hv : v.Readable s) : j.Storable := by
  refine h.nesting (motive := fun value j => ∀ v : Visit α, v.value = value → v.Readable s →
      j.Storable)
    ?null ?bool ?int ?real ?text ?list ?record ?array ?problem v rfl hv
  case null => exact fun v _ _ => .null
  case bool => exact fun b v _ _ => .bool b
  case int =>
    intro z v hvalue hv
    exact .int (flaw?_int_eq_none_iff.1 (hv.of_value_eq hvalue).2)
  case real => exact fun x v hvalue hv => .real (hv.of_value_eq hvalue).1
  case text =>
    intro t v hvalue hv
    obtain ⟨⟨cs, rfl⟩, -⟩ := hv.of_value_eq hvalue
    exact .text cs
  case list =>
    intro xs js ih v hvalue hv
    refine .list fun j hj => ?_
    obtain ⟨x, hx, ih⟩ := exists_mem_of_forall₂ ih hj
    exact ih _ rfl (hv.inner (Visit.mem_inner_list hvalue hx))
  case record =>
    intro fields js names ih v hvalue hv
    obtain ⟨hlegible, -⟩ := hv.of_value_eq hvalue
    refine .record (names ▸ hlegible.1) (fun f hf => ?_) fun f hf => ?_
    · have hname := List.mem_map_of_mem (f := Prod.fst) hf
      rw [names] at hname
      obtain ⟨g, hg, hname⟩ := List.mem_map.1 hname
      exact hname ▸ hlegible.2 g hg
    · obtain ⟨y, hy, ih⟩ := exists_mem_of_forall₂ ih (List.mem_map_of_mem (f := Prod.snd) hf)
      obtain ⟨g, hg, rfl⟩ := List.mem_map.1 hy
      exact ih _ rfl (hv.inner (Visit.mem_inner_record hvalue hg).2)
  case array =>
    exact fun a j ih v hvalue hv => ih _ rfl (hv.inner (Visit.mem_inner_array hvalue))
  case problem =>
    exact fun id p r j hp hr ih v hvalue hv =>
      ih _ rfl (hv.inner (Visit.mem_inner_problem hvalue hp hr))

lemma storable_root {id : ℕ} (h : (Value.problem id).WrittenAs s j)
    (hv : (Visit.root id).Readable s) : j.Storable :=
  storable (v := Visit.root id) h hv

theorem depth_le {n : ℕ} (h : v.value.WrittenAs s j)
    (hn : ∀ w, v.Reaches s w → w.depth ≤ n) : v.depth + j.depth ≤ n + 1 := by
  have hinner {v w : Visit α} (hv : ∀ u, v.Reaches s u → u.depth ≤ n) (hw : w ∈ v.inner s) :
      ∀ u, w.Reaches s u → u.depth ≤ n :=
    fun u hu => hv u (((Visit.Reaches.refl v).inner hw).trans hu)
  refine h.nesting (motive := fun value j => ∀ v : Visit α, v.value = value →
      (∀ w, v.Reaches s w → w.depth ≤ n) → v.depth + j.depth ≤ n + 1)
    ?null ?bool ?int ?real ?text ?list ?record ?array ?problem v rfl hn
  case list =>
    intro xs js ih v hvalue hv
    have hdepth := hv v (.refl v)
    suffices hjs : Json.depths js ≤ n - v.depth by
      rw [Json.depth]
      omega
    refine Json.depths_le_iff.2 fun j hj => ?_
    obtain ⟨x, hx, ih⟩ := exists_mem_of_forall₂ ih hj
    have hle := ih _ rfl (hinner hv (Visit.mem_inner_list hvalue hx))
    dsimp only at hle
    omega
  case record =>
    intro fields js names ih v hvalue hv
    have hdepth := hv v (.refl v)
    suffices hjs : Json.fieldDepths js ≤ n - v.depth by
      rw [Json.depth]
      omega
    refine Json.fieldDepths_le_iff.2 fun f hf => ?_
    obtain ⟨y, hy, ih⟩ := exists_mem_of_forall₂ ih (List.mem_map_of_mem (f := Prod.snd) hf)
    obtain ⟨g, hg, rfl⟩ := List.mem_map.1 hy
    have hle := ih _ rfl (hinner hv (Visit.mem_inner_record hvalue hg).2)
    dsimp only at hle
    omega
  case array =>
    intro a j ih v hvalue hv
    have hle := ih _ rfl (hinner hv (Visit.mem_inner_array hvalue))
    dsimp only at hle
    omega
  case problem =>
    intro id p r j hp hr ih v hvalue hv
    have hle := ih _ rfl (hinner hv (Visit.mem_inner_problem hvalue hp hr))
    dsimp only at hle
    omega
  all_goals
    intros
    rename_i v _ hv
    exact (hv v (.refl v)).trans (Nat.le_succ n)

lemma nest (s : Store α) (shape : List ℕ) (xs : List α) :
    (NumArray.nest .real .list shape xs : Value α).WrittenAs s
      (NumArray.nest .real .list shape xs) := by
  induction shape generalizing xs with
  | nil =>
    cases xs with
    | nil => exact .list .nil
    | cons x xs => exact .real x
  | cons n shape ih =>
    refine .list (List.forall₂_map_left_iff.2 (List.forall₂_map_right_iff.2 ?_))
    exact List.forall₂_same.2 fun ys _ => ih ys

lemma toNested (s : Store α) (a : NumArray α) :
    (Value.array a).WrittenAs s (a.toNested .real .list) :=
  .array (nest s a.shape a.entries)

lemma exists_record {fields : Record α} (h : (Value.record fields).WrittenAs s j) :
    ∃ js, j = .record js := by
  cases h
  exact ⟨_, rfl⟩

theorem exists_fileFields (hs : ∀ p ∈ s.problems, p.Sized) {a : ℕ}
    (h : (Value.problem a).WrittenAs s j) : ∃ p x metadata,
      s.problem? a = some p ∧ p.phase.solution? = some x ∧
      (Value.record p.metadata).WrittenAs s (.record metadata) ∧
      j = .record (p.fileFields x metadata) := by
  cases h with
  | @problem _ p r _ hp hr hrecord =>
    obtain ⟨x, hx, rfl⟩ := Problem.toRecord_eq_ok_iff.1 hr
    have hsized := hs p (List.mem_of_getElem? (s.problem?_eq a ▸ hp))
    cases hrecord with
    | @record _ js names contents =>
      generalize hjs : js.map Prod.snd = ys at contents
      obtain _ | ⟨htype, _ | ⟨htimes, _ | ⟨hcoefficients, _ | ⟨houtputs, _ | ⟨hsolution,
        _ | ⟨hmetadata, _ | _⟩⟩⟩⟩⟩⟩ := contents
      obtain rfl := htype.unique (.text _)
      obtain rfl := htimes.unique (.toNested s _)
      obtain rfl := hcoefficients.unique (.int _)
      obtain rfl := houtputs.unique (.int _)
      obtain rfl := hsolution.unique (.toNested s _)
      obtain ⟨metadata, rfl⟩ := exists_record hmetadata
      refine ⟨p, x, metadata, hp, hx, hmetadata, ?_⟩
      have htimes : (NumArray.vector p.times).toNested Json.real .list =
          .list (p.times.map .real) := NumArray.nest_row _ _ p.times
      rw [List.zip_of_prod names hjs, htimes, (hsized.hasSolution x hx).toNested]
      rfl

end Value.WrittenAs

namespace Problem

variable {p : Problem α} {x : Solution α}

omit [Scalar α] in
lemma metadata_mem_fileFields (p : Problem α) (x : Solution α) (metadata : List (Text × Json α)) :
    (Text.ofString "metadata", .record metadata) ∈ p.fileFields x metadata := by
  simp [fileFields]

lemma Sized.withMetadata (h : p.Sized) (r : Record α) : { p with metadata := r }.Sized :=
  ⟨h.two_le_knotCount, h.finite, h.increasing, h.one_le_coefficientCount, h.checkExtents,
    h.hasSolution⟩

theorem ofRecord_written (h : p.Sized) (hx : p.phase.solution? = some x)
    (metadata : List (Text × Json α)) : ofRecord (Json.toFields (p.fileFields x metadata)) =
      .ok ({ p with metadata := Json.toFields metadata }.reloaded x) := by
  obtain ⟨q, hopen, hload⟩ := ofRecord_fileFields (h.withMetadata (Json.toFields metadata)) hx rfl
  rw [ofRecord]
  exact bind_eq_ok_iff.2 ⟨q, hopen, hload⟩

end Problem

namespace Value.WrittenAs

variable {s : Store α} {v y : Value α} {j : Json α}

theorem exists_of_holds (h : v.WrittenAs s j) (hy : v.Holds y) :
    (∃ j', y.WrittenAs s j' ∧ j.toValue.Holds j'.toValue) ∨ ∃ key, y = .ofKey key := by
  induction hy with
  | self => exact .inl ⟨j, h, .self⟩
  | key _ _ _ => exact .inr ⟨_, rfl⟩
  | item _ hx ih =>
    rcases ih with ⟨j', hj', hholds⟩ | ⟨key, hkey⟩
    · cases hj' with
      | @list _ js items =>
        rw [Json.toValue, Json.toValues_eq] at hholds
        obtain ⟨y, hy, hwritten⟩ := exists_mem_of_forall₂ items.flip hx
        exact .inl ⟨y, hwritten, .item hholds (List.mem_map_of_mem hy)⟩
    · cases key <;> cases hkey
  | content _ hf ih =>
    rcases ih with ⟨j', hj', hholds⟩ | ⟨key, hkey⟩
    · cases hj' with
      | @record _ js _ contents =>
        rw [Json.toValue, Json.toFields_eq] at hholds
        obtain ⟨y, hy, hwritten⟩ :=
          exists_mem_of_forall₂ contents.flip (List.mem_map_of_mem (f := Prod.snd) hf)
        obtain ⟨g, hg, rfl⟩ := List.mem_map.1 hy
        refine .inl ⟨g.2, hwritten, ?_⟩
        exact .content (f := (.text g.1, g.2.toValue)) hholds (List.mem_map_of_mem hg)
    · cases key <;> cases hkey
  | entries _ ih =>
    rcases ih with ⟨j', hj', hholds⟩ | ⟨key, hkey⟩
    · cases hj' with
      | array contents => exact .inl ⟨j', contents, hholds⟩
    · cases key <;> cases hkey

theorem exists_of_leads (hs : ∀ p ∈ s.problems, p.Sized) {a b : ℕ}
    (h : (Value.problem a).WrittenAs s j) (hab : ReflTransGen s.RefersTo a b) :
    ∃ j', (Value.problem b).WrittenAs s j' ∧ j.toValue.Holds j'.toValue := by
  induction hab with
  | refl => exact ⟨j, h, .self⟩
  | @tail b c _ hstep ih =>
    obtain ⟨j', hj', hholds⟩ := ih
    obtain ⟨p, x, metadata, hp, hx, hwritten, rfl⟩ := hj'.exists_fileFields hs
    obtain ⟨q, hq, hrefers⟩ := hstep
    obtain rfl := Option.some_inj.1 (hp.symm.trans hq)
    rcases hwritten.exists_of_holds hrefers with ⟨i, hi, hin⟩ | ⟨key, hkey⟩
    · refine ⟨i, hi, (hin.trans ?_).trans hholds⟩
      have hmem : (Key.text "metadata", (Json.record metadata).toValue) ∈
          Json.toFields (p.fileFields x metadata) := by
        rw [Json.toFields_eq]
        exact List.mem_map_of_mem (p.metadata_mem_fileFields x metadata)
      rw [Json.toValue]
      exact .content .self hmem
    · cases key <;> cases hkey

end Value.WrittenAs

end KnotSpline
