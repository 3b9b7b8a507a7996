import KnotSpline.Proofs.Acceptance

/-! The same problem on another clock. All times are mapped by one increasing affine function, and
values of derivatives change with the unit of time. Both problems accept the same requests. -/

namespace KnotSpline

namespace NumArray

variable {α β γ : Type}

def map (f : α → β) (a : NumArray α) : NumArray β :=
  ⟨a.shape, a.entries.map f, by rw [List.length_map, a.length_entries]⟩

lemma map_map (g : β → γ) (f : α → β) (a : NumArray α) :
    (a.map f).map g = a.map fun x => g (f x) := by
  simp [map]

lemma map_id (a : NumArray α) : (a.map fun x => x) = a := by
  simp [map]

lemma atLeastVector_map (f : α → β) (a : NumArray α) :
    (a.map f).atLeastVector = a.atLeastVector.map f := by
  rcases a with ⟨_ | ⟨n, shape⟩, xs, h⟩ <;> rfl

end NumArray

variable {s : ℝ}

lemma inv_zpow_mul_zpow_mul (hs : s ≠ 0) (d : ℤ) (y : ℝ) : s⁻¹ ^ d * (s ^ d * y) = y := by
  rw [← mul_assoc, ← mul_zpow, inv_mul_cancel₀ hs, one_zpow, one_mul]

namespace Constraint

noncomputable def rescale (s : ℝ) : Constraint ℝ → Constraint ℝ
  | constant knot order target => constant knot order (target.map (s ^ (-(order : ℤ)) * ·))
  | continuity knot order => continuity knot order

lemma rescale_rescale_inv (hs : s ≠ 0) (k : Constraint ℝ) :
    (k.rescale s).rescale s⁻¹ = k := by
  cases k with
  | constant knot order target =>
    rw [rescale, rescale, List.map_map]
    exact congrArg _ (List.map_id'' (inv_zpow_mul_zpow_mul hs _) target)
  | continuity knot order => rfl

end Constraint

inductive Request.Rescales (s : ℝ) : Request ℝ → Request ℝ → Prop
  | constant {knot order value value' : Value ℝ}
      (h : ∀ d : ℤ, order.int? = some d →
        value'.toArray = value.toArray.map (NumArray.map (s ^ (-d) * ·))) :
      Rescales s (.constant knot order value) (.constant knot order value')
  | continuity (knot order : Value ℝ) :
      Rescales s (.continuity knot order) (.continuity knot order)

lemma Request.Rescales.symm {r r' : Request ℝ} (h : Rescales s r r') (hs : s ≠ 0) :
    Rescales s⁻¹ r' r := by
  cases h with
  | @constant knot order value value' h =>
    refine .constant fun d hd => ?_
    rw [h d hd]
    cases value.toArray with
    | error e => rfl
    | ok a =>
      change Except.ok a = Except.ok ((a.map _).map _)
      simp only [NumArray.map_map, inv_zpow_mul_zpow_mul hs, NumArray.map_id]
  | continuity knot order => exact .continuity knot order

namespace Problem

def retime (s c : ℝ) (p : Problem ℝ) : Problem ℝ :=
  { p with times := p.times.map fun t => s * t + c }

section Sizes

variable (s c : ℝ) (p : Problem ℝ)

@[simp] lemma knotCount_retime : (p.retime s c).knotCount = p.knotCount :=
  List.length_map _

@[simp] lemma segmentCount_retime : (p.retime s c).segmentCount = p.segmentCount := by
  rw [segmentCount, knotCount_retime, segmentCount]

@[simp] lemma coefficientCount_retime :
    (p.retime s c).coefficientCount = p.coefficientCount := rfl

@[simp] lemma dimension_retime : (p.retime s c).dimension = p.dimension := by
  rw [dimension, segmentCount_retime, coefficientCount_retime, dimension]

end Sizes

variable {p : Problem ℝ} {c : ℝ}

lemma getD_times_retime {i : ℕ} (hi : i < p.knotCount) :
    (p.retime s c).times.getD i 0 = s * p.times.getD i 0 + c := by
  replace hi : i < p.times.length := hi
  simp [retime, hi]

lemma differences_affine (xs : List ℝ) :
    differences (xs.map fun t => s * t + c) = (differences xs).map (s * ·) := by
  rw [differences, differences, ← List.map_tail, List.zipWith_map, List.map_zipWith]
  congr 1
  funext a b
  ring

lemma knotTimes_affine {times times' : Value ℝ} {xs : List ℝ} (h : knotTimes times = .ok xs)
    (hs : 0 < s)
    (ht : times'.toArray = times.toArray.map (NumArray.map fun t => s * t + c)) :
    knotTimes times' = .ok (xs.map fun t => s * t + c) := by
  simp only [knotTimes, bind_eq_ok_iff, check_eq_ok_iff] at h ⊢
  obtain ⟨a, ha, hshape, hlen, -, hinc, hx⟩ := h
  obtain rfl := Except.ok.inj hx
  refine ⟨a.map _, by rw [ht, ha]; rfl, hshape, ?_, by simp, ?_, rfl⟩
  · rwa [NumArray.map, List.length_map]
  · rw [NumArray.map, differences_affine]
    simpa [hs] using hinc

lemma create_retime {times times' coefficientCount outputCount metadata : Value ℝ}
    (hp : create times coefficientCount outputCount metadata = .ok p) (hs : 0 < s)
    (ht : times'.toArray = times.toArray.map (NumArray.map fun t => s * t + c)) :
    create times' coefficientCount outputCount metadata = .ok (p.retime s c) := by
  simp only [create, bind_eq_ok_iff] at hp ⊢
  obtain ⟨knots, hk, n, hn, m, hm, u, hu, fields, hf, hp⟩ := hp
  obtain rfl := Except.ok.inj hp
  refine ⟨_, knotTimes_affine hk hs ht, n, hn, m, hm, u, ?_, fields, hf, ?_⟩
  · rwa [List.length_map]
  · rw [List.length_map]
    rfl

lemma admits_retime (k : Constraint ℝ) : (p.retime s c).Admits (k.rescale s) ↔ p.Admits k := by
  cases k <;> simp [Admits, Constraint.rescale]

lemma length_equations_retime (k : Constraint ℝ) :
    ((p.retime s c).equations (k.rescale s)).length = (p.equations k).length := by
  cases k <;> simp [equations, Constraint.rescale, adjoining]

lemma length_flatMap_retime (cs : List (Constraint ℝ)) :
    ((cs.map (Constraint.rescale s)).flatMap (p.retime s c).equations).length =
      (cs.flatMap p.equations).length := by
  simp only [List.flatMap_map, List.length_flatMap, length_equations_retime]

variable {cs : List (Constraint ℝ)}

lemma Registrable.retime (h : p.Registrable cs) (s c : ℝ) :
    (p.retime s c).Registrable (cs.map (Constraint.rescale s)) where
  admits := List.forall_mem_map.2 fun k hk => (admits_retime k).2 (h.admits k hk)
  length_le := by
    rw [length_flatMap_retime, dimension_retime]
    exact h.length_le

lemma Fills.retime (h : p.Fills cs) (s c : ℝ) :
    (p.retime s c).Fills (cs.map (Constraint.rescale s)) where
  toRegistrable := h.toRegistrable.retime s c
  length_eq := by
    rw [length_flatMap_retime, dimension_retime]
    exact h.length_eq

section Runs

variable {r r' : Request ℝ} {rs rs' : List (Request ℝ)}

lemma Asks.rescale {k : Constraint ℝ} (ha : p.Asks r k) (h : Request.Rescales s r r') :
    p.Asks r' (k.rescale s) := by
  cases h with
  | constant h =>
    cases k with
    | constant knot order target =>
      obtain ⟨hl, a, hv, hs, he⟩ := ha
      refine ⟨hl, a.map _, by rw [h _ hl.2.1.1, hv]; rfl, ?_⟩
      rw [NumArray.atLeastVector_map, ← he]
      exact ⟨hs, rfl⟩
    | continuity knot order => exact ha.elim
  | continuity knot order =>
    cases k with
    | constant knot order target => exact ha.elim
    | continuity knot order => exact ha

variable (hs : s ≠ 0)

include hs

lemma asks_rescale_iff (h : Request.Rescales s r r') (k : Constraint ℝ) :
    p.Asks r' (k.rescale s) ↔ p.Asks r k := by
  constructor
  · intro ha
    have hb := ha.rescale (h.symm hs)
    rwa [Constraint.rescale_rescale_inv hs] at hb
  · exact fun ha => ha.rescale h

lemma resolve_retime_iff (h : Request.Rescales s r r') (cs : List (Constraint ℝ))
    (k : Constraint ℝ) :
    ((p.retime s c).registering (cs.map (Constraint.rescale s))).resolve r' =
        .ok (k.rescale s) ↔
      (p.registering cs).resolve r = .ok k := by
  have hask : ((p.retime s c).registering (cs.map (Constraint.rescale s))).Asks r'
      (k.rescale s) ↔ (p.registering cs).Asks r k := by
    rw [← asks_rescale_iff hs h]
    exact asks_congr (knotCount_retime s c p) rfl rfl _ _
  have hrow : ((p.retime s c).registering (cs.map (Constraint.rescale s))).rowIndex =
      (p.registering cs).rowIndex := congrArg Nat.cast (length_flatMap_retime cs)
  have hlen : (((p.retime s c).registering (cs.map (Constraint.rescale s))).equations
      (k.rescale s)).length = ((p.registering cs).equations k).length :=
    length_equations_retime k
  have hdim : ((p.retime s c).registering (cs.map (Constraint.rescale s))).dimension =
      (p.registering cs).dimension := dimension_retime s c p
  rw [resolve_eq_ok_iff, resolve_eq_ok_iff, hask, hrow, hlen, hdim]
  rfl

lemma exists_resolve_retime_iff (h : Request.Rescales s r r') (cs : List (Constraint ℝ)) :
    (∃ k, ((p.retime s c).registering (cs.map (Constraint.rescale s))).resolve r' = .ok k) ↔
      ∃ k, (p.registering cs).resolve r = .ok k := by
  constructor
  · rintro ⟨k, hk⟩
    refine ⟨k.rescale s⁻¹, (resolve_retime_iff hs h cs _).1 (hk.trans ?_)⟩
    have hinv := Constraint.rescale_rescale_inv (inv_ne_zero hs) k
    rw [inv_inv] at hinv
    rw [hinv]
  · rintro ⟨k, hk⟩
    exact ⟨_, (resolve_retime_iff hs h cs k).2 hk⟩

theorem Registrable.accepted_retime (h : p.Registrable cs)
    (hrs : List.Forall₂ (Request.Rescales s) rs rs') :
    ((p.retime s c).registering (cs.map (Constraint.rescale s))).accepted rs' =
      ((p.registering cs).accepted rs).map (Constraint.rescale s) := by
  induction hrs generalizing cs with
  | nil => rfl
  | @cons r r' rs rs' hr hrs ih =>
    cases hk : (p.registering cs).resolve r with
    | ok k =>
      have hk' := (resolve_retime_iff (c := c) hs hr cs k).2 hk
      obtain ⟨hreg, hstep⟩ := h.step hk
      have hstep' := ((h.retime s c).step hk').2
      have hih := ih hreg
      rw [List.map_append, List.map_singleton] at hih
      rw [accepted, hk', hstep', accepted, hk, hstep]
      exact congrArg (k.rescale s :: ·) hih
    | error e =>
      cases hk' : ((p.retime s c).registering (cs.map (Constraint.rescale s))).resolve r' with
      | ok k' =>
        -- what is refused on one clock is refused on the other
        obtain ⟨k, hok⟩ := (exists_resolve_retime_iff hs hr cs).1 ⟨k', hk'⟩
        cases hok.symm.trans hk
      | error e' =>
        rw [accepted, hk', accepted, hk]
        exact ih h

end Runs

end Problem

end KnotSpline
