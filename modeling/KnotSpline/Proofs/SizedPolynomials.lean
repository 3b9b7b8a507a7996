import KnotSpline.Proofs.Arrays
import KnotSpline.Proofs.Taylor

/-! Polynomials with a whole order and an array of coefficients: how they come about, and what
evaluation, derivatives and a new center make of each output. -/

open Polynomial (derivative)
open scoped Polynomial

namespace KnotSpline

open Taylor (horner recenter)

lemma Value.exists_sub {x y : Value ℝ} {t s : ℝ} (hx : x.toNumber = .ok t)
    (hy : y.toNumber = .ok s) : ∃ d, x.sub y = .ok d ∧ d.toNumber = .ok (t - s) := by
  have hbool : ∀ b : Bool, (Scalar.ofBool b : ℝ) = ((if b then 1 else 0 : ℤ) : ℝ) := fun b => by
    cases b <;> simp [Scalar.ofBool]
  cases x with
  | null | text | list | record | array | problem | foreign => cases hx
  | bool b | int m | real u =>
    obtain rfl := Except.ok.inj hx
    cases y with
    | null | text | list | record | array | problem | foreign => cases hy
    | bool c | int n | real v =>
      obtain rfl := Except.ok.inj hy
      refine ⟨_, rfl, ?_⟩
      simp [toNumber, ofInt, hbool, pure, Except.pure]

lemma horner_of_length_le_one {cs : List ℝ} (h : cs.length ≤ 1) (t u : ℝ) :
    horner t cs = horner u cs := by
  match cs, h with
  | [], _ => rfl
  | [c], _ => rfl

namespace Taylor

noncomputable def shifted (δ : ℝ) (cs : List ℝ) : List ℝ :=
  if Scalar.epsilon < |δ| then recenter δ cs else cs

variable {δ : ℝ}

lemma shifted_of_far (h : 2⁻¹ ^ 52 < |δ|) : shifted δ = recenter δ :=
  funext fun _ => if_pos h

lemma shifted_of_near (h : ¬2⁻¹ ^ 52 < |δ|) : shifted δ = id :=
  funext fun _ => if_neg h

lemma length_shifted (δ : ℝ) (cs : List ℝ) : (shifted δ cs).length = cs.length := by
  rw [shifted]
  split
  · exact length_recenter δ cs
  · rfl

end Taylor

namespace Polynomial

section Sizes

variable {α : Type} [Scalar α]

structure Sized (f : Polynomial α) (n : ℕ) (axes : List ℕ) (outputs : List (List α)) : Prop where
  order_eq : f.order.int? = some (n : ℤ)
  one_le : 1 ≤ n
  coefficients_eq : f.coefficients = .powers n axes outputs
  length_outputs : outputs.length = NumArray.size axes
  length_eq : ∀ cs ∈ outputs, cs.length = n

lemma exists_shape {c : Value α} {k : ℕ} {a : NumArray α} (hk : length c = .ok k) (h0 : 0 < k)
    (hc : ∀ s, c ≠ .text s) (ha : c.toArray = .ok a) : ∃ axes, a.shape = k :: axes := by
  have hshape : c.shape? = some a.shape := (Value.toArray_eq_ok_iff.1 ha).1
  cases c with
  | text s => exact absurd rfl (hc s)
  | list xs =>
    obtain rfl := Except.ok.inj hk
    cases xs with
    | nil => exact absurd h0 (lt_irrefl 0)
    | cons x xs =>
      rw [Value.shape?, Option.bind_eq_some_iff] at hshape
      obtain ⟨s, -, hs⟩ := hshape
      split at hs
      · exact ⟨s, (Option.some_inj.1 hs).symm⟩
      · cases hs
  | array b =>
    obtain ⟨shape, entries, hl⟩ := b
    replace hshape : shape = a.shape := Option.some_inj.1 hshape
    cases shape with
    | nil => cases hk
    | cons n axes =>
      obtain rfl := Except.ok.inj hk
      exact ⟨axes, hshape.symm⟩
  | record fields => cases ha
  | null | bool | int | real | problem | foreign => cases hk

theorem create_sized {order c center : Value α} {f : Polynomial α}
    (h : create order c center = .ok f) {z : ℤ} (hz : order.int? = some z)
    (hc : ∀ s, c ≠ .text s) : ∃ (n : ℕ) (axes : List ℕ) (outputs : List (List α)), z = n ∧
      f.Sized n axes outputs ∧ f.order = order ∧ f.center = center := by
  have hpos : isPositive order = .ok (decide (0 < z)) := by
    cases order with
    | bool b | int m => rw [isPositive, hz] <;> simp [pure, Except.pure]
    | null | real | text | list | record | array | problem | foreign => cases hz
  rw [create, hpos] at h
  change (if !decide (0 < z) then _ else _) = _ at h
  rw [check_eq_ok_iff, bind_eq_ok_iff] at h
  obtain ⟨h0, k, hk, h⟩ := h
  rw [check_eq_ok_iff, bind_eq_ok_iff] at h
  obtain ⟨hlen, a, ha, h⟩ := h
  obtain rfl := Except.ok.inj h
  have hlength : isLength k order = (order.int? == some (k : ℤ)) := by
    cases order with
    | real => cases hz
    | _ => rfl
  obtain rfl : z = k := by simpa [hlength, hz] using hlen
  have hk0 : 0 < k := by simpa [Nat.pos_iff_ne_zero] using h0
  obtain ⟨axes, hshape⟩ := exists_shape hk hk0 hc ha
  refine ⟨k, axes, _, rfl, ⟨hz, hk0, by rw [Coefficients.ofArray, hshape], ?_, ?_⟩, rfl, rfl⟩
  · simp [Table.columns]
  · intro cs hcs
    obtain ⟨j, -, rfl⟩ := List.mem_map.1 hcs
    simp [Table.column]

variable {f : Polynomial α} {n : ℕ} {axes : List ℕ} {outputs : List (List α)}

lemma derivative_eq (hc : f.coefficients = .powers n axes outputs) {v : Value α} {m : ℕ}
    (hv : v.int? = some (m : ℤ)) :
    f.derivative v = .ok ⟨.int (max (n - m) 1 : ℕ),
      .powers (max (n - m) 1) axes (outputs.map (Taylor.derivative m)), f.center⟩ := by
  have hneg : ¬(m : ℤ) < 0 := by omega
  cases v with
  | real => cases hv
  | _ => simp [Polynomial.derivative, hv, hc, hneg, pure, Except.pure]

lemma length_of_mem_derivatives (hn : 1 ≤ n) (m : ℕ) (hl : ∀ cs ∈ outputs, cs.length = n) :
    ∀ cs ∈ outputs.map (Taylor.derivative m), cs.length = max (n - m) 1 := by
  intro ds hds
  obtain ⟨cs, hcs, rfl⟩ := List.mem_map.1 hds
  exact length_derivative hn m (hl cs hcs)

lemma Sized.derivative (hf : f.Sized n axes outputs) (m : ℕ) :
    Sized ⟨.int (max (n - m) 1 : ℕ),
      .powers (max (n - m) 1) axes (outputs.map (Taylor.derivative m)), f.center⟩
      (max (n - m) 1) axes (outputs.map (Taylor.derivative m)) where
  order_eq := rfl
  one_le := le_max_right _ _
  coefficients_eq := rfl
  length_outputs := by rw [List.length_map, hf.length_outputs]
  length_eq := length_of_mem_derivatives hf.one_le m hf.length_eq

end Sizes

section Reals

variable {f : Polynomial ℝ} {n : ℕ} {axes : List ℕ} {outputs : List (List ℝ)} {z : ℤ} {a : ℝ}

lemma evaluate_eq (ho : f.order.int? = some z) (hc : f.coefficients = .powers n axes outputs)
    (hl : ∀ cs ∈ outputs, cs.length = n) (ha : f.center.toNumber = .ok a) {x : Value ℝ} {t : ℝ}
    (hx : x.toNumber = .ok t) :
    f.evaluate x = .ok (.shaped axes (outputs.map fun cs => (series cs).eval (t - a))) := by
  obtain ⟨d, hd, hdt⟩ := Value.exists_sub hx ha
  have he : f.evaluate x =
      .ok (.shaped axes (outputs.map (horner (if n ≤ 1 then 0 else t - a)))) := by
    rw [evaluate, hd, ho, hc]
    dsimp only [bind, Except.bind]
    split
    · rfl
    · rw [hdt]
      rfl
  rw [he]
  congr 2
  refine List.map_congr_left fun cs hcs => ?_
  rw [← horner_eq]
  split
  · next h => exact horner_of_length_le_one ((hl cs hcs).trans_le h) _ _
  · rfl

lemma shift_eq (ho : f.order.int? = some z) (hc : f.coefficients = .powers n axes outputs)
    (ha : f.center.toNumber = .ok a) {v : Value ℝ} {b : ℝ} (hv : v.toNumber = .ok b) :
    f.shift v = .ok { f with
      coefficients := .powers n axes (outputs.map (Taylor.shifted (b - a)))
      center := v } := by
  obtain ⟨d, hd, hdb⟩ := Value.exists_sub hv ha
  rw [shift, hd]
  dsimp only [bind, Except.bind]
  rw [hdb]
  dsimp only [Reals.epsilon_eq, Reals.abs_eq]
  split
  · next h =>
    rw [ho, hc, Taylor.shifted_of_far h]
    rfl
  · next h =>
    rw [Taylor.shifted_of_near h, List.map_id, ← hc]
    rfl

lemma Sized.shift (hf : f.Sized n axes outputs) (δ : ℝ) (v : Value ℝ) :
    Sized { f with coefficients := .powers n axes (outputs.map (Taylor.shifted δ)), center := v }
      n axes (outputs.map (Taylor.shifted δ)) where
  order_eq := hf.order_eq
  one_le := hf.one_le
  coefficients_eq := rfl
  length_outputs := by rw [List.length_map, hf.length_outputs]
  length_eq := by
    intro ds hds
    obtain ⟨cs, hcs, rfl⟩ := List.mem_map.1 hds
    rw [Taylor.length_shifted, hf.length_eq cs hcs]

end Reals

noncomputable def parabolas : Polynomial ℝ :=
  ⟨.int 3, .powers 3 [2] [[1, 0, 1], [0, -1, 1]], .int 1⟩

lemma create_parabolas : create (.int 3) (.list [.list [.real 1, .real 0],
    .list [.real 0, .real (-1)], .list [.real 1, .real 1]]) (.int 1) = .ok parabolas := rfl

lemma sized_parabolas : parabolas.Sized 3 [2] [[1, 0, 1], [0, -1, 1]] where
  order_eq := rfl
  one_le := by decide
  coefficients_eq := rfl
  length_outputs := rfl
  length_eq := by simp

lemma center_parabolas : parabolas.center.toNumber = .ok 1 := by
  simp [parabolas, Value.toNumber, Value.ofInt, pure, Except.pure]

end Polynomial

lemma evaluate_iterate_derivative {f : Polynomial ℝ} {n : ℕ} {axes : List ℕ}
    {outputs : List (List ℝ)} {a : ℝ} (hn : 1 ≤ n)
    (hc : f.coefficients = .powers n axes outputs) (hl : ∀ cs ∈ outputs, cs.length = n)
    (ha : f.center.toNumber = .ok a) {u x : Value ℝ} {k : ℕ} (hu : u.int? = some (k : ℤ)) {t : ℝ}
    (hx : x.toNumber = .ok t) :
    (f.derivative u >>= (·.evaluate x)) =
      .ok (.shaped axes (outputs.map fun cs => (derivative^[k] (series cs)).eval (t - a))) := by
  rw [Polynomial.derivative_eq hc hu]
  have hlengths := Polynomial.length_of_mem_derivatives hn k hl
  refine (Polynomial.evaluate_eq (f := ⟨_, _, f.center⟩) rfl rfl hlengths ha hx).trans ?_
  simp only [List.map_map, Function.comp_def, series_derivative]

end KnotSpline
