import KnotSpline.Proofs.Visits
import Mathlib.Logic.Relation

/-! Problems refer to one another through their metadata. A problem can be written, if there is room
enough, exactly if every problem that it leads to is fitted, holds nothing that cannot be written,
and does not lead back to itself. -/

namespace KnotSpline

open Relation

variable {α : Type}

/-- The metadata of the first problem holds the second one. -/
def Store.RefersTo (s : Store α) (a b : ℕ) : Prop :=
  ∃ p, s.problem? a = some p ∧ (Value.record p.metadata).Holds (.problem b)

structure Problem.Writable (p : Problem α) : Prop where
  fitted : p.isFitted = true
  not_foreign : ¬(Value.record p.metadata).Holds .foreign
  isShort : ∀ z, (Value.record p.metadata).Holds (.int z) → Json.isShort z = true

/-- All problems that one leads to can be written, and none of them leads back to itself. -/
structure Store.Writable (s : Store α) (id : ℕ) : Prop where
  problem : ∀ a, ReflTransGen s.RefersTo id a → ∃ p, s.problem? a = some p ∧ p.Writable
  acyclic : ∀ a, ReflTransGen s.RefersTo id a → ¬TransGen s.RefersTo a a

namespace Visit

variable {s : Store α} {id : ℕ} {u v w : Visit α}

lemma reaches_of_holds {x y : Value α} (h : x.Holds y) (around : List ℕ) (depth : ℕ) :
    ∃ depth', Reaches s ⟨around, depth, x⟩ ⟨around, depth', y⟩ := by
  induction h with
  | self => exact ⟨depth, .refl _⟩
  | item _ hx ih =>
    obtain ⟨_, h⟩ := ih
    exact ⟨_, h.inner (mem_inner_list rfl hx)⟩
  | key _ hf ih =>
    obtain ⟨_, h⟩ := ih
    exact ⟨_, h.inner (mem_inner_record rfl hf).1⟩
  | content _ hf ih =>
    obtain ⟨_, h⟩ := ih
    exact ⟨_, h.inner (mem_inner_record rfl hf).2⟩
  | entries _ ih =>
    obtain ⟨_, h⟩ := ih
    exact ⟨_, h.inner (mem_inner_array rfl)⟩

end Visit

namespace Problem

variable {p : Problem α} {x : Solution α} {y : Value α}

inductive Recorded (p : Problem α) (x : Solution α) : Value α → Prop
  | whole : Recorded p x (.record (p.recordOf x))
  | name (name : String) : Recorded p x (.text name)
  | times : Recorded p x (.array (.vector p.times))
  | solution : Recorded p x (.array (p.solutionArray x))
  | entries {y : Value α} (h : y.OfReals fun c => c ∈ p.times ∨ c ∈ x.flatten.flatten) :
    Recorded p x y
  | coefficientCount : Recorded p x (.int p.coefficientCount)
  | outputCount : Recorded p x (.int p.outputCount)
  | metadata {y : Value α} (h : (Value.record p.metadata).Holds y) : Recorded p x y

lemma recorded_of_mem {f : Key α × Value α} (hf : f ∈ p.recordOf x) :
    (∃ name : String, .ofKey f.1 = (.text name : Value α)) ∧ p.Recorded x f.2 := by
  simp only [recordOf, List.mem_cons, List.not_mem_nil, or_false] at hf
  rcases hf with rfl | rfl | rfl | rfl | rfl | rfl
  · exact ⟨⟨_, rfl⟩, .name _⟩
  · exact ⟨⟨_, rfl⟩, .times⟩
  · exact ⟨⟨_, rfl⟩, .coefficientCount⟩
  · exact ⟨⟨_, rfl⟩, .outputCount⟩
  · exact ⟨⟨_, rfl⟩, .solution⟩
  · exact ⟨⟨_, rfl⟩, .metadata .self⟩

lemma recorded_of_holds (h : (Value.record (p.recordOf x)).Holds y) : p.Recorded x y := by
  induction h with
  | self => exact .whole
  | item _ hx ih =>
    cases ih with
    | entries h =>
      cases h with
      | list hxs => exact .entries (hxs _ hx)
    | metadata h => exact .metadata (.item h hx)
  | key _ hf ih =>
    cases ih with
    | whole =>
      obtain ⟨⟨name, hname⟩, -⟩ := recorded_of_mem hf
      exact hname ▸ .name name
    | entries h => cases h
    | metadata h => exact .metadata (.key h hf)
  | content _ hf ih =>
    cases ih with
    | whole => exact (recorded_of_mem hf).2
    | entries h => cases h
    | metadata h => exact .metadata (.content h hf)
  | entries _ ih =>
    cases ih with
    | times => exact .entries (Value.ofReals_nest _ fun c hc => .inl hc)
    | solution =>
      exact .entries (Value.ofReals_nest _ fun c hc => .inr (p.entries_solutionArray x ▸ hc))
    | entries h => cases h
    | metadata h => exact .metadata (.entries h)

lemma holds_of_toRecord {r : Record α} {b : ℕ} (hr : p.toRecord = .ok r)
    (h : (Value.record r).Holds (.problem b)) : (Value.record p.metadata).Holds (.problem b) := by
  obtain ⟨x, -, rfl⟩ := toRecord_eq_ok_iff.1 hr
  cases recorded_of_holds h with
  | entries h => cases h
  | metadata h => exact h

end Problem

namespace Visit

variable {s : Store α} {id : ℕ} {u v w : Visit α}

lemma exists_reaches_of_holds {a : ℕ} {p : Problem α} {y : Value α} (hv : v.value = .problem a)
    (hp : s.problem? a = some p) (hfitted : p.isFitted = true)
    (h : (Value.record p.metadata).Holds y) :
    ∃ w, v.Reaches s w ∧ w.value = y ∧ w.around = a :: v.around := by
  obtain ⟨x, hx⟩ := Problem.isFitted_eq_true_iff.1 hfitted
  have hrecord : v.Reaches s ⟨a :: v.around, v.depth + 2, .record (p.recordOf x)⟩ :=
    (Reaches.refl v).inner (mem_inner_problem hv hp (Problem.toRecord_eq hx))
  have hheld : (Value.record (p.recordOf x)).Holds y :=
    h.trans (.content .self (p.metadata_mem_recordOf x))
  obtain ⟨depth, hin⟩ := reaches_of_holds hheld (a :: v.around) (v.depth + 2)
  exact ⟨_, hrecord.trans hin, rfl, rfl⟩

lemma Flawless.exists_problem {a : ℕ} (h : v.Flawless s) (hw : v.Reaches s w)
    (hvalue : w.value = .problem a) :
    a ∉ w.around ∧ ∃ p, s.problem? a = some p ∧ p.isFitted = true := by
  have hflaw := h w hw
  rwa [hvalue, Value.flaw?_problem_eq_none_iff] at hflaw

lemma Flawless.exists_reaches_of_refersTo {a b : ℕ} (h : v.Flawless s) (hw : v.Reaches s w)
    (hvalue : w.value = .problem a) (hab : s.RefersTo a b) :
    ∃ u, v.Reaches s u ∧ u.value = .problem b ∧ u.around = a :: w.around := by
  obtain ⟨p, hp, hholds⟩ := hab
  obtain ⟨-, q, hq, hfitted⟩ := h.exists_problem hw hvalue
  obtain rfl := Option.some_inj.1 (hp.symm.trans hq)
  obtain ⟨u, hu, hproblem, haround⟩ := exists_reaches_of_holds hvalue hp hfitted hholds
  exact ⟨u, hw.trans hu, hproblem, haround⟩

lemma Flawless.exists_reaches {a b : ℕ} (h : v.Flawless s) (hw : v.Reaches s w)
    (hvalue : w.value = .problem a) (hab : ReflTransGen s.RefersTo a b) :
    ∃ u, v.Reaches s u ∧ u.value = .problem b ∧ w.around ⊆ u.around := by
  induction hab with
  | refl => exact ⟨w, hw, hvalue, List.Subset.refl _⟩
  | tail _ hstep ih =>
    obtain ⟨u, hu, hproblem, hsubset⟩ := ih
    obtain ⟨u', hu', hproblem', haround⟩ := h.exists_reaches_of_refersTo hu hproblem hstep
    refine ⟨u', hu', hproblem', ?_⟩
    rw [haround]
    exact List.subset_cons_of_subset _ hsubset

/-- What is met from a problem on: it stands in the problems that led to it, the last of which
holds it. -/
def Sound (s : Store α) (id : ℕ) (v : Visit α) : Prop :=
  match v.around with
  | [] => v.value = .problem id
  | a :: around =>
    ReflTransGen s.RefersTo id a ∧ (∀ c ∈ around, TransGen s.RefersTo c a) ∧
      ∃ p r, s.problem? a = some p ∧ p.toRecord = .ok r ∧ (Value.record r).Holds v.value

lemma Sound.leads {b : ℕ} (h : v.Sound s id) (hv : v.value = .problem b) :
    ReflTransGen s.RefersTo id b ∧ ∀ a ∈ v.around, TransGen s.RefersTo a b := by
  obtain ⟨around, depth, value⟩ := v
  obtain rfl : value = .problem b := hv
  cases around with
  | nil =>
    obtain rfl := Value.problem.inj h
    exact ⟨.refl, List.forall_mem_nil _⟩
  | cons a around =>
    obtain ⟨ha, haround, p, r, hp, hr, hholds⟩ := h
    have hstep : s.RefersTo a b := ⟨p, hp, Problem.holds_of_toRecord hr hholds⟩
    exact ⟨ha.tail hstep,
      List.forall_mem_cons.2 ⟨.single hstep, fun c hc => (haround c hc).tail hstep⟩⟩

lemma of_mem_inner (hv : ∀ b, v.value ≠ .problem b) (hw : w ∈ v.inner s) :
    w.around = v.around ∧ v.value.Holds w.value ∧ ∀ (t : Store α) (around : List ℕ),
      ⟨around, w.depth, w.value⟩ ∈ inner t ⟨around, v.depth, v.value⟩ := by
  obtain ⟨around, depth, value⟩ := v
  cases value with
  | list xs =>
    obtain ⟨x, hx, rfl⟩ := List.mem_map.1 hw
    exact ⟨rfl, .item .self hx, fun _ _ => mem_inner_list rfl hx⟩
  | record fields =>
    obtain ⟨f, hf, hw⟩ := List.mem_flatMap.1 hw
    rcases List.mem_pair.1 hw with rfl | rfl
    · exact ⟨rfl, .key .self hf, fun _ _ => (mem_inner_record rfl hf).1⟩
    · exact ⟨rfl, .content .self hf, fun _ _ => (mem_inner_record rfl hf).2⟩
  | array a =>
    obtain rfl := List.mem_singleton.1 hw
    exact ⟨rfl, .entries .self, fun _ _ => mem_inner_array rfl⟩
  | problem b => exact absurd rfl (hv b)
  | null | bool | int | real | text | foreign => exact absurd hw List.not_mem_nil

lemma Sound.inner (h : v.Sound s id) (hw : w ∈ v.inner s) : w.Sound s id := by
  by_cases hproblem : ∃ b, v.value = .problem b
  · obtain ⟨b, hb⟩ := hproblem
    obtain ⟨hleads, haround⟩ := h.leads hb
    obtain ⟨p, r, hp, hr, rfl⟩ := exists_of_mem_inner hb hw
    exact ⟨hleads, haround, p, r, hp, hr, .self⟩
  · have hv (b : ℕ) (hb : v.value = .problem b) : False := hproblem ⟨b, hb⟩
    obtain ⟨haround, hin, -⟩ := of_mem_inner hv hw
    rw [Sound] at h ⊢
    rw [haround]
    cases haround' : v.around with
    | nil =>
      rw [haround'] at h
      exact absurd h (hv id)
    | cons a around =>
      rw [haround'] at h
      obtain ⟨ha, hround, p, r, hp, hr, hholds⟩ := h
      exact ⟨ha, hround, p, r, hp, hr, hin.trans hholds⟩

lemma sound_of_reaches (h : (root id).Reaches s v) : v.Sound s id :=
  h.induction rfl fun _ hu _ hw => hu.inner hw

lemma Flawless.writable (h : (root id : Visit α).Flawless s) : s.Writable id := by
  refine ⟨fun a ha => ?_, fun a ha hcycle => ?_⟩
  · obtain ⟨w, hw, hvalue, -⟩ := h.exists_reaches (.refl _) rfl ha
    obtain ⟨-, p, hp, hfitted⟩ := h.exists_problem hw hvalue
    have hflaw {y : Value α} (hy : (Value.record p.metadata).Holds y) :
        ∃ around, y.flaw? s around = none := by
      obtain ⟨u, hu, rfl, -⟩ := exists_reaches_of_holds hvalue hp hfitted hy
      exact ⟨u.around, h u (hw.trans hu)⟩
    refine ⟨p, hp, hfitted, fun hforeign => ?_, fun z hz => ?_⟩
    · obtain ⟨around, hnone⟩ := hflaw hforeign
      nomatch hnone
    · obtain ⟨around, hnone⟩ := hflaw hz
      exact Value.flaw?_int_eq_none_iff.1 hnone
  · obtain ⟨w, hw, hvalue, -⟩ := h.exists_reaches (.refl _) rfl ha
    -- What a problem that leads to itself refers to leads to it again, inside of it.
    obtain ⟨b, hab, hba⟩ := TransGen.head'_iff.1 hcycle
    obtain ⟨u, hu, hproblem, haround⟩ := h.exists_reaches_of_refersTo hw hvalue hab
    obtain ⟨u', hu', hproblem', hsubset⟩ := h.exists_reaches hu hproblem hba
    refine (h.exists_problem hu' hproblem').1 (hsubset ?_)
    rw [haround]
    exact List.mem_cons_self

lemma Sound.exists_holds (h : v.Sound s id) (hv : ∀ b, v.value ≠ .problem b) :
    ∃ a p x, ReflTransGen s.RefersTo id a ∧ s.problem? a = some p ∧ p.phase.solution? = some x ∧
      (Value.record (p.recordOf x)).Holds v.value := by
  obtain ⟨around, depth, value⟩ := v
  cases around with
  | nil => exact absurd h (hv id)
  | cons a around =>
    obtain ⟨ha, -, p, r, hp, hr, hholds⟩ := h
    obtain ⟨x, hx, rfl⟩ := Problem.toRecord_eq_ok_iff.1 hr
    exact ⟨a, p, x, ha, hp, hx, hholds⟩

lemma Sound.exists_writable (h : v.Sound s id) (hw : s.Writable id)
    (hv : ∀ b, v.value ≠ .problem b) :
    ∃ p x, p ∈ s.problems ∧ p.Writable ∧ (Value.record (p.recordOf x)).Holds v.value := by
  obtain ⟨a, p, x, ha, hp, -, hholds⟩ := h.exists_holds hv
  obtain ⟨q, hq, hwritable⟩ := hw.problem a ha
  obtain rfl := Option.some_inj.1 (hp.symm.trans hq)
  exact ⟨p, x, List.mem_of_getElem? (s.problem?_eq a ▸ hp), hwritable, hholds⟩

lemma flawless_of_writable [Scalar α] (hs : ∀ p ∈ s.problems, p.Sized) (h : s.Writable id) :
    (root id : Visit α).Flawless s := by
  intro v hv
  have hsound := sound_of_reaches hv
  cases hvalue : v.value with
  | problem b =>
    obtain ⟨hb, haround⟩ := hsound.leads hvalue
    obtain ⟨p, hp, hw⟩ := h.problem b hb
    exact Value.flaw?_problem_eq_none_iff.2
      ⟨fun hmem => h.acyclic b hb (haround b hmem), p, hp, hw.fitted⟩
  | int z =>
    rw [Value.flaw?_int_eq_none_iff]
    obtain ⟨p, x, hp, hw, hholds⟩ := hsound.exists_writable h (hvalue ▸ nofun)
    rw [hvalue] at hholds
    cases Problem.recorded_of_holds hholds with
    | coefficientCount => exact (hs p hp).isShort.1
    | outputCount => exact (hs p hp).isShort.2
    | entries h => cases h
    | metadata h => exact hw.isShort z h
  | foreign =>
    obtain ⟨p, x, -, hw, hholds⟩ := hsound.exists_writable h (hvalue ▸ nofun)
    rw [hvalue] at hholds
    cases Problem.recorded_of_holds hholds with
    | entries h => cases h
    | metadata h => exact absurd h hw.not_foreign
  | null | bool | real | text | list | record | array => rfl

theorem flawless_root_iff [Scalar α] (hs : ∀ p ∈ s.problems, p.Sized) :
    (root id : Visit α).Flawless s ↔ s.Writable id :=
  ⟨Flawless.writable, flawless_of_writable hs⟩

section Alone

variable {t : Store α} {around around' : List ℕ} {x : Value α}

lemma within_iff : v.Within s ↔
    v.depth + s.host.stack.calls (v.value.kind v.around) ≤ s.host.stack.room ∧
      ∀ w ∈ v.inner s, w.Within s := by
  refine ⟨fun h => ⟨h v (.refl v), fun w hw u hu => h u (((Reaches.refl v).inner hw).trans hu)⟩,
    fun ⟨hv, hinner⟩ w ⟨place, hw⟩ => ?_⟩
  cases place with
  | nil => exact Option.some_inj.1 hw ▸ hv
  | cons i place =>
    obtain ⟨u, hu, hw⟩ := Option.bind_eq_some_iff.1 hw
    exact hinner u (List.mem_of_getElem? hu) w ⟨place, hw⟩

lemma kind_elsewhere (hx : ∀ id, x ≠ .problem id) (around around' : List ℕ) :
    x.kind around = x.kind around' := by
  cases x with
  | problem id => exact absurd rfl (hx id)
  | list xs => cases xs <;> rfl
  | record fields => cases fields <;> rfl
  | null | bool | int | real | text | array | foreign => rfl

lemma within_elsewhere (hx : ∀ id, ¬x.Holds (.problem id)) (hhost : t.host = s.host) {depth : ℕ}
    (h : Within s ⟨around, depth, x⟩) : Within t ⟨around', depth, x⟩ := by
  intro w hw
  have hsame := hw.induction (P := fun u => u.around = around' ∧ x.Holds u.value ∧
      Reaches s ⟨around, depth, x⟩ ⟨around, u.depth, u.value⟩)
    ⟨rfl, .self, .refl _⟩ fun u ⟨haround, hholds, hreaches⟩ u' hu' => by
      obtain ⟨haround', hin, hthere⟩ := of_mem_inner (fun id hid => hx id (hid ▸ hholds)) hu'
      exact ⟨haround'.trans haround, hin.trans hholds, hreaches.inner (hthere s around)⟩
  obtain ⟨haround, hholds, hreaches⟩ := hsame
  rw [haround, hhost, kind_elsewhere (fun id hid => hx id (hid ▸ hholds)) around' around]
  exact h _ hreaches

theorem within_root_of_toRecord {a b : ℕ} {p q : Problem α} {r : Record α}
    (hp : s.problem? a = some p) (hpr : p.toRecord = .ok r) (hq : t.problem? b = some q)
    (hqr : q.toRecord = .ok r) (hr : ∀ id, ¬(Value.record r).Holds (.problem id))
    (hhost : t.host = s.host) (h : (root a).Within s) : (root b).Within t := by
  rw [within_iff, inner_problem rfl hp hpr] at h
  rw [within_iff, inner_problem rfl hq hqr, hhost]
  obtain ⟨hroom, hinner⟩ := h
  refine ⟨hroom, fun w hw => ?_⟩
  obtain rfl := List.mem_singleton.1 hw
  exact within_elsewhere hr hhost (hinner _ (List.mem_singleton_self _))

end Alone

end Visit

end KnotSpline
