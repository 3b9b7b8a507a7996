import KnotSpline.Proofs.Checks

/-! Chains of checks that end in a fault, which is that of the first check that is not passed. -/

namespace KnotSpline

variable {ε β γ : Type}

/-- The fault is that of the first exit that is open. An exit is given by the faults that it ends
in; it is closed if there are none. -/
inductive FirstOf : List (ε → Prop) → ε → Prop
  | here {exit : ε → Prop} {exits : List (ε → Prop)} {e : ε} (h : exit e) :
    FirstOf (exit :: exits) e
  | later {exit : ε → Prop} {exits : List (ε → Prop)} {e : ε} (closed : ∀ e', ¬exit e')
    (h : FirstOf exits e) : FirstOf (exit :: exits) e

def When (p : Prop) (e : ε) : ε → Prop :=
  fun e' => p ∧ e' = e

namespace FirstOf

variable {exit : ε → Prop} {exits exits' : List (ε → Prop)} {e : ε}

lemma not_nil : ¬FirstOf [] e := by
  rintro ⟨⟩

lemma cons_iff : FirstOf (exit :: exits) e ↔ exit e ∨ (∀ e', ¬exit e') ∧ FirstOf exits e := by
  constructor
  · rintro (h | ⟨closed, h⟩)
    · exact .inl h
    · exact .inr ⟨closed, h⟩
  · rintro (h | ⟨closed, h⟩)
    · exact .here h
    · exact .later closed h

lemma append_iff : FirstOf (exits ++ exits') e ↔
    FirstOf exits e ∨ (∀ e', ¬FirstOf exits e') ∧ FirstOf exits' e := by
  induction exits with
  | nil => simp [not_nil]
  | cons exit exits ih =>
    simp only [List.cons_append, cons_iff, ih, not_or, not_and, forall_and]
    constructor
    · rintro (h | ⟨hc, h | ⟨hn, h⟩⟩)
      · exact .inl (.inl h)
      · exact .inl (.inr ⟨hc, h⟩)
      · exact .inr ⟨⟨hc, fun e' _ => hn e'⟩, h⟩
    · rintro ((h | ⟨hc, h⟩) | ⟨⟨hc, hn⟩, h⟩)
      · exact .inl h
      · exact .inr ⟨hc, .inl h⟩
      · exact .inr ⟨hc, .inr ⟨fun e' => hn e' hc, h⟩⟩

end FirstOf

/-- The computation ends in a fault exactly if an exit is open, and then in the first one. -/
def ExitsBy (x : Except ε β) (exits : List (ε → Prop)) : Prop :=
  ∀ e, x = .error e ↔ FirstOf exits e

namespace ExitsBy

variable {x : Except ε β} {f : β → Except ε γ} {exit : ε → Prop} {exits exits' : List (ε → Prop)}

lemma pure (b : β) : ExitsBy (pure b : Except ε β) [] :=
  fun _ => iff_of_false (fun h => by cases h) FirstOf.not_nil

lemma append (hx : ExitsBy x exits) (hf : ∀ b, x = .ok b → ExitsBy (f b) exits') :
    ExitsBy (x >>= f) (exits ++ exits') := by
  intro e
  rw [FirstOf.append_iff, ← hx e]
  cases x with
  | error e' =>
    refine ⟨fun h => .inl (congrArg Except.error (Except.error.inj h)), ?_⟩
    rintro (h | ⟨h, -⟩)
    · exact congrArg Except.error (Except.error.inj h)
    · exact absurd ((hx e').1 rfl) (h e')
  | ok b =>
    have hclosed : ∀ e', ¬FirstOf exits e' := fun e' h => by cases (hx e').2 h
    have hb : (Except.ok b >>= f) = f b := rfl
    rw [hb, hf b rfl e]
    exact ⟨fun h => .inr ⟨hclosed, h⟩, fun h => (h.resolve_left fun h => by cases h).2⟩

lemma cons (hx : ∀ e, x = .error e ↔ exit e) (hf : ∀ b, x = .ok b → ExitsBy (f b) exits) :
    ExitsBy (x >>= f) (exit :: exits) := by
  have hone : ExitsBy x [exit] := by
    intro e
    rw [hx, FirstOf.cons_iff]
    exact ⟨.inl, fun h => h.resolve_right fun h => FirstOf.not_nil h.2⟩
  exact hone.append hf

lemma throw (e : ε) : ExitsBy (throw e : Except ε β) (When True e :: exits) := by
  intro e'
  rw [FirstOf.cons_iff]
  refine ⟨fun h => .inl ⟨trivial, (Except.error.inj h).symm⟩, ?_⟩
  rintro (⟨-, rfl⟩ | ⟨hc, -⟩)
  · rfl
  · exact absurd ⟨trivial, rfl⟩ (hc e)

lemma skip (hc : ∀ e, ¬exit e) (hx : ExitsBy x exits) : ExitsBy x (exit :: exits) := by
  intro e
  rw [hx e, FirstOf.cons_iff]
  exact ⟨fun h => .inr ⟨hc, h⟩, fun h => (h.resolve_left (hc e)).2⟩

lemma check_iff {p q : Prop} [Decidable p] {e : ε} {f : Unit → Except ε γ} (h : p ↔ q)
    (hf : ¬q → ExitsBy (f ()) exits) :
    ExitsBy (if p then (MonadExcept.throw e >>= f) else f ()) (When q e :: exits) := by
  by_cases hq : q
  · rw [if_pos (h.2 hq), eq_true hq]
    exact throw e
  · rw [if_neg (mt h.1 hq)]
    exact skip (fun _ he => hq he.1) (hf hq)

lemma check {p : Prop} [Decidable p] {e : ε} {f : Unit → Except ε γ}
    (hf : ¬p → ExitsBy (f ()) exits) :
    ExitsBy (if p then (MonadExcept.throw e >>= f) else f ()) (When p e :: exits) :=
  check_iff Iff.rfl hf

end ExitsBy

end KnotSpline
