import KnotSpline.Proofs.Lifecycle

/-! Systems and solutions are written once. What a fit finds depends on the system alone, and the
system no longer changes once there is a solution. So a problem keeps both, whatever is done to its
tolerance and to its row index, and however often it is fitted again. -/

namespace KnotSpline

variable {α : Type} [Scalar α]

namespace Problem

variable {p q : Problem α}

/-- A solution that stands beside a system is the one that a fit finds for that system. -/
def SolvesSystem (p : Problem α) : Prop :=
  ∀ system x, p.phase = .fitted system x → x = p.solved system

lemma New.solvesSystem (h : p.New) : p.SolvesSystem := by
  intro system x hx
  cases h with
  | create h =>
    obtain ⟨-, -, hp⟩ := create_cases h
    cases hp.symm.trans hx
  | ofRecord h =>
    obtain ⟨-, -, y, hp⟩ := ofRecord_cases h
    cases hp.symm.trans hx

lemma SolvesSystem.apply (hp : p.SolvesSystem) {a : Action α} (h : a.apply p = .ok q) :
    q.SolvesSystem := by
  cases a with
  | constrain r =>
    obtain ⟨system, system', n, -, -, -, rfl⟩ := constrain_cases h
    intro s x hx
    cases hx
  | fit =>
    obtain ⟨-, system, -, rfl⟩ := eq_of_fit_eq_ok h
    intro s x hx
    cases hx
    rfl
  | setTolerance tolerance =>
    obtain rfl := Except.ok.inj h
    exact hp
  | setRowIndex rowIndex =>
    obtain rfl := Except.ok.inj h
    exact hp
  | setMetadata name v =>
    obtain rfl := Except.ok.inj h
    exact hp

lemma SolvesSystem.phase_eq (hp : p.SolvesSystem) (hf : p.isFitted = true) {a : Action α}
    (h : a.apply p = .ok q) : q.phase = p.phase := by
  cases a with
  | constrain r =>
    obtain ⟨system, system', n, hs, -, -, rfl⟩ := constrain_cases h
    simp [isFitted, Phase.solution?, hs] at hf
  | fit =>
    obtain ⟨-, system, hs, rfl⟩ := eq_of_fit_eq_ok h
    cases hq : p.phase with
    | building s => simp [isFitted, Phase.solution?, hq] at hf
    | fitted s x =>
      rw [hq] at hs
      obtain rfl := Option.some_inj.1 hs
      rw [hp s x hq]
    | loaded x =>
      rw [hq] at hs
      cases hs
  | setTolerance tolerance =>
    obtain rfl := Except.ok.inj h
    rfl
  | setRowIndex rowIndex =>
    obtain rfl := Except.ok.inj h
    rfl
  | setMetadata name v =>
    obtain rfl := Except.ok.inj h
    rfl

theorem solvesSystem_of_mem_run {ops : List (Operation α)}
    (h : p ∈ (Store.empty.run ops).problems) : p.SolvesSystem :=
  Store.forall_problems_run (fun _ hp => hp.solvesSystem) (fun _ _ _ _ _ hp hq => hp.apply hq)
    (fun _ hp => by cases hp) p h

end Problem

namespace Store

variable {s : Store α} {id : ℕ} {p : Problem α}

lemma phase_after (hp : s.problems[id]? = some p) (hs : p.SolvesSystem) (hf : p.isFitted = true)
    (op : Operation α) :
    ∃ q, (s.after op).problems[id]? = some q ∧ q.SolvesSystem ∧ q.phase = p.phase := by
  obtain ⟨q, hq, rfl | ⟨a, -, ha⟩⟩ := problem_after hp op
  · exact ⟨q, hq, hs, rfl⟩
  · exact ⟨q, hq, hs.apply ha, hs.phase_eq hf ha⟩

theorem phase_run (hp : s.problems[id]? = some p) (hs : p.SolvesSystem) (hf : p.isFitted = true)
    (ops : List (Operation α)) :
    ∃ q, (s.run ops).problems[id]? = some q ∧ q.SolvesSystem ∧ q.phase = p.phase := by
  induction ops generalizing s p with
  | nil => exact ⟨p, hp, hs, rfl⟩
  | cons op ops ih =>
    obtain ⟨q, hq, hqs, hpq⟩ := phase_after hp hs hf op
    obtain ⟨q', hq', hqs', hqq⟩ := ih hq hqs (by rwa [Problem.isFitted, hpq])
    exact ⟨q', hq', hqs', hqq.trans hpq⟩

lemma problem_after_fit (hp : s.problems[id]? = some p) :
    (∃ e, (Session.fit id).perform s = (.error e, s.after (.act id .fit)) ∧
      (s.after (.act id .fit)).problems[id]? = some p) ∨
    ∃ q, (Session.fit id).perform s = (.ok (), s.after (.act id .fit)) ∧ p.fit = .ok q ∧
      (s.after (.act id .fit)).problems[id]? = some q := by
  have hlt := (List.getElem?_eq_some_iff.1 hp).1
  have hafter : s.after (.act id .fit) = ((Session.fit id).perform s).2 := rfl
  have hfit := Session.perform_fit hp
  rw [hafter, hfit]
  cases hq : p.fit with
  | error e =>
    refine .inl ⟨e, rfl, ?_⟩
    rwa [problems_announce]
  | ok q =>
    refine .inr ⟨q, rfl, rfl, ?_⟩
    rw [problems_setProblem, problems_announce, List.getElem?_set_self hlt]

end Store

namespace Problem

/-- From the moment at which a problem has a solution, its phase, that is its system and its
solution, stays the same through every run of operations. A further fit either fails and leaves the
whole problem as it is, or returns with that same phase. -/
theorem written_once {ops : List (Operation α)} {id : ℕ} {p : Problem α}
    (hp : (Store.empty.run ops).problems[id]? = some p) (hf : p.isFitted = true)
    (ops' : List (Operation α)) :
    ∃ s q q', s = Store.empty.run (ops ++ ops') ∧ s.problems[id]? = some q ∧
      (s.after (.act id .fit)).problems[id]? = some q' ∧
      q.phase = p.phase ∧ q'.phase = p.phase ∧
      ((∃ e, (Session.fit id).perform s = (.error e, s.after (.act id .fit)) ∧ q' = q) ∨
        ((Session.fit id).perform s = (.ok (), s.after (.act id .fit)) ∧ q.fit = .ok q')) := by
  have hs := solvesSystem_of_mem_run (List.mem_of_getElem? hp)
  obtain ⟨q, hq, hqs, hpq⟩ := Store.phase_run hp hs hf ops'
  have hrun : (Store.empty.run ops).run ops' = Store.empty.run (ops ++ ops') :=
    List.foldl_append.symm
  rw [hrun] at hq
  have hqf : q.isFitted = true := by rwa [isFitted, hpq]
  rcases Store.problem_after_fit hq with ⟨e, he, hq'⟩ | ⟨q', hok, hfit, hq'⟩
  · exact ⟨_, q, q, rfl, hq, hq', hpq, hpq, .inl ⟨e, he, rfl⟩⟩
  · have hphase : q'.phase = q.phase := hqs.phase_eq (a := .fit) hqf hfit
    exact ⟨_, q, q', rfl, hq, hq', hpq, hphase.trans hpq, .inr ⟨hok, hfit⟩⟩

def fitConstant : List (Operation Float) :=
  [.create (.list [.real 0, .real 1]) (.int 1) (.int 1) (.record []) false,
    .act 0 (.constrain (.constant (.int 0) (.int 0) (.real 3))), .act 0 .fit]

def refitConstant : List (Operation Float) :=
  [.act 0 (.setTolerance (.real 7)), .act 0 .fit, .act 0 (.setRowIndex (-5)), .act 0 .fit,
    .act 0 (.setTolerance .null), .act 0 (.setRowIndex 1)]

theorem written_once_of_constant : ∃ p q q' : Problem Float,
    (Store.empty.run fitConstant).problems[0]? = some p ∧ p.isFitted = true ∧
    (Store.empty.run (fitConstant ++ refitConstant)).problems[0]? = some q ∧ q.phase = p.phase ∧
    ((Store.empty.run (fitConstant ++ refitConstant)).after (.act 0 .fit)).problems[0]? =
      some q' ∧ q'.phase = p.phase := by
  have hs : (Store.empty.run fitConstant).problems[0]?.any isFitted = true := by
    decide +kernel
  obtain ⟨p, hp, hf⟩ := (Option.any_eq_true _ _).1 hs
  obtain ⟨s, q, q', hrun, hq, hq', hphase, hphase', -⟩ := written_once hp hf refitConstant
  rw [hrun] at hq hq'
  exact ⟨p, q, q', hp, hf, hq, hphase, hq', hphase'⟩

end Problem

end KnotSpline
