import KnotSpline.Proofs.Checks
import KnotSpline.Store.File
import Mathlib.Data.List.Basic

/-! Runs of operations on a store of problems. An operation leaves all problems as they are, adds a
new one, or puts a problem in the place of what it was before. -/

namespace KnotSpline

variable {α : Type}

inductive Action (α : Type) where
  | constrain (r : Request α)
  | fit
  | setTolerance (tolerance : Value α)
  | setRowIndex (rowIndex : Int)
  | setMetadata (name : Text) (v : Value α)

inductive Operation (α : Type) where
  | create (times coefficientCount outputCount metadata : Value α) (listening : Bool)
  | load (r : Record α)
  | loadFile (path : Text)
  | saveFile (id : Nat) (path : Text)
  /-- Any content in a file, from this program or another one. -/
  | store (path : Text) (content : ByteArray)
  /-- Directories come and go, and calls are made from elsewhere. -/
  | host (h : Host)
  | act (id : Nat) (a : Action α)

namespace Session

variable {β γ : Type}

def perform (m : Session α β) (s : Store α) : Except (Fault α) β × Store α :=
  (ExceptT.run m).run s

lemma perform_bind (m : Session α β) (f : β → Session α γ) (s : Store α) :
    (m >>= f).perform s =
      match m.perform s with
      | (.ok b, s') => (f b).perform s'
      | (.error e, s') => (.error e, s') := by
  have h : (m >>= f).perform s = (ExceptT.bindCont f (m.perform s).1).run (m.perform s).2 := rfl
  rw [h]
  rcases m.perform s with ⟨e | b, s'⟩
  · rfl
  · rfl

lemma perform_bind_ok {m : Session α β} {s s' : Store α} {b : β}
    (h : m.perform s = (.ok b, s')) (f : β → Session α γ) :
    (m >>= f).perform s = (f b).perform s' := by
  rw [perform_bind, h]

lemma perform_bind_error {m : Session α β} {s s' : Store α} {e : Fault α}
    (h : m.perform s = (.error e, s')) (f : β → Session α γ) :
    (m >>= f).perform s = (.error e, s') := by
  rw [perform_bind, h]

lemma perform_get (s : Store α) : (get : Session α (Store α)).perform s = (.ok s, s) := rfl

lemma perform_ofExcept (r : Except (Fault α) β) (s : Store α) : (ofExcept r).perform s = (r, s) :=
  rfl

lemma perform_modify (f : Store α → Store α) (s : Store α) :
    (modify f : Session α PUnit).perform s = (.ok ⟨⟩, f s) := rfl

end Session

namespace Store

def problems (s : Store α) : List (Problem α) :=
  s.entries.map Entry.problem

lemma problem?_eq (s : Store α) (id : Nat) : s.problem? id = s.problems[id]? := by
  rw [problem?, problems, List.getElem?_map]

lemma problems_setProblem (s : Store α) (id : Nat) (p : Problem α) :
    (s.setProblem id p).problems = s.problems.set id p := by
  apply List.ext_getElem?
  intro i
  rw [problems, setProblem, List.getElem?_map, List.getElem?_modify, List.getElem?_set, problems,
    List.getElem?_map, List.length_map]
  split
  · next h =>
    subst h
    cases hi : s.entries[id]? with
    | none => simp [List.getElem?_eq_none_iff.1 hi]
    | some e => simp [(List.getElem?_eq_some_iff.1 hi).1]
  · simp

@[simp] lemma problems_announce (s : Store α) (id : Nat) (message : String) :
    (s.announce id message).problems = s.problems := by
  rw [announce]
  split
  · next ms _ =>
    apply List.ext_getElem?
    intro i
    rw [problems, List.getElem?_map, List.getElem?_modify, problems, List.getElem?_map]
    split
    · cases s.entries[i]? <;> rfl
    · simp
  · rfl

end Store

namespace Session

variable {β γ : Type}

def Keeps (m : Session α β) : Prop :=
  ∀ s, (m.perform s).2.problems = s.problems

lemma keeps_ofExcept (r : Except (Fault α) β) : (ofExcept r).Keeps := fun _ => rfl

lemma keeps_modify {f : Store α → Store α} (h : ∀ s, (f s).problems = s.problems) :
    (modify f : Session α PUnit).Keeps := h

lemma Keeps.bind {m : Session α β} {f : β → Session α γ} (hm : m.Keeps)
    (hf : ∀ b, (f b).Keeps) : (m >>= f).Keeps := by
  intro s
  have h := hm s
  rw [perform_bind]
  generalize m.perform s = o at h
  rcases o with ⟨e | b, s'⟩
  · exact h
  · exact (hf b s').trans h

lemma keeps_openToWrite (path : Text) : (openToWrite path : Session α Location).Keeps :=
  Keeps.bind (fun _ => rfl) fun _ =>
    (keeps_ofExcept _).bind fun _ => Keeps.bind (fun _ => rfl) fun _ _ => rfl

lemma keeps_writeChunk (l : Location) (chunk : List Char) :
    (writeChunk l chunk : Session α Unit).Keeps :=
  fun _ => rfl

lemma keeps_store (path : Text) (content : ByteArray) :
    (Session.store path content : Session α Unit).Keeps :=
  (keeps_openToWrite path).bind fun _ => keeps_modify fun _ => rfl

lemma keeps_forM {γ : Type} {f : γ → Session α PUnit} (h : ∀ y, (f y).Keeps) (ys : List γ) :
    (ys.forM f).Keeps := by
  induction ys with
  | nil => exact fun _ => rfl
  | cons y ys ih => exact (h y).bind fun _ => ih

lemma keeps_textOf (content : ByteArray) : (textOf content : Session α String).Keeps := by
  intro s
  rw [textOf]
  cases String.fromUTF8? content <;> rfl

end Session

variable [Scalar α]

/-- A problem as it enters the store, from its arguments or from any record that is accepted. -/
inductive Problem.New : Problem α → Prop
  | create {times coefficientCount outputCount metadata : Value α} {p : Problem α}
      (h : create times coefficientCount outputCount metadata = .ok p) : p.New
  | ofRecord {r : Record α} {p : Problem α} (h : ofRecord r = .ok p) : p.New

def Action.apply : Action α → Problem α → Except (Fault α) (Problem α)
  | constrain r, p => p.constrain r
  | fit, p => p.fit
  | setTolerance tolerance, p => .ok { p with rankTolerance := tolerance }
  | setRowIndex rowIndex, p => .ok { p with rowIndex }
  | setMetadata name v, p => .ok { p with metadata := p.metadata.set (.text name) v }

def Operation.session : Operation α → Session α Unit
  | create times coefficientCount outputCount metadata listening =>
    discard (Session.create times coefficientCount outputCount metadata listening)
  | load r => discard (Session.load r)
  | loadFile path => discard (Session.loadFile path)
  | saveFile id path => Session.saveFile id path
  | store path content => Session.store path content
  | host h => modify fun s => { s with host := h }
  | act id (.constrain r) => Session.constrain id r
  | act id .fit => Session.fit id
  | act id (.setTolerance tolerance) => Session.setTolerance id tolerance
  | act id (.setRowIndex rowIndex) => Session.setRowIndex id rowIndex
  | act id (.setMetadata name v) => Session.setMetadata id name v

namespace Session

lemma keeps_readRecord (path : Text) : (readRecord path : Session α (Record α)).Keeps := by
  refine Keeps.bind (Keeps.bind (fun _ => rfl) fun _ => keeps_ofExcept _) fun content =>
    (keeps_textOf content).bind fun text => Keeps.bind (fun _ => rfl) fun _ => ?_
  intro s
  split
  · rfl
  · split
    · split
      · split <;> rfl
      · rfl
    · rfl

lemma keeps_saveFile (id : Nat) (path : Text) : (saveFile id path : Session α Unit).Keeps :=
  (keeps_openToWrite path).bind fun _ => Keeps.bind (fun _ => rfl) fun _ =>
    (keeps_forM (keeps_writeChunk _) _).bind fun _ => keeps_ofExcept _

variable {β : Type}

def Adds (m : Session α β) : Prop :=
  ∀ s, (m.perform s).2.problems = s.problems ∨
    ∃ p : Problem α, p.New ∧ (m.perform s).2.problems = s.problems ++ [p]

def Updates (m : Session α β) (id : Nat) (f : Problem α → Except (Fault α) (Problem α)) : Prop :=
  ∀ s, (m.perform s).2.problems = s.problems ∨
    ∃ p q, s.problems[id]? = some p ∧ f p = .ok q ∧
      (m.perform s).2.problems = s.problems.set id q

omit [Scalar α] in
lemma perform_discard (m : Session α β) (s : Store α) :
    ((discard m : Session α PUnit).perform s).2 = (m.perform s).2 := by
  have hb : (discard m : Session α PUnit).perform s = (m >>= fun _ => pure ⟨⟩).perform s := rfl
  rw [hb, perform_bind]
  rcases m.perform s with ⟨e | b, s'⟩ <;> rfl

lemma adds_discard {m : Session α β} (h : m.Adds) :
    (discard m : Session α PUnit).Adds := by
  intro s
  rw [perform_discard]
  exact h s

lemma adds_create (times coefficientCount outputCount metadata : Value α) (listening : Bool) :
    (create times coefficientCount outputCount metadata listening).Adds := by
  intro s
  rw [create, perform_bind, perform_ofExcept]
  cases h : Problem.create times coefficientCount outputCount metadata with
  | error e => exact .inl rfl
  | ok p =>
    refine .inr ⟨p, .create h, ?_⟩
    change (Store.announce _ _ _).problems = _
    rw [Store.problems_announce]
    simp [Store.problems]

lemma perform_load {r : Record α} {p q : Problem α} (ho : Problem.openRecord r = .ok p)
    (hl : p.loadSolution r = .ok q) (s : Store α) : (load r).perform s =
      (.ok s.entries.length,
        { s with entries := s.entries ++ [⟨q, none⟩], log := s.log ++ [p.summary] }) := by
  rw [load, ho, perform_bind_ok (perform_ofExcept _ s), perform_bind_ok (perform_modify _ s), hl]
  rfl

lemma adds_load (r : Record α) : (load r).Adds := by
  intro s
  cases ho : Problem.openRecord r with
  | error e =>
    rw [load, ho, perform_bind_error (perform_ofExcept _ s)]
    exact .inl rfl
  | ok p =>
    cases hl : p.loadSolution r with
    | error e =>
      rw [load, ho, perform_bind_ok (perform_ofExcept _ s), perform_bind_ok (perform_modify _ s),
        hl, perform_bind_error (perform_ofExcept _ _)]
      exact .inl rfl
    | ok q =>
      refine .inr ⟨q, .ofRecord (r := r) ?_, ?_⟩
      · rw [Problem.ofRecord, ho]
        exact hl
      · rw [perform_load ho hl]
        simp [Store.problems]

lemma adds_loadFile (path : Text) : (loadFile path : Session α Nat).Adds := by
  intro s
  have h := keeps_readRecord path s
  rw [loadFile, perform_bind]
  generalize (readRecord path).perform s = o at h
  rcases o with ⟨e | r, s'⟩
  · exact .inl h
  · rw [← h]
    exact adds_load r s'

omit [Scalar α] in
lemma perform_problem (id : Nat) (s : Store α) : (problem id).perform s =
    match s.problems[id]? with
    | some p => (.ok p, s)
    | none => (.error (Fault.noSuchProblem id), s) := by
  have h : (problem id).perform s = (match s.problem? id with
      | some p => (pure p : Session α (Problem α))
      | none => throw (Fault.noSuchProblem id)).perform s := rfl
  rw [h, ← Store.problem?_eq]
  cases s.problem? id <;> rfl

omit [Scalar α] in
lemma perform_problem_some {s : Store α} {id : Nat} {p : Problem α}
    (hp : s.problems[id]? = some p) : (problem id).perform s = (.ok p, s) := by
  rw [perform_problem, hp]

omit [Scalar α] in
lemma perform_problem_none {s : Store α} {id : Nat} (hp : s.problems[id]? = none) :
    (problem id).perform s = (.error (Fault.noSuchProblem id), s) := by
  rw [perform_problem, hp]

omit [Scalar α] in
lemma perform_update {s : Store α} {id : Nat} {p : Problem α} (hp : s.problems[id]? = some p)
    (f : Problem α → Except (Fault α) (Problem α)) : (update id f).perform s =
      match f p with
      | .ok q => (.ok (), s.setProblem id q)
      | .error e => (.error e, s) := by
  rw [update, perform_bind_ok (perform_problem_some hp), perform_bind, perform_ofExcept]
  cases f p <;> rfl

omit [Scalar α] in
lemma updates_update (id : Nat) (f : Problem α → Except (Fault α) (Problem α)) :
    (update id f).Updates id f := by
  intro s
  cases hp : s.problems[id]? with
  | none =>
    rw [update, perform_bind_error (perform_problem_none hp)]
    exact .inl rfl
  | some p =>
    rw [perform_update hp]
    cases hf : f p with
    | error e => exact .inl rfl
    | ok q => exact .inr ⟨p, q, rfl, hf, Store.problems_setProblem s id q⟩

lemma perform_fit {s : Store α} {id : Nat} {p : Problem α} (hp : s.problems[id]? = some p) :
    (fit id : Session α Unit).perform s =
      match p.fit with
      | .ok q => (.ok (), (s.announce id p.fitNotice).setProblem id q)
      | .error e => (.error e, s.announce id p.fitNotice) := by
  have hn : (s.announce id p.fitNotice).problems[id]? = some p := by
    rw [Store.problems_announce, hp]
  rw [fit, perform_bind_ok (perform_problem_some hp), perform_bind_ok (perform_modify _ s)]
  exact perform_update hn Problem.fit

lemma updates_fit (id : Nat) : (fit id : Session α Unit).Updates id Problem.fit := by
  intro s
  cases hp : s.problems[id]? with
  | none =>
    rw [fit, perform_bind_error (perform_problem_none hp)]
    exact .inl rfl
  | some p =>
    rw [perform_fit hp]
    cases hf : p.fit with
    | error e => exact .inl (Store.problems_announce _ _ _)
    | ok q =>
      refine .inr ⟨p, q, rfl, hf, ?_⟩
      rw [Store.problems_setProblem, Store.problems_announce]

lemma updates_act (id : Nat) (a : Action α) : (Operation.act id a).session.Updates id a.apply := by
  cases a with
  | constrain r => exact updates_update id _
  | fit => exact updates_fit id
  | setTolerance tolerance => exact updates_update id _
  | setRowIndex rowIndex => exact updates_update id _
  | setMetadata name v => exact updates_update id _

end Session

namespace Store

def after (s : Store α) (op : Operation α) : Store α :=
  (op.session.perform s).2

def run (s : Store α) (ops : List (Operation α)) : Store α :=
  ops.foldl after s

lemma problems_after_load {r : Record α} {p : Problem α} (h : Problem.ofRecord r = .ok p)
    (s : Store α) : (s.after (.load r)).problems = s.problems ++ [p] := by
  rw [Problem.ofRecord, bind_eq_ok_iff] at h
  obtain ⟨q, ho, hl⟩ := h
  rw [after, Operation.session, Session.perform_discard, Session.perform_load ho hl]
  simp [problems]

theorem problems_after (s : Store α) (op : Operation α) :
    (s.after op).problems = s.problems ∨
    (∃ p : Problem α, p.New ∧ (s.after op).problems = s.problems ++ [p]) ∨
    ∃ id a p q, op = .act id a ∧ s.problems[id]? = some p ∧ a.apply p = .ok q ∧
      (s.after op).problems = s.problems.set id q := by
  cases op with
  | create times coefficientCount outputCount metadata listening =>
    exact or_assoc.1 (.inl (Session.adds_discard (Session.adds_create _ _ _ _ _) s))
  | load r => exact or_assoc.1 (.inl (Session.adds_discard (Session.adds_load r) s))
  | loadFile path => exact or_assoc.1 (.inl (Session.adds_discard (Session.adds_loadFile path) s))
  | saveFile id path => exact .inl (Session.keeps_saveFile id path s)
  | store path content => exact .inl (Session.keeps_store path content s)
  | host h => exact .inl rfl
  | act id a =>
    rcases Session.updates_act id a s with h | ⟨p, q, hp, hq, h⟩
    · exact .inl h
    · exact .inr (.inr ⟨id, a, p, q, rfl, hp, hq, h⟩)

theorem problem_after {s : Store α} {id : ℕ} {p : Problem α} (hp : s.problems[id]? = some p)
    (op : Operation α) : ∃ q, (s.after op).problems[id]? = some q ∧
      (q = p ∨ ∃ a, op = .act id a ∧ a.apply p = .ok q) := by
  have hlt := (List.getElem?_eq_some_iff.1 hp).1
  rcases problems_after s op with h | ⟨p', -, h⟩ | ⟨id', a, p', q, rfl, hp', hq, h⟩
  · exact ⟨p, by rw [h, hp], .inl rfl⟩
  · exact ⟨p, by rw [h, List.getElem?_append_left hlt, hp], .inl rfl⟩
  · by_cases hid : id' = id
    · subst hid
      obtain rfl := Option.some_inj.1 (hp'.symm.trans hp)
      exact ⟨q, by rw [h, List.getElem?_set_self hlt], .inr ⟨a, rfl, hq⟩⟩
    · exact ⟨p, by rw [h, List.getElem?_set_ne hid, hp], .inl rfl⟩

theorem forall_problems_run {P : Problem α → Prop} {ops : List (Operation α)}
    (hnew : ∀ p, p.New → P p)
    (hact : ∀ id a p q, .act id a ∈ ops → P p → a.apply p = .ok q → P q) {s : Store α}
    (hs : ∀ p ∈ s.problems, P p) : ∀ p ∈ (s.run ops).problems, P p := by
  induction ops generalizing s with
  | nil => exact hs
  | cons op ops ih =>
    refine ih (fun id a p q ha => hact id a p q (List.mem_cons_of_mem _ ha)) fun p hp => ?_
    rcases problems_after s op with h | ⟨q, hq, h⟩ | ⟨id, a, p', q, rfl, hp', hq, h⟩
    · exact hs p (h ▸ hp)
    · rw [h, List.mem_append, List.mem_singleton] at hp
      rcases hp with hp | rfl
      · exact hs p hp
      · exact hnew p hq
    · rw [h] at hp
      rcases List.mem_or_eq_of_mem_set hp with hp | rfl
      · exact hs p hp
      · exact hact id a p' p List.mem_cons_self (hs p' (List.mem_of_getElem? hp')) hq

end Store

end KnotSpline
