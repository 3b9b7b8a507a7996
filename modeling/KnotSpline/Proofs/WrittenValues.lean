import KnotSpline.Proofs.Outputs
import KnotSpline.Proofs.UnfinishedText

/-! Writing stops exactly at the first place in depth-first order where something stands that cannot
be written. What has been written until then is a text that breaks off; otherwise it is the text of
what stands for each value in its place. -/

namespace KnotSpline

variable {α : Type}

namespace Value

theorem nesting {motive : Value α → Prop} (null : motive .null) (bool : ∀ b, motive (.bool b))
    (int : ∀ z, motive (.int z)) (real : ∀ x, motive (.real x)) (text : ∀ s, motive (.text s))
    (list : ∀ xs, (∀ x ∈ xs, motive x) → motive (.list xs))
    (record : ∀ fields : Record α, (∀ f ∈ fields, motive f.2) → motive (.record fields))
    (array : ∀ a, motive (.array a)) (problem : ∀ id, motive (.problem id))
    (foreign : motive .foreign) (v : Value α) : motive v :=
  @Value.rec α motive (fun xs => ∀ x ∈ xs, motive x) (fun fields => ∀ f ∈ fields, motive f.2)
    (fun f => motive f.2) null bool int real text list record array problem foreign
    (List.forall_mem_nil _) (fun _ _ hx hxs => List.forall_mem_cons.2 ⟨hx, hxs⟩)
    (List.forall_mem_nil _) (fun _ _ hf hfs => List.forall_mem_cons.2 ⟨hf, hfs⟩)
    (fun _ _ hv => hv) v

section Checks

open Output

variable {s : Store α} {around : List ℕ}

lemma check_follows {v : Visit α} {before : List Char} {Whole Part : List Char → Prop}
    {o : Output α Unit}
    (h : v.obstacle? s = v.value.flaw? s v.around → o.Follows s [v] before Whole Part) :
    (do ofExcept (s.host.stack.check v.around v.depth v.value); o).Follows s [v] before Whole
      Part := by
  rw [Stack.check]
  split
  · next hlt => exact .of_obstacle (if_pos hlt)
  · next hlt => exact h (if_neg hlt)

lemma inner_ofKey (key : Key α) (depth : ℕ) : Visit.inner s ⟨around, depth, ofKey key⟩ = [] := by
  cases key <;> rfl

end Checks

def IsObject : Value α → Prop
  | array _ | problem _ | foreign => True
  | _ => False

end Value

lemma Store.standIn_problem_cases (s : Store α) (id : ℕ) :
    (∃ e, s.standIn (.problem id) = .error e ∧
      ∀ around, id ∉ around → (Value.problem id).flaw? s around = some e) ∨
    ∃ p r, s.problem? id = some p ∧ p.toRecord = .ok r ∧
      s.standIn (.problem id) = .ok (.record r) ∧
      ∀ around, id ∉ around → (Value.problem id).flaw? s around = none := by
  simp only [standIn, Value.flaw?]
  cases hp : s.problem? id with
  | none => exact .inl ⟨_, rfl, fun _ h => if_neg h⟩
  | some p =>
    have hfitted : p.isFitted = p.phase.solution?.isSome := rfl
    cases hx : p.phase.solution? with
    | none =>
      have hrecord : p.toRecord = .error .notFittedToWrite := by
        rw [Problem.toRecord, hx]
        rfl
      simp only [hfitted, hx, hrecord]
      exact .inl ⟨_, rfl, fun _ h => if_neg h⟩
    | some x =>
      have hrecord := Problem.toRecord_eq hx
      simp only [hfitted, hx, hrecord]
      exact .inr ⟨p, _, rfl, hrecord, rfl, fun _ h => if_neg h⟩

lemma eq_of_forall₂ {β γ : Type} {R : β → γ → Prop} {xs : List β} {ys zs : List γ}
    (h : List.Forall₂ (fun x y => ∀ z, R x z → y = z) xs ys) (h' : List.Forall₂ R xs zs) :
    ys = zs := by
  induction h generalizing zs with
  | nil =>
    cases h'
    rfl
  | cons hx _ ih =>
    cases h' with
    | cons hz hzs => rw [hx _ hz, ih hzs]

variable [Scalar α]

/-- What is written in the place of a value: nested lists for an array, and its record for a
problem. -/
inductive Value.WrittenAs (s : Store α) : Value α → Json α → Prop
  | null : WrittenAs s .null .null
  | bool (b : Bool) : WrittenAs s (.bool b) (.bool b)
  | int (z : ℤ) : WrittenAs s (.int z) (.int z)
  | real (x : α) : WrittenAs s (.real x) (.real x)
  | text (t : Text) : WrittenAs s (.text t) (.text t)
  | list {xs : List (Value α)} {js : List (Json α)} (items : List.Forall₂ (WrittenAs s) xs js) :
    WrittenAs s (.list xs) (.list js)
  | record {fields : Record α} {js : List (Text × Json α)}
      (names : js.map Prod.fst = fields.map fun f => f.1.name)
      (contents : List.Forall₂ (WrittenAs s) (fields.map Prod.snd) (js.map Prod.snd)) :
    WrittenAs s (.record fields) (.record js)
  | array {a : NumArray α} {j : Json α} (contents : WrittenAs s (a.toNested .real .list) j) :
    WrittenAs s (.array a) j
  | problem {id : ℕ} {p : Problem α} {r : Record α} {j : Json α} (found : s.problem? id = some p)
      (fitted : p.toRecord = .ok r) (contents : WrittenAs s (.record r) j) :
    WrittenAs s (.problem id) j

namespace Value.WrittenAs

variable {s : Store α}

theorem nesting {motive : Value α → Json α → Prop} (null : motive .null .null)
    (bool : ∀ b, motive (.bool b) (.bool b)) (int : ∀ z, motive (.int z) (.int z))
    (real : ∀ x, motive (.real x) (.real x)) (text : ∀ t, motive (.text t) (.text t))
    (list : ∀ xs js, List.Forall₂ motive xs js → motive (.list xs) (.list js))
    (record : ∀ (fields : Record α) (js : List (Text × Json α)),
      js.map Prod.fst = (fields.map fun f => f.1.name) →
      List.Forall₂ motive (fields.map Prod.snd) (js.map Prod.snd) →
      motive (.record fields) (.record js))
    (array : ∀ a j, motive (a.toNested .real .list) j → motive (.array a) j)
    (problem : ∀ id p r j, s.problem? id = some p → p.toRecord = .ok r → motive (.record r) j →
      motive (.problem id) j)
    {v : Value α} {j : Json α} (h : v.WrittenAs s j) : motive v j :=
  @WrittenAs.rec α _ s (fun v j _ => motive v j) (fun xs js _ => List.Forall₂ motive xs js)
    null bool int real text (fun _ => list _ _) (fun names _ => record _ _ names)
    (fun _ => array _ _) (fun found fitted _ => problem _ _ _ _ found fitted) .nil
    (fun _ _ => .cons) v j h

theorem unique {v : Value α} {j j' : Json α} (h : v.WrittenAs s j) (h' : v.WrittenAs s j') :
    j = j' := by
  refine h.nesting (motive := fun v j => ∀ j', v.WrittenAs s j' → j = j')
    ?null ?bool ?int ?real ?text ?list ?record ?array ?problem j' h'
  case list =>
    intro xs js ih j' h'
    cases h' with
    | list items => rw [eq_of_forall₂ ih items]
  case record =>
    intro fields js names ih j' h'
    cases h' with
    | @record _ js' names' contents =>
      have hfst := names.trans names'.symm
      have hsnd := eq_of_forall₂ ih contents
      rw [List.zip_of_prod hfst hsnd, ← List.zip_of_prod rfl rfl]
  case array =>
    intro a j ih j' h'
    cases h' with
    | array contents => exact ih _ contents
  case problem =>
    intro id p r j hp hr ih j' h'
    cases h' with
    | problem found fitted contents =>
      obtain rfl := Option.some_inj.1 (hp.symm.trans found)
      obtain rfl := Except.ok.inj (hr.symm.trans fitted)
      exact ih _ contents
  all_goals
    intros
    rename_i h'
    cases h'
    rfl

end Value.WrittenAs

namespace Value

open Json Output

variable {s : Store α} {around : List ℕ}

def HasText (s : Store α) (level : ℕ) (x : Value α) (cs : List Char) : Prop :=
  ∃ j, x.WrittenAs s j ∧ cs = j.write level

lemma single_follows {v : Visit α} (hinner : v.inner s = [])
    (hflaw : v.value.flaw? s v.around = none) {j : Json α} (hj : v.value.WrittenAs s j) (level : ℕ)
    (before : List Char) {Part : List Char → Prop} :
    (do Output.ofExcept (s.host.stack.check v.around v.depth v.value)
        Output.put (before ++ j.write level)).Follows s [v] before (v.value.HasText s level) Part :=
  check_follows fun hv => .put_single (hv.trans hflaw) hinner ⟨j, hj, rfl⟩

lemma put_follows {visits : List (Visit α)} {before : List Char} {Whole : List Char → Prop}
    {level : ℕ} {o : Output α Unit} (h : o.Follows s visits [] Whole (BreaksOff α level)) :
    (do Output.put before; o).Follows s visits before Whole (BreaksOff α level) := by
  refine h.put_bind.imp (fun _ h => h) ?_
  rintro _ (rfl | h)
  · exact .nothing level
  · exact h

lemma writeName_follows (key : Key α) (depth : ℕ) (before : List Char) :
    (writeName (s.host.stack.check around) depth before key).Follows s
      [⟨around, depth, ofKey key⟩] before (fun cs => cs = writeText key.name ++ ": ".toList)
      (fun _ => False) := by
  refine check_follows (v := ⟨around, depth, ofKey key⟩) fun hv => ?_
  have hput (hnone : (ofKey key).flaw? s around = none) :
      (Output.put (before ++ writeText key.name ++ ": ".toList)).Follows s
        [⟨around, depth, ofKey key⟩] before (fun cs => cs = writeText key.name ++ ": ".toList)
        (fun _ => False) := by
    rw [List.append_assoc]
    exact .put_single (hv.trans hnone) (inner_ofKey key depth) rfl
  cases key with
  | int z =>
    rw [Key.toJsonName]
    split
    · next hz => exact hput (flaw?_int_eq_none_iff.2 hz)
    · next hz => exact .of_obstacle (hv.trans (flaw?_int_of_not_isShort hz))
  | null | bool | real | text => exact hput rfl

section Nested

variable (s around) (writeObject : ℕ → ℕ → Value α → Output α Unit)

def Follows (x : Value α) : Prop :=
  ∀ level depth before, (x.write (s.host.stack.check around) writeObject level depth before).Follows
    s [⟨around, depth, x⟩] before (x.HasText s level) (BreaksOff α level)

def ObjectFollows (y : Value α) : Prop :=
  ∀ level depth, (writeObject level depth y).Follows s [⟨around, depth, y⟩] [] (y.HasText s level)
    (BreaksOff α level)

variable {s around writeObject}

lemma writeItems_follows {xs : List (Value α)} (h : ∀ x ∈ xs, x.Follows s around writeObject)
    (level depth : ℕ) :
    (writeItems (s.host.stack.check around) writeObject level depth xs).Follows s
      (xs.map fun x => ⟨around, depth, x⟩) []
      (fun cs => ∃ js, List.Forall₂ (WrittenAs s) xs js ∧ cs = Json.writeItems level js)
      (fun cs => ∃ (js : List (Json α)) (ds : List Char), cs = Json.writeItems level js ++ ds ∧
        (ds = [] ∨ ∃ t, ds = ',' :: (newLine level ++ t) ∧ BreaksOff α level t)) := by
  induction xs with
  | nil =>
    refine Follows.nil.imp ?_ fun _ h => h.elim
    rintro cs rfl
    exact ⟨[], .nil, rfl⟩
  | cons x xs ih =>
    obtain ⟨hx, hxs⟩ := List.forall_mem_cons.1 h
    refine ((hx level depth (',' :: newLine level)).enclose.bind (ih hxs)).imp ?_ ?_
    · rintro _ ⟨_, _, rfl, ⟨_, rfl, j, hj, rfl⟩, js, hjs, rfl⟩
      exact ⟨j :: js, .cons hj hjs, rfl⟩
    · rintro _ (⟨t, rfl, ht⟩ | ⟨_, ds, rfl, ⟨_, rfl, j, -, rfl⟩, hds⟩)
      · exact ⟨[], _, rfl, .inr ⟨t, rfl, ht⟩⟩
      · rcases hds with rfl | ⟨js, ds, rfl, hds⟩
        · exact ⟨[j], [], by rw [Json.writeItems, Json.writeItems]; simp, .inl rfl⟩
        · exact ⟨j :: js, ds, by rw [Json.writeItems]; simp only [List.append_assoc], hds⟩

lemma list_follows {xs : List (Value α)} (h : ∀ x ∈ xs, x.Follows s around writeObject) :
    (list xs).Follows s around writeObject := by
  intro level depth before
  cases xs with
  | nil =>
    exact put_follows
      (single_follows (v := ⟨around, depth, list []⟩) rfl rfl (.list .nil) level [])
  | cons x xs =>
    obtain ⟨hx, hxs⟩ := List.forall_mem_cons.1 h
    have hbody := (hx (level + 1) (depth + 1) ('[' :: newLine (level + 1))).enclose.bind
      ((writeItems_follows hxs (level + 1) (depth + 1)).bind (.put (newLine level ++ [']'])))
    have hinner : Visit.inner s ⟨around, depth, list (x :: xs)⟩ =
        [⟨around, depth + 1, x⟩] ++ ((xs.map fun x => ⟨around, depth + 1, x⟩) ++ []) := by
      rw [List.append_nil]
      rfl
    refine put_follows (check_follows (v := ⟨around, depth, list (x :: xs)⟩) fun hv =>
      (Follows.of_inner hv (hinner ▸ hbody)).imp ?_ ?_)
    · rintro _ ⟨_, _, rfl, ⟨_, rfl, j, hj, rfl⟩, _, _, rfl, ⟨js, hjs, rfl⟩, rfl⟩
      refine ⟨.list (j :: js), .list (.cons hj hjs), ?_⟩
      rw [Json.write]
      simp only [List.append_assoc, List.cons_append]
    · rintro _ (⟨t, rfl, ht⟩ | ⟨_, ds, rfl, ⟨_, rfl, j, -, rfl⟩, hds⟩)
      · exact .firstItem ht
      · simp only [List.append_assoc, List.cons_append]
        rcases hds with rfl | ⟨js, ds, rfl, rfl | ⟨t, rfl, ht⟩⟩ | ⟨_, _, rfl, ⟨js, -, rfl⟩, rfl | h⟩
        · exact .afterItems j []
        · rw [List.append_nil]
          exact .afterItems j js
        · exact .nextItem j js ht
        · rw [List.append_nil]
          exact .afterItems j js
        · exact h.elim

lemma field_follows (key : Key α) {x : Value α} (hx : x.Follows s around writeObject)
    (level depth : ℕ) (before : List Char) :
    (do writeName (s.host.stack.check around) depth before key
        x.write (s.host.stack.check around) writeObject level depth []).Follows s
      (Visit.ofField around depth (key, x)) before
      (fun cs => ∃ j, x.WrittenAs s j ∧
        cs = writeText key.name ++ (": ".toList ++ j.write level))
      (fun cs => ∃ name t, cs = writeText name ++ (": ".toList ++ t) ∧ BreaksOff α level t) := by
  refine ((writeName_follows key depth before).bind (hx level depth [])).imp ?_ ?_
  · rintro _ ⟨_, _, rfl, rfl, j, hj, rfl⟩
    exact ⟨j, hj, List.append_assoc _ _ _⟩
  · rintro _ (h | ⟨_, ds, rfl, rfl, hds⟩)
    · exact h.elim
    · refine ⟨key.name, ds, List.append_assoc _ _ _, ?_⟩
      rcases hds with rfl | hds
      · exact .nothing level
      · exact hds

lemma writeFields_follows {fields : Record α}
    (h : ∀ f ∈ fields, f.2.Follows s around writeObject) (level depth : ℕ) :
    (writeFields (s.host.stack.check around) writeObject level depth fields).Follows s
      (fields.flatMap (Visit.ofField around depth)) []
      (fun cs => ∃ js : List (Text × Json α), js.map Prod.fst = fields.map (fun f => f.1.name) ∧
        List.Forall₂ (WrittenAs s) (fields.map Prod.snd) (js.map Prod.snd) ∧
        cs = Json.writeFields level js)
      (fun cs => ∃ (js : List (Text × Json α)) (ds : List Char),
        cs = Json.writeFields level js ++ ds ∧ (ds = [] ∨ ∃ name t,
          ds = ',' :: (newLine level ++ (writeText name ++ (": ".toList ++ t))) ∧
            BreaksOff α level t)) := by
  induction fields with
  | nil =>
    refine Follows.nil.imp ?_ fun _ h => h.elim
    rintro cs rfl
    exact ⟨[], rfl, .nil, rfl⟩
  | cons f fields ih =>
    obtain ⟨hf, hfields⟩ := List.forall_mem_cons.1 h
    rw [writeFields, ← Output.bind_assoc]
    have hfield := field_follows f.1 hf level depth (',' :: newLine level)
    refine (hfield.enclose.bind (ih hfields)).imp ?_ ?_
    · rintro _ ⟨_, _, rfl, ⟨_, rfl, j, hj, rfl⟩, js, hnames, hjs, rfl⟩
      refine ⟨(f.1.name, j) :: js, congrArg _ hnames, .cons hj hjs, ?_⟩
      rw [Json.writeFields]
      simp only [List.append_assoc]
    · rintro _ (⟨_, rfl, name, t, rfl, ht⟩ | ⟨_, ds, rfl, ⟨_, rfl, j, -, rfl⟩, hds⟩)
      · exact ⟨[], _, rfl, .inr ⟨name, t, rfl, ht⟩⟩
      · rcases hds with rfl | ⟨js, ds, rfl, hds⟩
        · refine ⟨[(f.1.name, j)], [], ?_, .inl rfl⟩
          rw [Json.writeFields, Json.writeFields]
          simp
        · refine ⟨(f.1.name, j) :: js, ds, ?_, hds⟩
          rw [Json.writeFields]
          simp only [List.append_assoc]

lemma record_follows {fields : Record α} (h : ∀ f ∈ fields, f.2.Follows s around writeObject) :
    (record fields).Follows s around writeObject := by
  intro level depth before
  cases fields with
  | nil =>
    have hrecord : (record []).WrittenAs s (.record []) := .record rfl .nil
    exact put_follows
      (single_follows (v := ⟨around, depth, record []⟩) rfl rfl hrecord level [])
  | cons f fields =>
    obtain ⟨hf, hfields⟩ := List.forall_mem_cons.1 h
    have hbody := (Follows.put ('\x7b' :: newLine (level + 1))).bind
      ((field_follows f.1 hf (level + 1) (depth + 1) []).bind
        ((writeFields_follows hfields (level + 1) (depth + 1)).bind
          (.put (newLine level ++ ['\x7d']))))
    have hinner : Visit.inner s ⟨around, depth, record (f :: fields)⟩ =
        [] ++ (Visit.ofField around (depth + 1) f ++
          (fields.flatMap (Visit.ofField around (depth + 1)) ++ [])) := by
      rw [List.append_nil]
      rfl
    rw [Output.bind_assoc] at hbody
    refine put_follows (check_follows (v := ⟨around, depth, record (f :: fields)⟩) fun hv =>
      (Follows.of_inner hv (hinner ▸ hbody)).imp ?_ ?_)
    · rintro _ ⟨_, _, rfl, rfl, _, _, rfl, ⟨j, hj, rfl⟩, _, _, rfl, ⟨js, hnames, hjs, rfl⟩, rfl⟩
      refine ⟨.record ((f.1.name, j) :: js), .record (congrArg _ hnames) (.cons hj hjs), ?_⟩
      rw [Json.write]
      simp only [List.append_assoc, List.cons_append]
    · rintro _ (h | ⟨_, _, rfl, rfl, hds⟩)
      · exact h.elim
      · simp only [List.cons_append]
        rcases hds with rfl | ⟨name, t, rfl, ht⟩ | ⟨_, ds, rfl, ⟨j, -, rfl⟩, hds⟩
        · rw [List.append_nil]
          exact .firstName level
        · exact .firstField name ht
        · simp only [List.append_assoc]
          rcases hds with rfl | ⟨js, ds, rfl, rfl | ⟨name, t, rfl, ht⟩⟩ |
            ⟨_, _, rfl, ⟨js, -, -, rfl⟩, rfl | h⟩
          · exact .afterFields _ j []
          · rw [List.append_nil]
            exact .afterFields _ j js
          · exact .nextField _ j js name ht
          · rw [List.append_nil]
            exact .afterFields _ j js
          · exact h.elim

lemma write_follows (x : Value α)
    (hobjects : ∀ y, x.Holds y → y.IsObject → y.ObjectFollows s around writeObject) :
    x.Follows s around writeObject := by
  induction x using Value.nesting with
  | null =>
    exact fun level depth before =>
      single_follows (v := ⟨around, depth, null⟩) rfl rfl .null level before
  | bool b =>
    exact fun level depth before =>
      single_follows (v := ⟨around, depth, bool b⟩) rfl rfl (.bool b) level before
  | real x =>
    exact fun level depth before =>
      single_follows (v := ⟨around, depth, real x⟩) rfl rfl (.real x) level before
  | text t =>
    exact fun level depth before =>
      single_follows (v := ⟨around, depth, text t⟩) rfl rfl (.text t) level before
  | int z =>
    intro level depth before
    refine check_follows (v := ⟨around, depth, int z⟩) fun hv => ?_
    split
    · next hz =>
      exact .put_single (hv.trans (flaw?_int_eq_none_iff.2 hz)) rfl ⟨_, .int z, rfl⟩
    · next hz => exact .of_obstacle (hv.trans (flaw?_int_of_not_isShort hz))
  | list xs ih =>
    exact list_follows fun x hx => ih x hx fun y hy => hobjects y (hy.trans (.item .self hx))
  | record fields ih =>
    exact record_follows fun f hf => ih f hf fun y hy => hobjects y (hy.trans (.content .self hf))
  | array a => exact fun level depth _ => put_follows (hobjects _ .self trivial level depth)
  | problem id => exact fun level depth _ => put_follows (hobjects _ .self trivial level depth)
  | foreign => exact fun level depth _ => put_follows (hobjects _ .self trivial level depth)

end Nested

end Value

namespace Store

open Value Json Output

variable {s : Store α}

lemma array_follows (s : Store α) (fuel : ℕ) (around : List ℕ) (a : NumArray α) :
    (Value.array a).ObjectFollows s around (s.writeObject (fuel + 1) around) := by
  intro level depth
  have hnested : OfReals (fun _ => True) (a.toNested .real .list : Value α) :=
    ofReals_nest a.shape fun _ _ => trivial
  have hfollows : (a.toNested .real .list : Value α).Follows s around (s.writeObject fuel around) :=
    write_follows _ fun y hy hobject => by cases hnested.of_holds hy <;> exact hobject.elim
  refine check_follows (v := ⟨around, depth, .array a⟩) fun hv => ?_
  refine (Follows.of_inner hv (hfollows level (depth + 2) [])).imp ?_ fun _ h => h
  rintro _ ⟨j, hj, rfl⟩
  exact ⟨j, .array hj, rfl⟩

lemma problem_follows {fuel id : ℕ} {around : List ℕ}
    (hinside : id ∉ around → id < s.entries.length → ∀ y : Value α, y.IsObject →
      y.ObjectFollows s (id :: around) (s.writeObject fuel (id :: around))) :
    (Value.problem id).ObjectFollows s around (s.writeObject (fuel + 1) around) := by
  intro level depth
  refine check_follows (v := ⟨around, depth, .problem id⟩) fun hv => ?_
  dsimp only at hv
  rw [enter]
  by_cases hmem : id ∈ around
  · rw [flaw?, if_pos hmem] at hv
    rw [if_pos (List.contains_iff_mem.2 hmem)]
    exact .of_obstacle hv
  rw [if_neg (mt List.contains_iff_mem.1 hmem)]
  rcases standIn_problem_cases s id with ⟨e, hstand, hflaw⟩ | ⟨p, r, hp, hr, hstand, hflaw⟩
  · rw [hstand]
    exact .of_obstacle (hv.trans (hflaw around hmem))
  · have hlength : id < s.entries.length := by
      obtain ⟨entry, hentry, -⟩ := Option.map_eq_some_iff.1 hp
      exact (List.getElem?_eq_some_iff.1 hentry).1
    have hrecord := write_follows (.record r) fun y _ hy => hinside hmem hlength y hy
    have hinner := hrecord level (depth + 2) []
    rw [← Visit.inner_problem (v := ⟨around, depth, .problem id⟩) rfl hp hr] at hinner
    rw [hstand]
    refine (Follows.of_inner (hv.trans (hflaw around hmem)) hinner).imp ?_ fun _ h => h
    rintro _ ⟨j, hj, rfl⟩
    exact ⟨j, .problem hp hr hj, rfl⟩

/-- The problems around are different ones, so that the fuel does not run out. -/
theorem writeObject_follows {fuel : ℕ} {around : List ℕ} {y : Value α} (hy : y.IsObject)
    (hfuel : s.entries.length + 1 ≤ fuel + around.length) (hnodup : around.Nodup)
    (hlt : ∀ a ∈ around, a < s.entries.length) :
    y.ObjectFollows s around (s.writeObject fuel around) := by
  induction fuel generalizing around y with
  | zero =>
    have hsubset : around ⊆ List.range s.entries.length :=
      fun a ha => List.mem_range.2 (hlt a ha)
    have hlength := (List.subperm_of_subset hnodup hsubset).length_le
    rw [List.length_range] at hlength
    omega
  | succ fuel ih =>
    cases y with
    | null | bool | int | real | text | list | record => exact hy.elim
    | array a => exact array_follows s fuel around a
    | foreign =>
      intro level depth
      exact check_follows (v := ⟨around, depth, .foreign⟩) fun hv => .of_obstacle hv
    | problem id =>
      refine problem_follows fun hmem hlength y hy => ?_
      refine ih hy ?_ (List.nodup_cons.2 ⟨hmem, hnodup⟩) (List.forall_mem_cons.2 ⟨hlength, hlt⟩)
      rw [List.length_cons]
      omega

variable {id : ℕ} {e : Fault α}

theorem encode_follows (s : Store α) (id : ℕ) :
    (s.encode id).Follows s [Visit.root id] [] ((Value.problem id).HasText s 0) (BreaksOff α 0) :=
  writeObject_follows (y := .problem id) trivial le_rfl List.nodup_nil (List.forall_mem_nil _) 0 0

theorem encode_of_ok (h : (s.encode id).outcome = .ok ()) :
    (Visit.root id).Clear s ∧
      ∃ j, (Value.problem id).WrittenAs s j ∧ (s.encode id).text = j.write 0 := by
  cases s.encode_follows id with
  | whole clear _ text whole =>
    obtain ⟨j, hj, rfl⟩ := whole
    exact ⟨clear _ (List.mem_singleton_self _), j, hj, text⟩
  | part _ outcome _ _ =>
    rw [h] at outcome
    cases outcome

theorem encode_of_error (h : (s.encode id).outcome = .error e) :
    (∃ place, (Visit.root id).StopsAt s place e) ∧ BreaksOff α 0 (s.encode id).text := by
  cases s.encode_follows id with
  | whole _ outcome _ _ =>
    rw [h] at outcome
    cases outcome
  | part stops outcome text part =>
    obtain rfl := Except.error.inj (h.symm.trans outcome)
    refine ⟨stops.of_singleton, text ▸ ?_⟩
    rcases part with rfl | ⟨ds, rfl, hds⟩
    · exact .nothing 0
    · exact hds

theorem encode_ok_iff : (s.encode id).outcome = .ok () ↔ (Visit.root id).Clear s := by
  refine ⟨fun h => (encode_of_ok h).1, fun h => ?_⟩
  cases ho : (s.encode id).outcome with
  | ok _ => rfl
  | error e =>
    obtain ⟨⟨place, hp⟩, -⟩ := encode_of_error ho
    exact absurd h hp.not_clear

theorem encode_error_iff :
    (s.encode id).outcome = .error e ↔ ∃ place, (Visit.root id).StopsAt s place e := by
  refine ⟨fun h => (encode_of_error h).1, fun ⟨place, hp⟩ => ?_⟩
  cases ho : (s.encode id).outcome with
  | ok _ => exact absurd (encode_of_ok ho).1 hp.not_clear
  | error e' =>
    obtain ⟨⟨place', hp'⟩, -⟩ := encode_of_error ho
    rw [hp.unique hp']

end Store

end KnotSpline
