import KnotSpline.Proofs.Files

/-! Saving problems that refer to problems: when a save returns, which fault it ends with otherwise,
and what is then in the file. -/

namespace KnotSpline

open Relation

variable {α : Type} [Scalar α]

lemma Visit.StopsAt.eq_tooDeep {s : Store α} {id : ℕ} {place : List ℕ} {e : Fault α}
    (h : (root id).StopsAt s place e) (hs : ∀ p ∈ s.problems, p.Sized)
    (hw : s.Writable id) : e = .tooDeep := by
  obtain ⟨⟨w, hat, he⟩, -⟩ := h
  rw [obstacle?, (flawless_root_iff hs).2 hw w ⟨place, hat⟩] at he
  split at he
  · exact (Option.some_inj.1 he).symm
  · cases he

namespace Store

variable {s : Store α} {id : ℕ}

lemma encode_ok_iff_writable (hs : ∀ p ∈ s.problems, p.Sized) :
    (s.encode id).outcome = .ok () ↔ s.Writable id ∧ (Visit.root id).Within s := by
  rw [encode_ok_iff, Visit.clear_iff, Visit.flawless_root_iff hs]

omit [Scalar α] in
lemma Writable.of_withStack {k : Stack} (h : (s.withStack k).Writable id) : s.Writable id :=
  ⟨h.problem, h.acyclic⟩

omit [Scalar α] in
lemma Writable.withStack (h : s.Writable id) (k : Stack) : (s.withStack k).Writable id :=
  ⟨h.problem, h.acyclic⟩

lemma encode_withStack_ok_iff (hs : ∀ p ∈ s.problems, p.Sized) {k : Stack}
    (hk : k.Takes s.roomNeeded) : ((s.withStack k).encode id).outcome = .ok () ↔ s.Writable id := by
  rw [encode_ok_iff_writable (s := s.withStack k) hs]
  refine ⟨fun h => h.1.of_withStack, fun h => ⟨h.withStack k, ?_⟩⟩
  exact (h.withStack k).within hs hk

end Store

namespace Session

variable {s t : Store α} {id : ℕ} {path : Text} {l : Location}

lemma saveFile_ok_iff (hpath : s.placeToWrite path = .ok l) :
    (∃ t, (saveFile id path).perform s = (.ok (), t)) ↔ (s.encode id).outcome = .ok () := by
  rw [perform_saveFile hpath]
  exact ⟨fun ⟨_, h⟩ => (Prod.mk.inj h).1, fun h => ⟨_, congrArg (·, _) h⟩⟩

lemma saveFile_error_iff (hpath : s.placeToWrite path = .ok l) {e : Fault α} :
    (∃ t, (saveFile id path).perform s = (.error e, t)) ↔
      ∃ place, (Visit.root id).StopsAt s place e := by
  rw [← Store.encode_error_iff, perform_saveFile hpath]
  exact ⟨fun ⟨_, h⟩ => (Prod.mk.inj h).1, fun h => ⟨_, congrArg (·, _) h⟩⟩

/-- Saving comes to an end for every pattern of references. With as much room as is needed it
returns exactly if all problems that the first one leads to are fitted, hold nothing that cannot be
written, and do not lead back to themselves; in the room that there is, if besides nothing stands
too deep. Otherwise it fails at the first obstacle. What is saved is read again with every problem
that is referred to in its place, and each of these can be made anew from there. -/
theorem saveFile_with_references {ops : List (Operation α)} (hops : Store.empty.run ops = s)
    (hpath : s.placeToWrite path = .ok l) (id : ℕ) :
    (∀ k : Stack, k.Takes s.roomNeeded →
      (((saveFile id path).perform (s.withStack k)).1 = .ok () ↔ s.Writable id) ∧
      (∀ e, ((saveFile id path).perform (s.withStack k)).1 = .error e ↔
        ∃ place, (Visit.root id).StopsAt (s.withStack k) place e) ∧
      ((saveFile id path).perform (s.withStack k)).1 ≠ .error .tooDeep ∧
      ∀ k' : Stack, k'.Takes s.roomNeeded → ((saveFile id path).perform (s.withStack k')).1 =
        ((saveFile id path).perform (s.withStack k)).1) ∧
    ((∃ t, (saveFile id path).perform s = (.ok (), t)) ↔
      s.Writable id ∧ (Visit.root id).Within s) ∧
    (∀ e, (∃ t, (saveFile id path).perform s = (.error e, t)) ↔
      ∃ place, (Visit.root id).StopsAt s place e) ∧
    ∀ t, (saveFile id path).perform s = (.ok (), t) → ∃ fields,
      t = s.setFile l (Json.record fields).toText.toUTF8 ∧
      (Value.problem id).WrittenAs s (.record fields) ∧
      ((∀ a, ReflTransGen s.RefersTo id a → ∀ p, s.problem? a = some p → p.Legible) →
        (Json.record fields).depth ≤ s.host.stack.levels →
        (readRecord path).perform t = (.ok (Json.toFields fields), t)) ∧
      ∀ a, ReflTransGen s.RefersTo id a → ∃ p x inner q,
        s.problem? a = some p ∧ p.phase.solution? = some x ∧
        (Value.problem a).WrittenAs s (.record inner) ∧
        (Value.record (Json.toFields fields)).Holds (.record (Json.toFields inner)) ∧
        Problem.ofRecord (Json.toFields inner) = .ok q ∧ q.phase = .loaded x ∧
        q.times = p.times ∧ q.coefficientCount = p.coefficientCount ∧
        q.outputCount = p.outputCount := by
  have hs : ∀ p ∈ s.problems, p.Sized := hops ▸ fun p hp => Problem.sized_of_mem_run hp
  have houtcome (k : Stack) : ((saveFile id path).perform (s.withStack k)).1 =
      ((s.withStack k).encode id).outcome := by
    rw [perform_saveFile (s := s.withStack k) hpath]
  refine ⟨fun k hk => ?_, ?_, fun e => saveFile_error_iff hpath, fun t ht => ?_⟩
  · rw [houtcome]
    refine ⟨Store.encode_withStack_ok_iff hs hk, fun e => Store.encode_error_iff, fun h => ?_,
      fun k' hk' => ?_⟩
    · obtain ⟨place, hplace⟩ := Store.encode_error_iff.1 h
      exact hplace.ne_tooDeep hk rfl
    · rw [houtcome]
      exact Store.outcome_encode_withStack (s := s.withStack k) hk hk' id
  · rw [saveFile_ok_iff hpath, Store.encode_ok_iff_writable hs]
  · rw [perform_saveFile hpath] at ht
    obtain ⟨hok, rfl⟩ := Prod.mk.inj ht
    obtain ⟨hclear, j, hwritten, htext⟩ := Store.encode_of_ok hok
    obtain ⟨p, x, metadata, hp, hx, -, rfl⟩ := hwritten.exists_fileFields hs
    refine ⟨_, ?_, hwritten, fun hlegible hlevels => ?_, fun a ha => ?_⟩
    · rw [htext]
      rfl
    · rw [htext]
      have hstorable := hwritten.storable_root (Visit.readable_root hclear hlegible)
      have hplace := Store.placeToWrite_of_ok (s := s)
        (t := s.setFile l (Json.record (p.fileFields x metadata)).toText.toUTF8) rfl hpath
      have hcontent := Store.contentAt_of_placeToWrite hplace (s.file?_setFile_self l _)
      exact perform_readRecord hcontent (Json.ofText_toText hstorable hlevels) rfl
    · obtain ⟨j', hj', hholds⟩ := hwritten.exists_of_leads hs ha
      obtain ⟨q, y, metadata', hq, hy, -, rfl⟩ := hj'.exists_fileFields hs
      have hsized := hs q (List.mem_of_getElem? (s.problem?_eq a ▸ hq))
      exact ⟨q, y, _, _, hq, hy, hj', hholds, Problem.ofRecord_written hsized hy metadata', rfl,
        rfl, rfl, rfl⟩

def annotated (metadata : Record Float) : Problem Float :=
  { Problem.notedLine with metadata }

def twice : Record Float :=
  [(.text "first", .problem 0), (.text "again", .list [.problem 0])]

def sideBySide : List (Operation Float) :=
  [.load ((annotated []).recordOf [[[0 / 0, -0.0]]]),
    .load ((annotated twice).recordOf [[[0 / 0, -0.0]]])]

lemma problems_sideBySide :
    (Store.empty.run sideBySide).problems = [annotated [], annotated twice] := by
  have hload (metadata : Record Float) :
      Problem.ofRecord ((annotated metadata).recordOf [[[0 / 0, -0.0]]]) =
        .ok (annotated metadata) :=
    Problem.ofRecord_recordOf (Problem.sized_notedLine.withMetadata metadata) rfl
  rw [sideBySide, Store.run, List.foldl_cons, List.foldl_cons, List.foldl_nil,
    Store.problems_after_load (hload twice), Store.problems_after_load (hload [])]
  rfl

lemma legible_annotated {metadata : Record Float}
    (h : ∀ y, (Value.record metadata).Holds y → y.Legible) : (annotated metadata).Legible where
  times := Problem.storable_notedLine.times_readBack
  coefficients x hx := by
    obtain rfl := Option.some_inj.1 hx
    exact Problem.storable_notedLine.coefficients_readBack
  metadata := h

lemma legible_nil {y : Value Float} (h : (Value.record []).Holds y) : y.Legible := by
  have hy : y = .record [] := by
    induction h with
    | self => rfl
    | item _ _ ih => nomatch ih
    | key _ hf ih | content _ hf ih =>
      cases ih
      nomatch hf
    | entries _ ih => nomatch ih
  rw [hy]
  exact ⟨List.nodup_nil, nofun⟩

lemma holds_twice {y : Value Float} (h : (Value.record twice).Holds y) : y = .record twice ∨
    (∃ name : String, y = .text name) ∨ y = .problem 0 ∨ y = .list [.problem 0] := by
  induction h with
  | self => exact .inl rfl
  | item _ hx ih =>
    rcases ih with h | ⟨_, h⟩ | h | h
    · cases h
    · cases h
    · cases h
    · cases h
      exact .inr (.inr (.inl (List.mem_singleton.1 hx)))
  | key _ hf ih =>
    rcases ih with h | ⟨_, h⟩ | h | h
    · cases h
      rcases List.mem_pair.1 hf with rfl | rfl <;> exact .inr (.inl ⟨_, rfl⟩)
    all_goals cases h
  | content _ hf ih =>
    rcases ih with h | ⟨_, h⟩ | h | h
    · cases h
      rcases List.mem_pair.1 hf with rfl | rfl
      · exact .inr (.inr (.inl rfl))
      · exact .inr (.inr (.inr rfl))
    all_goals cases h
  | entries _ ih =>
    rcases ih with h | ⟨_, h⟩ | h | h
    all_goals cases h

lemma legible_twice {y : Value Float} (h : (Value.record twice).Holds y) : y.Legible := by
  rcases holds_twice h with rfl | ⟨name, rfl⟩ | rfl | rfl
  · refine ⟨by decide, fun f hf => ?_⟩
    rcases List.mem_pair.1 hf with rfl | rfl <;> exact ⟨_, rfl⟩
  · exact ⟨name.toList, rfl⟩
  · trivial
  · trivial

theorem saveFile_side_by_side : ∃ (s t : Store Float) (l : Location)
    (fields inner : List (Text × Json Float)) (q : Problem Float),
      Store.empty.run sideBySide = s ∧ s.placeToWrite "two.json" = .ok l ∧
      s.problems = [annotated [], annotated twice] ∧
      (saveFile 1 "two.json").perform s = (.ok (), t) ∧
      (readRecord "two.json").perform t = (.ok (Json.toFields fields), t) ∧
      (Value.record (Json.toFields fields)).Holds (.record (Json.toFields inner)) ∧
      Problem.ofRecord (Json.toFields inner) = .ok q ∧ q.times = [1, 2] ∧
      ((saveFile 1 "two.json").perform
        (s.after (.act 0 (.setMetadata "back" (.problem 1))))).1.isOk = false := by
  have hpath := (Store.placeToWrite_of_name (s := Store.empty.run sideBySide)
    (c := "two.json".toList) ⟨by decide, by decide, by decide, by decide, by decide⟩ (by decide)
      (by decide +kernel)).trans (if_neg (by decide))
  have hisOk : ((saveFile 1 "two.json").perform (Store.empty.run sideBySide)).1.isOk = true := by
    decide +kernel
  have hback : ((saveFile 1 "two.json").perform ((Store.empty.run sideBySide).after
      (.act 0 (.setMetadata "back" (.problem 1))))).1.isOk = false := by
    decide +kernel
  have hproblems := problems_sideBySide
  have hneeded : (Store.empty.run sideBySide).roomNeeded ≤ 985 := by
    rw [Store.roomNeeded, hproblems]
    decide +kernel
  have hs : ∀ p ∈ (Store.empty.run sideBySide).problems, p.Sized :=
    fun p hp => Problem.sized_of_mem_run hp
  have hstack : (Store.empty.run sideBySide).host.stack = .usual := rfl
  obtain ⟨-, hreturns, -, hafter⟩ := saveFile_with_references rfl hpath 1
  generalize Store.empty.run sideBySide = s at *
  rcases h : (saveFile 1 "two.json").perform s with ⟨e | u, t⟩
  · rw [h] at hisOk
    cases hisOk
  obtain ⟨fields, -, hwritten, hread, hinner⟩ := hafter t h
  have hzero : s.problem? 0 = some (annotated []) := by rw [s.problem?_eq, hproblems]; rfl
  have hone : s.problem? 1 = some (annotated twice) := by rw [s.problem?_eq, hproblems]; rfl
  have hrefers : s.RefersTo 1 0 := ⟨_, hone, .content .self List.mem_cons_self⟩
  have hlegible : ∀ a, ReflTransGen s.RefersTo 1 a →
      ∀ p, s.problem? a = some p → p.Legible := by
    intro a _ p hp
    rw [s.problem?_eq, hproblems] at hp
    rcases List.mem_pair.1 (List.mem_of_getElem? hp) with rfl | rfl
    · exact legible_annotated fun y hy => legible_nil hy
    · exact legible_annotated fun y hy => legible_twice hy
  have hlevels : (Json.record fields).depth ≤ s.host.stack.levels := by
    have hwritable := (hreturns.1 ⟨t, h⟩).1
    have hdepth := Value.WrittenAs.depth_le (v := .root 1) hwritten fun w hw =>
      hwritable.depth_le hs hw
    have husual : Stack.usual.levels = 989 := rfl
    rw [hstack, husual]
    exact (Nat.le_add_left _ _).trans (hdepth.trans (by omega))
  obtain ⟨p, x, inner, q, hp, -, -, hholds, hq, -, htimes, -⟩ := hinner 0 (.single hrefers)
  obtain rfl := Option.some_inj.1 (hzero.symm.trans hp)
  exact ⟨s, t, _, fields, inner, q, rfl, hpath, hproblems, h, hread hlegible hlevels, hholds, hq,
    htimes, hback⟩

def bareRecord (metadata : Record Float) : Record Float :=
  [(.text "times", .list [.real 0, .real 1]), (.text "nCoef", .int 1), (.text "nDep", .int 0),
    (.text "solution", .list []), (.text "metadata", .record metadata)]

def chain (n : ℕ) : List (Operation Float) :=
  .load (bareRecord []) ::
    (List.range n).map fun i => .load (bareRecord [(.text "next", .problem i)])

lemma writable_of_isOk (k : Stack) {ops : List (Operation Float)} {id : ℕ}
    (h : (((Store.empty.run ops).withStack k).encode id).outcome.isOk = true) :
    (Store.empty.run ops).Writable id := by
  cases hok : (((Store.empty.run ops).withStack k).encode id).outcome with
  | ok u =>
    have hs : ∀ p ∈ ((Store.empty.run ops).withStack k).problems, p.Sized :=
      fun p (hp : p ∈ (Store.empty.run ops).problems) => Problem.sized_of_mem_run hp
    exact ((Store.encode_ok_iff_writable hs).1 hok).1.of_withStack
  | error e =>
    rw [hok] at h
    cases h

/-- A chain with too many problems, a name with one byte too many and a whole number with one digit
too many. -/
theorem writable_is_not_enough :
    (∃ l t, (Store.empty.run (chain 250)).Writable 250 ∧
      (Store.empty.run (chain 250)).placeToWrite "chain.json" = .ok l ∧
      (saveFile 250 "chain.json").perform (Store.empty.run (chain 250)) = (.error .tooDeep, t)) ∧
    (∃ t, (Store.empty.run (chain 0)).Writable 0 ∧
      (saveFile 0 (Text.ofChars (List.replicate 256 'n'))).perform (Store.empty.run (chain 0)) =
        (.error .nameTooLong, t)) ∧
    let long := (Store.empty.run (chain 0)).after
      (.act 0 (.setMetadata "long" (Json.int (10 ^ 4300)).toValue))
    long.problems.map Problem.isFitted = [true] ∧
      ((saveFile 0 "long.json").perform long).1.isOk = false := by
  refine ⟨?_, ?_, by decide +kernel⟩
  · have hpath := (Store.placeToWrite_of_name (s := Store.empty.run (chain 250))
      (c := "chain.json".toList) ⟨by decide, by decide, by decide, by decide, by decide⟩
        (by decide) (by decide +kernel)).trans (if_neg (by decide))
    have hwritable : (Store.empty.run (chain 250)).Writable 250 :=
      writable_of_isOk ⟨2000, Stack.usualCalls, 0⟩ (by decide +kernel)
    have hfails : ((saveFile 250 "chain.json").perform
        (Store.empty.run (chain 250))).1.isOk = false := by
      decide +kernel
    have hs : ∀ p ∈ (Store.empty.run (chain 250)).problems, p.Sized :=
      fun p hp => Problem.sized_of_mem_run hp
    generalize Store.empty.run (chain 250) = s at *
    rcases h : (saveFile 250 "chain.json").perform s with ⟨e | u, t⟩
    · obtain ⟨place, hplace⟩ := (saveFile_error_iff hpath).1 ⟨t, h⟩
      obtain rfl := hplace.eq_tooDeep hs hwritable
      exact ⟨_, t, hwritable, hpath, rfl⟩
    · rw [h] at hfails
      cases hfails
  · have hpath := (Store.placeToWrite_of_name (s := Store.empty.run (chain 0))
      (c := List.replicate 256 'n') ⟨by decide +kernel, by decide +kernel, by decide +kernel,
        by decide +kernel, by decide +kernel⟩ (by decide +kernel) (by decide +kernel)).trans
          (if_pos (by decide +kernel))
    exact ⟨_, writable_of_isOk .usual (by decide +kernel), perform_saveFile_error hpath 0⟩

end Session

end KnotSpline
