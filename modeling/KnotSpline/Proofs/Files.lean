import KnotSpline.Proofs.RoomNeeded
import KnotSpline.Proofs.Saves
import KnotSpline.Proofs.WrittenProblems

/-! Problems in files: what is saved is loaded again, and gives the same answers. -/

namespace KnotSpline

open Relation

variable {α : Type} [Scalar α]

namespace Json

variable {j : Json α} {y : Value α}

lemma writtenAs_toValue (s : Store α) (j : Json α) : j.toValue.WrittenAs s j := by
  induction j using Json.nesting with
  | null => exact .null
  | bool b => exact .bool b
  | int z => exact .int z
  | real x => exact .real x
  | text t => exact .text t
  | list js ih =>
    rw [toValue, toValues_eq]
    exact .list (List.forall₂_map_left_iff.2 (List.forall₂_same.2 ih))
  | record js ih =>
    rw [toValue, toFields_eq]
    refine .record ?_ ?_
    · rw [List.map_map]
      rfl
    · rw [List.map_map, List.forall₂_map_left_iff, List.forall₂_map_right_iff]
      exact List.forall₂_same.2 ih

lemma Storable.exists_of_holds (h : j.Storable) (hy : j.toValue.Holds y) :
    ∃ i : Json α, y = i.toValue ∧ i.Storable := by
  induction hy with
  | self => exact ⟨j, rfl, h⟩
  | item _ hx ih =>
    obtain ⟨i, hi, hs⟩ := ih
    cases hs with
    | @list js hs =>
      rw [toValue, toValues_eq] at hi
      rw [Value.list.inj hi] at hx
      obtain ⟨i, hmem, rfl⟩ := List.mem_map.1 hx
      exact ⟨i, rfl, hs i hmem⟩
    | _ => cases hi
  | key _ hf ih =>
    obtain ⟨i, hi, hs⟩ := ih
    cases hs with
    | @record js _ hnamed _ =>
      rw [toValue, toFields_eq] at hi
      rw [Value.record.inj hi] at hf
      obtain ⟨f, hmem, rfl⟩ := List.mem_map.1 hf
      obtain ⟨cs, hcs⟩ := hnamed f hmem
      exact ⟨.text (Text.ofChars cs), congrArg Value.text hcs, .text cs⟩
    | _ => cases hi
  | content _ hf ih =>
    obtain ⟨i, hi, hs⟩ := ih
    cases hs with
    | @record js _ _ hs =>
      rw [toValue, toFields_eq] at hi
      rw [Value.record.inj hi] at hf
      obtain ⟨f, hmem, rfl⟩ := List.mem_map.1 hf
      exact ⟨f.2, rfl, hs f hmem⟩
    | _ => cases hi
  | entries _ ih =>
    obtain ⟨i, hi, hs⟩ := ih
    cases hs <;> cases hi

end Json

namespace Problem

variable {p : Problem α} {x : Solution α} {metadata : List (Text × Json α)}

/-- A problem with a solution whose metadata is made of JSON values, none of them too long to be
written, and whose scalars are found again in their texts. -/
structure Storable (p : Problem α) (x : Solution α) (metadata : List (Text × Json α)) : Prop where
  solution_eq : p.phase.solution? = some x
  metadata_eq : p.metadata = Json.toFields metadata
  metadata_storable : (Json.record metadata).Storable
  times_readBack : ∀ t ∈ p.times, Scalar.ReadsBack t
  coefficients_readBack : ∀ block ∈ x, ∀ row ∈ block, ∀ c ∈ row, Scalar.ReadsBack c

def fileText (p : Problem α) (x : Solution α) (metadata : List (Text × Json α)) : String :=
  (Json.record (p.fileFields x metadata)).toText

namespace Storable

variable {s : Store α} {id : ℕ} {y : Value α}

lemma reloaded (h : p.Storable x metadata) : (p.reloaded x).Storable x metadata :=
  ⟨rfl, h.metadata_eq, h.metadata_storable, h.times_readBack, h.coefficients_readBack⟩

lemma exists_of_holds (h : p.Storable x metadata) (hy : (Value.record p.metadata).Holds y) :
    ∃ j : Json α, y = j.toValue ∧ j.Storable := by
  have hmetadata : Value.record p.metadata = (Json.record metadata).toValue := by
    rw [Json.toValue, h.metadata_eq]
  exact h.metadata_storable.exists_of_holds (hmetadata ▸ hy)

lemma not_holds_problem (h : p.Storable x metadata) (id : ℕ) :
    ¬(Value.record p.metadata).Holds (.problem id) := by
  intro hid
  obtain ⟨j, hj, -⟩ := h.exists_of_holds hid
  cases j <;> cases hj

lemma writable (h : p.Storable x metadata) : p.Writable where
  fitted := isFitted_eq_true_iff.2 ⟨x, h.solution_eq⟩
  not_foreign hforeign := by
    obtain ⟨j, hj, -⟩ := h.exists_of_holds hforeign
    cases j <;> cases hj
  isShort z hz := by
    obtain ⟨j, hj, hs⟩ := h.exists_of_holds hz
    cases hs with
    | int short =>
      cases hj
      exact short
    | _ => cases hj

lemma writable_store (h : p.Storable x metadata) (hp : s.problem? id = some p) :
    s.Writable id := by
  have hnone (b : ℕ) : ¬s.RefersTo id b := by
    rintro ⟨q, hq, hb⟩
    obtain rfl := Option.some_inj.1 (hp.symm.trans hq)
    exact h.not_holds_problem b hb
  have hself {a : ℕ} (ha : ReflTransGen s.RefersTo id a) : a = id := by
    obtain rfl | ⟨b, hb, -⟩ := ha.cases_head
    · rfl
    · exact absurd hb (hnone b)
  refine ⟨fun a ha => ⟨p, hself ha ▸ hp, h.writable⟩, fun a ha hcycle => ?_⟩
  obtain ⟨b, hb, -⟩ := TransGen.head'_iff.1 (hself ha ▸ hcycle)
  exact hnone b hb

lemma encode (h : p.Storable x metadata) (hs : ∀ q ∈ s.problems, q.Sized)
    (hp : s.problem? id = some p) (hroom : (Visit.root id).Within s) :
    (s.encode id).outcome = .ok () ∧ String.ofList (s.encode id).text = p.fileText x metadata := by
  have hclear : (Visit.root id).Clear s :=
    Visit.clear_iff.2 ⟨(Visit.flawless_root_iff hs).2 (h.writable_store hp), hroom⟩
  have hok := Store.encode_ok_iff.2 hclear
  obtain ⟨-, j, hj, htext⟩ := Store.encode_of_ok hok
  obtain ⟨q, y, metadata', hq, hy, hwritten, rfl⟩ := hj.exists_fileFields hs
  obtain rfl := Option.some_inj.1 (hp.symm.trans hq)
  obtain rfl := Option.some_inj.1 (h.solution_eq.symm.trans hy)
  have hmetadata := Json.writtenAs_toValue s (Json.record metadata)
  rw [Json.toValue, ← h.metadata_eq] at hmetadata
  obtain rfl := Json.record.inj (hwritten.unique hmetadata)
  exact ⟨hok, congrArg String.ofList htext⟩

theorem saveFile (h : p.Storable x metadata) (hs : ∀ q ∈ s.problems, q.Sized)
    (hp : s.problem? id = some p) (hroom : (Visit.root id).Within s) {path : Text} {l : Location}
    (hpath : s.placeToWrite path = .ok l) : (Session.saveFile id path).perform s =
      (.ok (), s.setFile l (p.fileText x metadata).toUTF8) := by
  obtain ⟨hok, htext⟩ := h.encode hs hp hroom
  rw [Session.perform_saveFile hpath, hok, htext]

theorem loadFile (h : p.Storable x metadata) (hp : p.Sized)
    (hlevels : (Json.record (p.fileFields x metadata)).depth ≤ s.host.stack.levels) {path : Text}
    (hc : s.contentAt path = .ok (p.fileText x metadata).toUTF8) :
    ∃ t, (Session.loadFile path).perform s = (.ok s.entries.length, t) ∧
      t.problems = s.problems ++ [p.reloaded x] ∧ t.host = s.host := by
  have htext : Json.ofText s.host.stack.levels (p.fileText x metadata) =
      .ok (Json.record (p.fileFields x metadata)) :=
    Json.ofText_toText
      (storable_fileFields hp h.times_readBack h.coefficients_readBack h.metadata_storable) hlevels
  obtain ⟨p', hopen, hload⟩ := ofRecord_fileFields hp h.solution_eq h.metadata_eq
  refine ⟨{ s with
    entries := s.entries ++ [⟨p.reloaded x, none⟩]
    log := s.log ++ [p'.summary] }, ?_, ?_, rfl⟩
  · rw [Session.loadFile, Session.perform_bind_ok (Session.perform_readRecord hc htext rfl)]
    exact Session.perform_load hopen hload s
  · simp [Store.problems]

end Storable

/-- What is saved at a place to write is loaded from there as a new problem that is like the one
that was saved, and saving the new one anywhere writes the same text. -/
theorem file_roundTrip {ops : List (Operation α)} {s : Store α} (hops : Store.empty.run ops = s)
    {id : ℕ} (hid : s.problems[id]? = some p) (h : p.Storable x metadata) {path : Text}
    {l : Location} (hpath : s.placeToWrite path = .ok l) (hroom : (Visit.root id).Within s)
    (hlevels : (Json.record (p.fileFields x metadata)).depth ≤ s.host.stack.levels) :
    ∃ (text : String) (saved loaded : Store α) (q : Problem α),
      (Session.saveFile id path).perform s = (.ok (), saved) ∧
      saved.file? l = some text.toUTF8 ∧
      (Session.loadFile path).perform saved = (.ok saved.entries.length, loaded) ∧
      loaded.problems = s.problems ++ [q] ∧ q.phase = .loaded x ∧ q.Alike p ∧
      ∀ path' l', loaded.placeToWrite path' = .ok l' → ∃ again,
        (Session.saveFile saved.entries.length path').perform loaded = (.ok (), again) ∧
        again.file? l' = some text.toUTF8 := by
  have hs : ∀ q ∈ s.problems, q.Sized := hops ▸ fun q hq => sized_of_mem_run hq
  have hp : p.Sized := hs p (List.mem_of_getElem? hid)
  rw [← s.problem?_eq] at hid
  have hpath' : (s.setFile l (p.fileText x metadata).toUTF8).placeToWrite path = .ok l :=
    Store.placeToWrite_of_ok (s := s) rfl hpath
  have hcontent := Store.contentAt_of_placeToWrite hpath' (s.file?_setFile_self l _)
  obtain ⟨loaded, hload, hproblems, hhost⟩ :=
    h.loadFile (s := s.setFile l (p.fileText x metadata).toUTF8) hp hlevels hcontent
  have hq : loaded.problem? s.entries.length = some (p.reloaded x) := by
    have hl : s.problems.length = s.entries.length := List.length_map _
    rw [Store.problem?_eq, hproblems, ← hl]
    exact List.getElem?_concat_length
  have hsized : ∀ q ∈ loaded.problems, q.Sized := by
    rw [hproblems]
    exact List.forall_mem_append.2
      ⟨hs, List.forall_mem_singleton.2 (hp.reloaded h.solution_eq)⟩
  have hrecord := toRecord_eq h.solution_eq
  have halone (b : ℕ) (hb : (Value.record (p.recordOf x)).Holds (.problem b)) : False :=
    h.not_holds_problem b (holds_of_toRecord hrecord hb)
  have hroom' : (Visit.root s.entries.length).Within loaded :=
    Visit.within_root_of_toRecord hid hrecord hq (toRecord_eq rfl) halone hhost hroom
  refine ⟨p.fileText x metadata, _, loaded, p.reloaded x, h.saveFile hs hid hroom hpath,
    s.file?_setFile_self l _, hload, hproblems, rfl, alike_reloaded h.solution_eq,
    fun path' l' hpath' => ?_⟩
  exact ⟨_, h.reloaded.saveFile hsized hq hroom' hpath', loaded.file?_setFile_self l' _⟩

def notes : List (Text × Json Float) :=
  [("name", .text "line"), ("count", .int 3),
    ("weights", .list [.real 0.5, .null, .bool true, .record []])]

def notedLine : Problem Float where
  times := [1, 2]
  coefficientCount := 2
  outputCount := 1
  rowIndex := 2
  phase := .loaded [[[0 / 0, -0.0]]]
  rankTolerance := .null
  metadata := Json.toFields notes

lemma sized_notedLine : notedLine.Sized where
  two_le_knotCount := by decide
  finite := by decide +kernel
  increasing := by decide +kernel
  one_le_coefficientCount := by decide
  checkExtents := rfl
  hasSolution x hx := by
    obtain rfl := Option.some_inj.1 hx
    simp [HasSolution, notedLine, segmentCount, knotCount]

lemma storable_notes : (Json.record notes).Storable := by
  have hweights : (Json.list [.real (0.5 : Float), .null, .bool true, .record []]).Storable := by
    refine .list fun j hj => ?_
    simp only [List.mem_cons, List.not_mem_nil, or_false] at hj
    rcases hj with rfl | rfl | rfl | rfl
    · exact .real (by decide +kernel)
    · exact .null
    · exact .bool true
    · exact .record List.nodup_nil (List.forall_mem_nil _) (List.forall_mem_nil _)
  refine .record (by decide) ?_ ?_
  · intro f hf
    simp only [notes, List.mem_cons, List.not_mem_nil, or_false] at hf
    rcases hf with rfl | rfl | rfl <;> exact ⟨_, rfl⟩
  · intro f hf
    simp only [notes, List.mem_cons, List.not_mem_nil, or_false] at hf
    rcases hf with rfl | rfl | rfl
    · exact .text _
    · exact .int (by decide +kernel)
    · exact hweights

lemma storable_notedLine : notedLine.Storable [[[0 / 0, -0.0]]] notes where
  solution_eq := rfl
  metadata_eq := rfl
  metadata_storable := storable_notes
  times_readBack := by decide +kernel
  coefficients_readBack := by decide +kernel

lemma ofRecord_notedLine :
    ofRecord (Json.toFields (notedLine.fileFields [[[0 / 0, -0.0]]] notes)) = .ok notedLine := by
  have h := storable_notedLine
  obtain ⟨p, hopen, hload⟩ := ofRecord_fileFields sized_notedLine h.solution_eq h.metadata_eq
  rw [ofRecord, hopen]
  exact hload

def lineElsewhere : List (Operation Float) :=
  [.host { Host.usual with directories := [[Path.encoded "tmp"]] },
    .load (Json.toFields (notedLine.fileFields [[[0 / 0, -0.0]]] notes))]

theorem file_roundTrip_of_line : ∃ (saved loaded : Store Float) (q : Problem Float),
    (Store.empty.run lineElsewhere).problems = [notedLine] ∧
    (Store.empty.run lineElsewhere).placeToWrite "/tmp/line.json" =
      .ok ⟨[Path.encoded "tmp"], Path.encoded "line.json"⟩ ∧
    (Session.saveFile 0 "/tmp/line.json").perform (Store.empty.run lineElsewhere) =
      (.ok (), saved) ∧
    (Session.loadFile "/tmp/line.json").perform saved = (.ok saved.entries.length, loaded) ∧
    loaded.problems = [notedLine, q] ∧ q.Alike notedLine := by
  have hproblems : (Store.empty.run lineElsewhere).problems = [notedLine] :=
    Store.problems_after_load ofRecord_notedLine _
  have hpath : (Store.empty.run lineElsewhere).placeToWrite "/tmp/line.json" =
      .ok ⟨[Path.encoded "tmp"], Path.encoded "line.json"⟩ := by
    refine (Store.placeToWrite_of_names true [Path.encoded "tmp"] (Path.encoded "line.json")
      (by decide) ?_ (by decide) rfl ?_ (by decide)).trans (if_neg (by decide))
    · intro n hn
      rcases List.mem_pair.1 hn with rfl | rfl <;>
        exact ⟨by decide, by decide, by decide, by decide, by decide⟩
    · intro ns hns hne
      rcases List.prefix_cons_iff.1 hns with rfl | ⟨ms, rfl, hms⟩
      · exact absurd rfl hne
      · obtain rfl := List.prefix_nil.1 hms
        decide
  have hid : (Store.empty.run lineElsewhere).problems[0]? = some notedLine := by
    rw [hproblems]
    rfl
  have hneeded : (Store.empty.run lineElsewhere).roomNeeded ≤ 985 := by
    rw [Store.roomNeeded, hproblems]
    decide +kernel
  have hroom : (Visit.root 0).Within (Store.empty.run lineElsewhere) :=
    (storable_notedLine.writable_store ((Store.problem?_eq _ 0).trans hid)).within
      (fun q hq => sized_of_mem_run hq) (Stack.takes_usual hneeded)
  obtain ⟨text, saved, loaded, q, hsave, -, hload, hq, -, halike, -⟩ :=
    file_roundTrip rfl hid storable_notedLine hpath hroom (by decide +kernel)
  rw [hproblems] at hq
  exact ⟨saved, loaded, q, hproblems, hpath, hsave, hload, hq, halike⟩

def nestedLists : ℕ → Json α
  | 0 => .null
  | n + 1 => .list [nestedLists n]

/-- A name with one byte too many, a list with more levels than the stack has room for and a whole
number with one digit too many. -/
theorem not_everything_is_saved :
    let s := Store.empty.after (.load (lineRecord (1 : Float) 2 3 4))
    let deep := s.after (.act 0 (.setMetadata "deep" (nestedLists 1000).toValue))
    let long := s.after (.act 0 (.setMetadata "long" (Json.int (10 ^ 4300)).toValue))
    s.problems.map isFitted = [true] ∧ deep.problems.map isFitted = [true] ∧
    long.problems.map isFitted = [true] ∧
    ((Session.saveFile 0 (Text.ofChars (List.replicate 256 'n'))).perform s).1.isOk = false ∧
    ((Session.saveFile 0 "deep.json").perform deep).1.isOk = false ∧
    ((Session.saveFile 0 "long.json").perform long).1.isOk = false := by
  decide +kernel

end Problem

end KnotSpline
