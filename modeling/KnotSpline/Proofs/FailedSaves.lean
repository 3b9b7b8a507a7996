import KnotSpline.Proofs.Runs
import KnotSpline.Proofs.Saves

/-! What a save leaves behind that fails: nothing new if the path names no place to write, and
otherwise the beginning of a text, from which nothing can be loaded any more. -/

namespace KnotSpline

variable {α : Type} [Scalar α] {s : Store α} {path : Text}

namespace Session

/-- The file is emptied before it is known whether there is anything to write, and written to before
it is known whether it can be finished. -/
theorem failed_save {id : ℕ} {s' : Store α} {e : Fault α}
    (h : (saveFile id path).perform s = (.error e, s')) :
    s'.entries = s.entries ∧ s'.log = s.log ∧
    ((s.placeToWrite path = .error e ∧ s' = s) ∨
      ∃ l, s.placeToWrite path = .ok l ∧ (∃ place, (Visit.root id).StopsAt s place e) ∧
        (∀ m, m ≠ l → s'.file? m = s.file? m) ∧
        s'.file? l = some (String.ofList (s.encode id).text).toUTF8 ∧
        Json.BreaksOff α 0 (s.encode id).text ∧
        ∃ flaw : Json.Flaw, (loadFile path).perform s' = (.error flaw.fault, s')) := by
  cases hl : s.placeToWrite path with
  | error e' =>
    rw [perform_saveFile_error hl] at h
    obtain ⟨he, rfl⟩ := Prod.mk.inj h
    exact ⟨rfl, rfl, .inl ⟨congrArg Except.error (Except.error.inj he), rfl⟩⟩
  | ok l =>
    rw [perform_saveFile hl] at h
    obtain ⟨houtcome, rfl⟩ := Prod.mk.inj h
    obtain ⟨hstops, hbreaks⟩ := Store.encode_of_error houtcome
    obtain ⟨flaw, hflaw⟩ := hbreaks.ofText_error s.host.stack.levels
    refine ⟨rfl, rfl, .inr ⟨l, rfl, hstops, fun m hm => s.file?_setFile_of_ne hm.symm _,
      s.file?_setFile_self l _, hbreaks, flaw, ?_⟩⟩
    refine perform_loadFile_of_refused (Store.contentAt_of_placeToWrite ?_
      (s.file?_setFile_self l _)) hflaw
    exact Store.placeToWrite_of_ok (s := s) rfl hl

end Session

def savedLine : Store Float :=
  Store.empty.run
    [.store "line.json" ("\x7b\"type\":\"SplineProblem\",\"times\":[1.0,2.0],\"nCoef\":2," ++
        "\"nDep\":1,\"solution\":[3.0,4.0]\x7d").toUTF8,
      .create (.list [.real 0, .real 1]) (.int 1) (.int 1) (.record []) false,
      .loadFile "line.json",
      .act 1 (.setMetadata "known" (.int 1)),
      .act 1 (.setMetadata "unknown" .foreign)]

theorem unfitted_save_destroys_file :
    ((Session.loadFile "line.json").perform savedLine).1.isOk = true ∧
    ((Session.saveFile 0 "line.json").perform savedLine).1.isOk = false ∧
    ((Session.loadFile "line.json").perform
      ((Session.saveFile 0 "line.json").perform savedLine).2).1.isOk = false := by
  decide +kernel

def unfinishedLine : String :=
  "\x7b\n    \"type\": \"SplineProblem\",\n    \"times\": [\n        1.0,\n        2.0\n" ++
    "    ],\n    \"nCoef\": 2,\n    \"nDep\": 1,\n    \"solution\": [\n        [\n" ++
    "            [\n                3.0,\n                4.0\n            ]\n        ]\n" ++
    "    ],\n    \"metadata\": \x7b\n        \"known\": 1,\n        \"unknown\": "

theorem failed_save_of_savedLine : ∃ e s' l flaw,
    (Session.saveFile 1 "line.json").perform savedLine = (.error e, s') ∧
    s'.entries = savedLine.entries ∧ s'.file? l = some unfinishedLine.toUTF8 ∧
    (Session.loadFile "line.json").perform s' = (.error (Json.Flaw.fault flaw), s') := by
  have hfail : ((Session.saveFile 1 "line.json").perform savedLine).1.isOk = false := by
    decide +kernel
  have hplace : (savedLine.placeToWrite "line.json").isOk = true := by decide +kernel
  have htext : (savedLine.encode 1).text = unfinishedLine.toList := by decide +kernel
  rcases h : (Session.saveFile 1 "line.json").perform savedLine with ⟨e | u, s'⟩
  · obtain ⟨hentries, -, ⟨hno, -⟩ | ⟨l, hl, -, -, hcontent, -, flaw, hload⟩⟩ :=
      Session.failed_save h
    · rw [hno] at hplace
      cases hplace
    · rw [htext, String.ofList_toList] at hcontent
      exact ⟨e, s', l, flaw, rfl, hentries, hcontent, hload⟩
  · rw [h] at hfail
    cases hfail

end KnotSpline
