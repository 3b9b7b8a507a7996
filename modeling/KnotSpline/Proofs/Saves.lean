import KnotSpline.Proofs.Places
import KnotSpline.Proofs.WrittenValues

/-! A file is written piece by piece, so that a save leaves exactly the text that it came to. -/

namespace KnotSpline

variable {α : Type}

namespace Store

variable {s t : Store α} {l : Location}

lemma append_setFile (s : Store α) (l : Location) (content more : ByteArray) :
    (s.setFile l content).append l more = s.setFile l (content ++ more) := by
  rw [append, file?_setFile_self, Option.getD_some, setFile_setFile]

variable [Scalar α]

lemma writeObject_congr (hentries : t.entries = s.entries) (hhost : t.host = s.host) (fuel : ℕ) :
    t.writeObject fuel = s.writeObject fuel := by
  have hstand : t.standIn = s.standIn := by
    funext v
    cases v with
    | problem id => rw [standIn, standIn, problem?, problem?, hentries]
    | null | bool | int | real | text | list | record | array | foreign => rfl
  induction fuel with
  | zero => rfl
  | succ fuel ih =>
    funext around level depth v
    rw [writeObject, writeObject, hhost, hstand, ih]

lemma encode_congr (hentries : t.entries = s.entries) (hhost : t.host = s.host) (id : ℕ) :
    t.encode id = s.encode id := by
  rw [encode, encode, writeObject_congr hentries hhost, hentries]

end Store

namespace Session

variable {s : Store α} {path : Text} {l : Location}

lemma perform_openToWrite (h : s.placeToWrite path = .ok l) :
    (openToWrite path).perform s = (.ok l, s.setFile l ByteArray.empty) := by
  rw [openToWrite, perform_bind_ok (perform_get s), h, perform_bind_ok (perform_ofExcept _ s)]
  rfl

lemma perform_openToWrite_error {e : Fault α} (h : s.placeToWrite path = .error e) :
    (openToWrite path).perform s = (.error e, s) := by
  rw [openToWrite, perform_bind_ok (perform_get s), h, perform_bind_error (perform_ofExcept _ s)]

lemma perform_writeChunk (s : Store α) (l : Location) (written chunk : List Char) :
    (writeChunk l chunk).perform (s.setFile l (String.ofList written).toUTF8) =
      (.ok (), s.setFile l (String.ofList (written ++ chunk)).toUTF8) := by
  have hbytes : (String.ofList (written ++ chunk)).toUTF8 =
      (String.ofList written).toUTF8 ++ (String.ofList chunk).toUTF8 := by
    rw [String.ofList_append]
    exact String.toByteArray_append
  rw [writeChunk, perform_modify, Store.append_setFile, hbytes]

theorem perform_writeChunks (s : Store α) (l : Location) (chunks : List (List Char))
    (written : List Char) :
    (chunks.forM (writeChunk l)).perform (s.setFile l (String.ofList written).toUTF8) =
      (.ok (), s.setFile l (String.ofList (written ++ chunks.flatten)).toUTF8) := by
  induction chunks generalizing written with
  | nil =>
    rw [List.flatten_nil, List.append_nil]
    rfl
  | cons chunk chunks ih =>
    rw [List.forM, perform_bind_ok (perform_writeChunk s l written chunk), ih, List.flatten_cons,
      List.append_assoc]

lemma perform_fetch {content : ByteArray} (h : s.contentAt path = .ok content) :
    (fetch path).perform s = (.ok content, s) := by
  rw [fetch, perform_bind_ok (perform_get s), perform_ofExcept, h]

lemma perform_textOf (text : String) (s : Store α) :
    (textOf text.toUTF8).perform s = (.ok text, s) := by
  have h : String.fromUTF8? text.toUTF8 = some text := dif_pos text.isValidUTF8
  rw [textOf, h]
  rfl

variable [Scalar α]

/-- A save changes nothing but the file, which holds what has been written until the save ended. -/
theorem perform_saveFile (h : s.placeToWrite path = .ok l) (id : ℕ) :
    (saveFile id path).perform s =
      ((s.encode id).outcome, s.setFile l (String.ofList (s.encode id).text).toUTF8) := by
  have hencode := Store.encode_congr (s := s) (t := s.setFile l ByteArray.empty) rfl rfl id
  have hempty : s.setFile l ByteArray.empty = s.setFile l (String.ofList []).toUTF8 := rfl
  rw [saveFile, perform_bind_ok (perform_openToWrite h), perform_bind_ok (perform_get _), hencode,
    hempty, perform_bind_ok (perform_writeChunks s l _ []), perform_ofExcept, List.nil_append]
  rfl

lemma perform_saveFile_error {e : Fault α} (h : s.placeToWrite path = .error e) (id : ℕ) :
    (saveFile id path).perform s = (.error e, s) := by
  rw [saveFile, perform_bind_error (perform_openToWrite_error h)]

lemma perform_readRecord {text : String} {fields : List (Text × Json α)}
    (hc : s.contentAt path = .ok text.toUTF8)
    (ht : Json.ofText s.host.stack.levels text = .ok (.record fields))
    (hn : Record.get? (Json.toFields fields) (.text "type") = some (.text Problem.recordType)) :
    (readRecord path).perform s = (.ok (Json.toFields fields), s) := by
  rw [readRecord, perform_bind_ok (perform_fetch hc), perform_bind_ok (perform_textOf text s),
    perform_bind_ok (perform_get s), ht]
  dsimp only
  rw [Json.toValue]
  dsimp only
  rw [hn]
  rfl

lemma perform_loadFile_of_refused {text : String} {flaw : Json.Flaw}
    (hc : s.contentAt path = .ok text.toUTF8)
    (ht : (Json.ofText s.host.stack.levels text : Except Json.Flaw (Json α)) = .error flaw) :
    (loadFile path).perform s = (.error flaw.fault, s) := by
  have hread : (readRecord path).perform s = (.error flaw.fault, s) := by
    rw [readRecord, perform_bind_ok (perform_fetch hc), perform_bind_ok (perform_textOf text s),
      perform_bind_ok (perform_get s), ht]
    rfl
  exact perform_bind_error hread _

end Session

end KnotSpline
