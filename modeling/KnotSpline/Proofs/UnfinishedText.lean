import KnotSpline.Proofs.JsonText

/-! Texts of JSON that break off before their end are refused. What is finished in them is passed
over by a reader, whatever it finds there, and after it the end of the text comes too early. -/

namespace KnotSpline.Json

open Text Decimal.Layout

section Definitions

variable (α : Type) [Scalar α]

/-- A text of a value that breaks off: before anything is written, or within a list or record, some
parts of which may be finished. -/
inductive BreaksOff : ℕ → List Char → Prop
  | nothing (level : ℕ) : BreaksOff level []
  | firstItem {level : ℕ} {cs : List Char} (h : BreaksOff (level + 1) cs) :
    BreaksOff level ('[' :: (newLine (level + 1) ++ cs))
  | afterItems {level : ℕ} (x : Json α) (xs : List (Json α)) : BreaksOff level
      ('[' :: (newLine (level + 1) ++ (write (level + 1) x ++ writeItems (level + 1) xs)))
  | nextItem {level : ℕ} (x : Json α) (xs : List (Json α)) {cs : List Char}
    (h : BreaksOff (level + 1) cs) : BreaksOff level
      ('[' :: (newLine (level + 1) ++ (write (level + 1) x ++ (writeItems (level + 1) xs ++
        ',' :: (newLine (level + 1) ++ cs)))))
  | firstName (level : ℕ) : BreaksOff level ('\x7b' :: newLine (level + 1))
  | firstField {level : ℕ} (name : Text) {cs : List Char} (h : BreaksOff (level + 1) cs) :
    BreaksOff level
      ('\x7b' :: (newLine (level + 1) ++ (writeText name ++ (": ".toList ++ cs))))
  | afterFields {level : ℕ} (name : Text) (v : Json α) (fields : List (Text × Json α)) :
    BreaksOff level
      ('\x7b' :: (newLine (level + 1) ++ (writeText name ++ (": ".toList ++
        (write (level + 1) v ++ writeFields (level + 1) fields)))))
  | nextField {level : ℕ} (name : Text) (v : Json α) (fields : List (Text × Json α))
    (next : Text) {cs : List Char} (h : BreaksOff (level + 1) cs) : BreaksOff level
      ('\x7b' :: (newLine (level + 1) ++ (writeText name ++ (": ".toList ++
        (write (level + 1) v ++ (writeFields (level + 1) fields ++
          ',' :: (newLine (level + 1) ++ (writeText next ++ (": ".toList ++ cs)))))))))

def Refused (cs : List Char) : Prop :=
  ∀ (fuel room : ℕ) (j : Json α) (rest : List Char), readValue fuel room cs ≠ .ok (j, rest)

end Definitions

variable {α : Type} [Scalar α]

/-- Whatever is read in the place of the value, the rest of the text is what follows it. -/
def PassedOver (j : Json α) : Prop :=
  ∀ {fuel room level : ℕ} {rest rest' : List Char} {x : Json α}, Ends rest →
    readValue fuel room (write level j ++ rest) = .ok (x, rest') → rest' = rest

omit [Scalar α] in
theorem nesting {motive : Json α → Prop} (null : motive .null) (bool : ∀ b, motive (.bool b))
    (int : ∀ z, motive (.int z)) (real : ∀ x, motive (.real x)) (text : ∀ s, motive (.text s))
    (list : ∀ xs, (∀ x ∈ xs, motive x) → motive (.list xs))
    (record : ∀ fields : List (Text × Json α), (∀ f ∈ fields, motive f.2) →
      motive (.record fields)) (j : Json α) : motive j :=
  @Json.rec α motive (fun xs => ∀ x ∈ xs, motive x) (fun fields => ∀ f ∈ fields, motive f.2)
    (fun f => motive f.2) null bool int real text list record
    (List.forall_mem_nil _) (fun _ _ hx hxs => List.forall_mem_cons.2 ⟨hx, hxs⟩)
    (List.forall_mem_nil _) (fun _ _ hf hfs => List.forall_mem_cons.2 ⟨hf, hfs⟩)
    (fun _ _ hv => hv) j

section Parts

variable {fuel room level : ℕ} {rest tail : List Char} {x : Json α} {xs : List (Json α)}
  {fields before : List (Text × Json α)} {name : Text}

lemma readItems_cases {cs : List Char} (h : readItems fuel room cs = .ok (xs, rest)) :
    ∃ (fuel' : ℕ) (j : Json α) (after : List Char), readValue fuel' room cs = .ok (j, after) ∧
      (skipBlanks after = ']' :: rest ∨ ∃ ds ys, skipBlanks after = ',' :: ds ∧
        readItems fuel' room ds = .ok ((ys : List (Json α)), rest)) := by
  cases fuel with
  | zero =>
    rw [readItems] at h
    cases h
  | succ fuel =>
    rw [readItems, bind_eq_ok_iff] at h
    obtain ⟨⟨j, after⟩, hj, h⟩ := h
    refine ⟨fuel, j, after, hj, ?_⟩
    dsimp only at h
    split at h
    · next ds hds =>
      rw [bind_eq_ok_iff] at h
      obtain ⟨⟨ys, _⟩, hys, h⟩ := h
      cases h
      exact .inr ⟨ds, ys, hds, hys⟩
    · next ds hds =>
      cases h
      exact .inl hds
    · cases h

lemma readFields_cases {cs : List Char}
    (h : readFields fuel room before (writeText name ++ (": ".toList ++ cs)) = .ok (fields, rest)) :
    ∃ (fuel' : ℕ) (j : Json α) (after : List Char) (known : List (Text × Json α)),
      readValue fuel' room cs = .ok (j, after) ∧
      (skipBlanks after = '\x7d' :: rest ∨ ∃ ds, skipBlanks after = ',' :: ds ∧
        readFields fuel' room known ds = .ok (fields, rest)) := by
  cases fuel with
  | zero =>
    rw [readFields] at h
    cases h
  | succ fuel =>
    obtain ⟨quoted, s, hw, hs⟩ := readText_points name
    have hquote : skipBlanks ('"' :: quoted ++ (": ".toList ++ cs)) =
        '"' :: (quoted ++ (": ".toList ++ cs)) := rfl
    have hcolon : skipBlanks (": ".toList ++ cs) = ':' :: ' ' :: cs := rfl
    have hblank : skipBlanks (' ' :: cs) = skipBlanks cs := rfl
    rw [readFields, hw, hquote] at h
    simp only [hs, hcolon, readValue_congr hblank] at h
    rw [bind_eq_ok_iff] at h
    obtain ⟨⟨j, after⟩, hj, h⟩ := h
    refine ⟨fuel, j, after, setField before s j, hj, ?_⟩
    dsimp only at h
    split at h
    · next ds hds => exact .inr ⟨ds, hds, h⟩
    · next ds hds =>
      cases h
      exact .inl hds
    · cases h

lemma readItems_passed (h : ∀ y ∈ x :: xs, y.PassedOver) (ht : Ends tail) {ys : List (Json α)}
    (hok : readItems fuel room (write level x ++ (writeItems level xs ++ tail)) = .ok (ys, rest)) :
    skipBlanks tail = ']' :: rest ∨ ∃ (fuel' : ℕ) (ds : List Char) (zs : List (Json α)),
      skipBlanks tail = ',' :: ds ∧ readItems fuel' room ds = .ok (zs, rest) := by
  induction xs generalizing x fuel ys with
  | nil =>
    obtain ⟨fuel', j, after, hj, hafter⟩ := readItems_cases hok
    obtain rfl := h x List.mem_cons_self (ends_writeItems [] ht) hj
    rcases hafter with hend | ⟨ds, zs, hds, hzs⟩
    · exact .inl hend
    · exact .inr ⟨fuel', ds, zs, hds, hzs⟩
  | cons y xs ih =>
    obtain ⟨fuel', j, after, hj, hafter⟩ := readItems_cases hok
    obtain rfl := h x List.mem_cons_self (ends_writeItems (y :: xs) ht) hj
    have hs : skipBlanks (writeItems level (y :: xs) ++ tail) =
        ',' :: (newLine level ++ (write level y ++ (writeItems level xs ++ tail))) := by
      rw [writeItems, List.append_assoc, List.append_assoc]
      rfl
    rw [hs] at hafter
    rcases hafter with hend | ⟨ds, zs, hds, hzs⟩
    · cases hend
    · obtain rfl := (List.cons.inj hds).2
      rw [readItems_congr (skipBlanks_newLine level _)] at hzs
      exact ih (fun z hz => h z (List.mem_cons_of_mem _ hz)) hzs

lemma readFields_passed {f : Text × Json α} {fs : List (Text × Json α)}
    (h : ∀ g ∈ f :: fs, g.2.PassedOver) (ht : Ends tail)
    (hok : readFields fuel room before (writeText f.1 ++ (": ".toList ++
      (write level f.2 ++ (writeFields level fs ++ tail)))) = .ok (fields, rest)) :
    skipBlanks tail = '\x7d' :: rest ∨ ∃ (fuel' : ℕ) (known : List (Text × Json α))
      (ds : List Char), skipBlanks tail = ',' :: ds ∧
        readFields fuel' room known ds = .ok (fields, rest) := by
  induction fs generalizing f fuel before with
  | nil =>
    obtain ⟨fuel', j, after, known, hj, hafter⟩ := readFields_cases hok
    obtain rfl := h f List.mem_cons_self (ends_writeFields [] ht) hj
    rcases hafter with hend | ⟨ds, hds, hfields⟩
    · exact .inl hend
    · exact .inr ⟨fuel', known, ds, hds, hfields⟩
  | cons g fs ih =>
    obtain ⟨fuel', j, after, known, hj, hafter⟩ := readFields_cases hok
    obtain rfl := h f List.mem_cons_self (ends_writeFields (g :: fs) ht) hj
    have hs : skipBlanks (writeFields level (g :: fs) ++ tail) =
        ',' :: (newLine level ++ (writeText g.1 ++ (": ".toList ++ (write level g.2 ++
          (writeFields level fs ++ tail))))) := by
      rw [writeFields]
      simp only [List.append_assoc]
      rfl
    rw [hs] at hafter
    rcases hafter with hend | ⟨ds, hds, hfields⟩
    · cases hend
    · obtain rfl := (List.cons.inj hds).2
      rw [readFields_congr (skipBlanks_newLine level _)] at hfields
      exact ih (fun g' hg => h g' (List.mem_cons_of_mem _ hg)) hfields

lemma readValue_opened_list {cs : List Char} (hb : ∀ ds, skipBlanks cs ≠ ']' :: ds)
    (h : readValue fuel room ('[' :: (newLine level ++ cs)) = .ok (x, rest)) :
    ∃ (fuel' room' : ℕ) (xs : List (Json α)),
      readItems fuel' room' (skipBlanks cs) = .ok (xs, rest) := by
  cases fuel with
  | zero =>
    rw [readValue] at h
    cases h
  | succ fuel =>
    have hskip : skipBlanks ('[' :: (newLine level ++ cs)) = '[' :: (newLine level ++ cs) := rfl
    rw [readValue, hskip] at h
    simp only [skipBlanks_newLine] at h
    split at h
    · cases h
    · next hds => exact absurd hds (hb _)
    · rw [bind_eq_ok_iff] at h
      obtain ⟨⟨xs, _⟩, hxs, h⟩ := h
      cases h
      exact ⟨fuel, _, xs, hxs⟩

lemma readValue_opened_record {cs : List Char} (hb : ∀ ds, skipBlanks cs ≠ '\x7d' :: ds)
    (h : readValue fuel room ('\x7b' :: (newLine level ++ cs)) = .ok (x, rest)) :
    ∃ (fuel' room' : ℕ) (fields : List (Text × Json α)),
      readFields fuel' room' [] (skipBlanks cs) = .ok (fields, rest) := by
  cases fuel with
  | zero =>
    rw [readValue] at h
    cases h
  | succ fuel =>
    have hskip : skipBlanks ('\x7b' :: (newLine level ++ cs)) =
        '\x7b' :: (newLine level ++ cs) := rfl
    rw [readValue, hskip] at h
    simp only [skipBlanks_newLine] at h
    split at h
    · cases h
    · next hds => exact absurd hds (hb _)
    · rw [bind_eq_ok_iff] at h
      obtain ⟨⟨fields, _⟩, hfields, h⟩ := h
      cases h
      exact ⟨fuel, _, fields, hfields⟩

lemma exists_readItems {y : Json α} {level' : ℕ}
    (h : readValue fuel room ('[' :: (newLine level' ++ (write level y ++ tail))) = .ok (x, rest)) :
    ∃ (fuel' room' : ℕ) (xs : List (Json α)),
      readItems fuel' room' (write level y ++ tail) = .ok (xs, rest) := by
  obtain ⟨hb, hne, -⟩ := (starts_write level y).skipBlanks tail
  rw [← hb]
  exact readValue_opened_list (fun ds hds => hne ds (hb.symm.trans hds)) h

lemma exists_readFields (h : readValue fuel room
      ('\x7b' :: (newLine level ++ (writeText name ++ tail))) = .ok (x, rest)) :
    ∃ (fuel' room' : ℕ) (fields : List (Text × Json α)),
      readFields fuel' room' [] (writeText name ++ tail) = .ok (fields, rest) := by
  obtain ⟨hb, -, hne⟩ := (starts_writeText name).skipBlanks tail
  rw [← hb]
  exact readValue_opened_record (fun ds hds => hne ds (hb.symm.trans hds)) h

end Parts

lemma PassedOver.of_succ {j : Json α}
    (h : ∀ {fuel room level : ℕ} {rest rest' : List Char} {x : Json α}, Ends rest →
      readValue (fuel + 1) room (write level j ++ rest) = .ok (x, rest') → rest' = rest) :
    j.PassedOver := by
  intro fuel room level rest rest' x hr hok
  cases fuel with
  | zero =>
    rw [readValue] at hok
    cases hok
  | succ fuel => exact h hr hok

lemma readValue_signed_rest {l : Decimal.Layout} (hl : l.Proper) {fuel room : ℕ}
    {rest rest' : List Char} (hr : Ends rest) {negative : Bool} {x : Json α}
    (h : readValue (fuel + 1) room (signed negative l.chars ++ rest) = .ok (x, rest')) :
    rest' = rest := by
  obtain ⟨c, cs, hd, hc⟩ := Decimal.Layout.exists_cons_chars hl
  rw [signed_append, hd, List.cons_append, readValue_signed hc, ← List.cons_append, ← hd] at h
  exact readNumber_rest hl hr h

lemma passedOver_real (y : α) : (real y).PassedOver := by
  apply PassedOver.of_succ
  intro fuel room level rest rest' x hr h
  rw [write] at h
  cases hn : (Scalar.toNumeral y : Numeral) with
  | finite d =>
    obtain ⟨l, hl, -, hd⟩ := d.exists_layout
    rw [hn] at h
    change readValue _ _ (d.text.toList ++ rest) = _ at h
    rw [toList_text, hd] at h
    exact readValue_signed_rest hl hr h
  | infinite negative =>
    rw [hn] at h
    cases negative
    · cases h
      rfl
    · cases h
      rfl
  | notANumber =>
    rw [hn] at h
    cases h
    rfl

theorem passedOver (j : Json α) : j.PassedOver := by
  induction j using nesting with
  | null =>
    apply PassedOver.of_succ
    intro fuel room level rest rest' x _ h
    rw [write] at h
    cases h
    rfl
  | bool b =>
    apply PassedOver.of_succ
    intro fuel room level rest rest' x _ h
    rw [write] at h
    cases b
    · cases h
      rfl
    · cases h
      rfl
  | int z =>
    apply PassedOver.of_succ
    intro fuel room level rest rest' x hr h
    have hchars : (Decimal.wholeLayout z.natAbs).chars = Nat.toDigits 10 z.natAbs :=
      List.append_nil _
    rw [write, toList_toString, ← hchars] at h
    exact readValue_signed_rest (Decimal.wholeLayout_proper _) hr h
  | real y => exact passedOver_real y
  | text s =>
    apply PassedOver.of_succ
    intro fuel room level rest rest' x _ h
    obtain ⟨quoted, s', hw, hs⟩ := readText_points s
    have hskip : skipBlanks ('"' :: quoted ++ rest) = '"' :: (quoted ++ rest) := rfl
    rw [write, hw, readValue, hskip] at h
    simp only [hs] at h
    cases h
    rfl
  | list xs ih =>
    apply PassedOver.of_succ
    intro fuel room level rest rest' x hr h
    cases xs with
    | nil =>
      rw [write] at h
      cases room with
      | zero => cases h
      | succ room =>
        cases h
        rfl
    | cons y ys =>
      rw [write_list_append] at h
      obtain ⟨fuel', room', zs, hzs⟩ := exists_readItems h
      rcases readItems_passed ih (ends_newLine level _) hzs with hend | ⟨_, ds, _, hds, _⟩
      · rw [skipBlanks_newLine] at hend
        exact (List.cons.inj hend).2.symm
      · rw [skipBlanks_newLine] at hds
        cases hds
  | record fields ih =>
    apply PassedOver.of_succ
    intro fuel room level rest rest' x hr h
    cases fields with
    | nil =>
      rw [write] at h
      cases room with
      | zero => cases h
      | succ room =>
        cases h
        rfl
    | cons f fields =>
      rw [write_record_append] at h
      obtain ⟨fuel', room', gs, hgs⟩ := exists_readFields h
      rcases readFields_passed ih (ends_newLine level _) hgs with hend | ⟨_, _, ds, hds, _⟩
      · rw [skipBlanks_newLine] at hend
        exact (List.cons.inj hend).2.symm
      · rw [skipBlanks_newLine] at hds
        cases hds

section Refusal

variable {level : ℕ} {cs : List Char}

lemma BreaksOff.head (h : BreaksOff α level cs) :
    cs = [] ∨ (∃ ds, cs = '[' :: ds) ∨ ∃ ds, cs = '\x7b' :: ds := by
  cases h with
  | nothing => exact .inl rfl
  | firstItem | afterItems | nextItem => exact .inr (.inl ⟨_, rfl⟩)
  | firstName | firstField | afterFields | nextField => exact .inr (.inr ⟨_, rfl⟩)

lemma BreaksOff.skipBlanks (h : BreaksOff α level cs) :
    skipBlanks cs = cs ∧ ∀ ds, cs ≠ ']' :: ds := by
  rcases h.head with rfl | ⟨ds, rfl⟩ | ⟨ds, rfl⟩
  · exact ⟨rfl, nofun⟩
  · exact ⟨rfl, nofun⟩
  · exact ⟨rfl, nofun⟩

lemma ends_comma (cs : List Char) : Ends (',' :: cs) := by
  intro c hc
  obtain rfl := Option.some_inj.1 hc
  decide

lemma refused_nil : Refused α [] := by
  intro fuel room j rest h
  cases fuel with
  | zero =>
    rw [readValue] at h
    cases h
  | succ fuel => cases h

lemma readItems_ne_ok_of_refused (h : Refused α cs) (fuel room : ℕ) (xs : List (Json α))
    (rest : List Char) : readItems fuel room cs ≠ .ok (xs, rest) := by
  intro hxs
  obtain ⟨fuel', j, after, hj, -⟩ := readItems_cases hxs
  exact h fuel' room j after hj

lemma readFields_ne_ok_of_refused (h : Refused α cs) (fuel room : ℕ)
    (before fields : List (Text × Json α)) (name : Text) (rest : List Char) :
    readFields fuel room before (writeText name ++ (": ".toList ++ cs)) ≠ .ok (fields, rest) := by
  intro hfields
  obtain ⟨fuel', j, after, -, hj, -⟩ := readFields_cases hfields
  exact h fuel' room j after hj

lemma readFields_nil_ne_ok (fuel room : ℕ) (before fields : List (Text × Json α))
    (rest : List Char) : readFields fuel room before [] ≠ .ok (fields, rest) := by
  intro h
  cases fuel with
  | zero =>
    rw [readFields] at h
    cases h
  | succ fuel => cases h

theorem BreaksOff.refused (h : BreaksOff α level cs) : Refused α cs := by
  induction h with
  | nothing => exact refused_nil
  | @firstItem level cs h ih =>
    intro fuel room j rest hj
    obtain ⟨hb, hne⟩ := h.skipBlanks
    obtain ⟨fuel', room', xs, hxs⟩ :=
      readValue_opened_list (fun ds hds => hne ds (hb.symm.trans hds)) hj
    rw [hb] at hxs
    exact readItems_ne_ok_of_refused ih _ _ _ _ hxs
  | @afterItems level x xs =>
    intro fuel room j rest hj
    rw [← (writeItems (level + 1) xs).append_nil] at hj
    obtain ⟨fuel', room', ys, hys⟩ := exists_readItems hj
    rcases readItems_passed (fun y _ => passedOver y) ends_nil hys with hend | ⟨_, _, _, hds, -⟩
    · cases hend
    · cases hds
  | @nextItem level x xs cs h ih =>
    intro fuel room j rest hj
    obtain ⟨fuel', room', ys, hys⟩ := exists_readItems hj
    rcases readItems_passed (fun y _ => passedOver y) (ends_comma _) hys with
      hend | ⟨fuel'', ds, zs, hds, hzs⟩
    · cases hend
    · obtain rfl := (List.cons.inj hds).2
      rw [readItems_congr (skipBlanks_newLine _ _)] at hzs
      exact readItems_ne_ok_of_refused ih _ _ _ _ hzs
  | firstName level =>
    intro fuel room j rest hj
    rw [← (newLine (level + 1)).append_nil] at hj
    obtain ⟨fuel', room', fields, hfields⟩ :=
      readValue_opened_record (fun ds hds => by cases hds) hj
    exact readFields_nil_ne_ok _ _ _ _ _ hfields
  | @firstField level name cs h ih =>
    intro fuel room j rest hj
    obtain ⟨fuel', room', fields, hfields⟩ := exists_readFields hj
    exact readFields_ne_ok_of_refused ih _ _ _ _ _ _ hfields
  | @afterFields level name v fs =>
    intro fuel room j rest hj
    rw [← (writeFields (level + 1) fs).append_nil] at hj
    obtain ⟨fuel', room', fields, hfields⟩ := exists_readFields hj
    rcases readFields_passed (f := (name, v)) (fun g _ => passedOver g.2) ends_nil hfields with
      hend | ⟨_, _, _, hds, -⟩
    · cases hend
    · cases hds
  | @nextField level name v fs next cs h ih =>
    intro fuel room j rest hj
    obtain ⟨fuel', room', fields, hfields⟩ := exists_readFields hj
    rcases readFields_passed (f := (name, v)) (fun g _ => passedOver g.2) (ends_comma _) hfields
      with hend | ⟨_, known, ds, hds, hnext⟩
    · cases hend
    · obtain rfl := (List.cons.inj hds).2
      rw [readFields_congr (skipBlanks_newLine _ _)] at hnext
      exact readFields_ne_ok_of_refused ih _ _ _ _ _ _ hnext

theorem BreaksOff.ofText_error (h : BreaksOff α level cs) (room : ℕ) :
    ∃ flaw, (ofText room (String.ofList cs) : Except Flaw (Json α)) = .error flaw := by
  rw [ofText, String.toList_ofList]
  cases hj : (readValue (2 * cs.length + 2) room cs : Except Flaw (Json α × List Char)) with
  | error flaw => exact ⟨flaw, rfl⟩
  | ok r => exact absurd hj (h.refused _ _ r.1 r.2)

end Refusal

end KnotSpline.Json
