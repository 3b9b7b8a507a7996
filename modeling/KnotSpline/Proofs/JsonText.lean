import KnotSpline.Json.Writer
import KnotSpline.Proofs.Checks
import KnotSpline.Proofs.Numerals
import KnotSpline.Proofs.Quoting
import KnotSpline.Value.Json

/-! The text of JSON, and how it is read again. Reading needs no more fuel than the text is long. -/

namespace KnotSpline.Json

open Text

variable {α : Type}

section Definitions

variable [Scalar α]

mutual

def write (level : ℕ) : Json α → List Char
  | null => "null".toList
  | bool b => (if b then "true" else "false").toList
  | int z => (toString z).toList
  | real x => writeNumeral (Scalar.toNumeral x)
  | text s => writeText s
  | list [] => "[]".toList
  | list (x :: xs) =>
    '[' :: newLine (level + 1) ++ write (level + 1) x ++ writeItems (level + 1) xs ++
      newLine level ++ [']']
  | record [] => "\x7b\x7d".toList
  | record ((name, v) :: fields) =>
    '\x7b' :: newLine (level + 1) ++ writeText name ++ ": ".toList ++ write (level + 1) v ++
      writeFields (level + 1) fields ++ newLine level ++ ['\x7d']

def writeItems (level : ℕ) : List (Json α) → List Char
  | [] => []
  | x :: xs => ',' :: newLine level ++ write level x ++ writeItems level xs

def writeFields (level : ℕ) : List (Text × Json α) → List Char
  | [] => []
  | (name, v) :: fields =>
    ',' :: newLine level ++ writeText name ++ ": ".toList ++ write level v ++
      writeFields level fields

end

def toText (j : Json α) : String :=
  String.ofList (write 0 j)

mutual

def depth : Json α → ℕ
  | list xs => depths xs + 1
  | record fields => fieldDepths fields + 1
  | _ => 0

def depths : List (Json α) → ℕ
  | [] => 0
  | x :: xs => max (depth x) (depths xs)

def fieldDepths : List (Text × Json α) → ℕ
  | [] => 0
  | (_, v) :: fields => max (depth v) (fieldDepths fields)

end

/-- What can be found again in its text: whole numbers that are not too long, other numbers that are
read as they are written, texts of characters, and fields of different names. -/
inductive Storable : Json α → Prop
  | null : Storable null
  | bool (b : Bool) : Storable (bool b)
  | int {z : ℤ} (short : isShort z = true) : Storable (int z)
  | real {x : α} (readsBack : Scalar.ReadsBack x) : Storable (real x)
  | text (cs : List Char) : Storable (text (ofChars cs))
  | list {xs : List (Json α)} (storable : ∀ x ∈ xs, Storable x) : Storable (list xs)
  | record {fields : List (Text × Json α)} (nodup : (fields.map Prod.fst).Nodup)
      (named : ∀ f ∈ fields, ∃ cs, f.1 = ofChars cs) (storable : ∀ f ∈ fields, Storable f.2) :
    Storable (record fields)

end Definitions

lemma depths_le_iff {xs : List (Json α)} {n : ℕ} : depths xs ≤ n ↔ ∀ x ∈ xs, x.depth ≤ n := by
  induction xs with
  | nil => exact iff_of_true (Nat.zero_le n) (List.forall_mem_nil _)
  | cons x xs ih => rw [depths, max_le_iff, ih, List.forall_mem_cons]

lemma fieldDepths_le_iff {fields : List (Text × Json α)} {n : ℕ} :
    fieldDepths fields ≤ n ↔ ∀ f ∈ fields, f.2.depth ≤ n := by
  induction fields with
  | nil => exact iff_of_true (Nat.zero_le n) (List.forall_mem_nil _)
  | cons f fields ih => rw [fieldDepths, max_le_iff, ih, List.forall_mem_cons]

variable [Scalar α]

def ReadsAsWritten (room : ℕ) (j : Json α) : Prop :=
  ∀ {fuel depth : ℕ} {rest : List Char}, (write depth j).length ≤ fuel → Decimal.Layout.Ends rest →
    readValue fuel room (write depth j ++ rest) = .ok (j, rest)

section Blanks

lemma skipBlanks_newLine (depth : ℕ) (cs : List Char) :
    skipBlanks (newLine depth ++ cs) = skipBlanks cs := by
  apply List.dropWhile_append_of_pos
  intro c hc
  rcases List.mem_cons.1 hc with rfl | hc
  · rfl
  · rw [List.eq_of_mem_replicate hc]
    rfl

lemma ends_newLine (depth : ℕ) (cs : List Char) : Decimal.Layout.Ends (newLine depth ++ cs) := by
  intro c hc
  obtain rfl := Option.some_inj.1 hc
  decide

lemma readValue_congr {cs ds : List Char} (h : skipBlanks cs = skipBlanks ds) (fuel room : ℕ) :
    (readValue fuel room cs : Except Flaw (Json α × List Char)) = readValue fuel room ds := by
  cases fuel with
  | zero => rw [readValue, readValue]
  | succ fuel => rw [readValue, readValue, h]

end Blanks

section Starts

def signed (negative : Bool) (cs : List Char) : List Char :=
  if negative then '-' :: cs else cs

lemma toList_toString (z : ℤ) :
    (toString z).toList = signed (decide (z < 0)) (Nat.toDigits 10 z.natAbs) := by
  cases z with
  | ofNat n =>
    change n.repr.toList = _
    rw [Nat.toList_repr]
    rfl
  | negSucc n =>
    change ("-" ++ (n + 1).repr).toList = _
    rw [String.toList_append, Nat.toList_repr, decide_eq_true (Int.negSucc_lt_zero n)]
    rfl

lemma toList_text (d : Decimal) : d.text.toList = signed d.negative d.unsignedText := by
  rw [Decimal.text, String.toList_ofList]
  rfl

def starters : List Char :=
  ['"', '[', '\x7b', 'n', 't', 'f', 'N', 'I', '-'] ++ decimalDigits

def Starts (cs : List Char) : Prop :=
  ∃ c ∈ cs.head?, c ∈ starters

lemma starts_signed {c : Char} (hc : c.isDigit = true) (cs : List Char) (negative : Bool) :
    Starts (signed negative (c :: cs)) := by
  cases negative
  · exact ⟨c, rfl, List.mem_append_right _ (mem_of_isDigit hc)⟩
  · exact ⟨'-', rfl, by decide⟩

lemma exists_cons_toDigits (n : ℕ) : ∃ c cs, Nat.toDigits 10 n = c :: cs ∧ c.isDigit = true := by
  cases h : Nat.toDigits 10 n with
  | nil => exact absurd h (List.ne_nil_of_length_pos Nat.length_toDigits_pos)
  | cons c cs => exact ⟨c, cs, rfl, isDigits_toDigits n c (h ▸ List.mem_cons_self)⟩

lemma starts_writeNumeral (n : Numeral) : Starts (writeNumeral n) := by
  cases n with
  | finite d =>
    obtain ⟨c, cs, hd, hc⟩ := d.exists_cons_unsignedText
    change Starts d.text.toList
    rw [toList_text, hd]
    exact starts_signed hc cs d.negative
  | infinite negative => cases negative <;> exact ⟨_, rfl, by decide⟩
  | notANumber => exact ⟨'N', rfl, by decide⟩

lemma starts_write (depth : ℕ) (j : Json α) : Starts (write depth j) := by
  cases j with
  | null => exact ⟨'n', by rw [write]; rfl, by decide⟩
  | bool b =>
    cases b
    · exact ⟨'f', by rw [write]; rfl, by decide⟩
    · exact ⟨'t', by rw [write]; rfl, by decide⟩
  | int z =>
    obtain ⟨c, cs, hd, hc⟩ := exists_cons_toDigits z.natAbs
    rw [write, toList_toString, hd]
    exact starts_signed hc cs _
  | real x =>
    rw [write]
    exact starts_writeNumeral _
  | text s => exact ⟨'"', by rw [write]; rfl, by decide⟩
  | list xs => cases xs <;> exact ⟨'[', by rw [write]; rfl, by decide⟩
  | record fields => cases fields <;> exact ⟨'\x7b', by rw [write]; rfl, by decide⟩

lemma starts_writeText (t : Text) : Starts (writeText t) :=
  ⟨'"', rfl, by decide⟩

lemma Starts.skipBlanks {cs : List Char} (h : Starts cs) (rest : List Char) :
    skipBlanks (cs ++ rest) = cs ++ rest ∧
      (∀ ds, cs ++ rest ≠ ']' :: ds) ∧ ∀ ds, cs ++ rest ≠ '\x7d' :: ds := by
  obtain ⟨c, hc, hs⟩ := h
  have hall : ∀ c ∈ starters, (c == ' ' || c == '\t' || c == '\n' || c == '\r') = false ∧
      c ≠ ']' ∧ c ≠ '\x7d' := List.all_iff_forall_prop.1 (by decide)
  obtain ⟨hb, h1, h2⟩ := hall c hs
  cases cs with
  | nil => nomatch hc
  | cons d ds =>
    obtain rfl := Option.some_inj.1 hc
    refine ⟨?_, fun _ h => h1 (List.cons.inj h).1, fun _ h => h2 (List.cons.inj h).1⟩
    rw [List.cons_append, Json.skipBlanks, List.dropWhile_cons, hb]
    rfl

end Starts

section Numbers

lemma readValue_signed {c : Char} (hc : c.isDigit = true) (fuel room : ℕ) (negative : Bool)
    (cs : List Char) : (readValue (fuel + 1) room (signed negative (c :: cs)) :
      Except Flaw (Json α × List Char)) = readNumber negative (c :: cs) := by
  have hm := mem_of_isDigit hc
  simp only [decimalDigits, List.mem_cons, List.not_mem_nil, or_false] at hm
  cases negative
  · rcases hm with rfl | rfl | rfl | rfl | rfl | rfl | rfl | rfl | rfl | rfl <;> rfl
  · rcases hm with rfl | rfl | rfl | rfl | rfl | rfl | rfl | rfl | rfl | rfl <;> rfl

lemma signed_append (negative : Bool) (cs rest : List Char) :
    signed negative cs ++ rest = signed negative (cs ++ rest) := by
  cases negative <;> rfl

variable {rest : List Char}

lemma isShort_iff {z : ℤ} : isShort z = true ↔ z.natAbs < 10 ^ maxDigits := by
  rw [isShort, decide_eq_true_eq, Nat.pow_eq]

lemma readValue_int {z : ℤ} (hz : isShort z = true) (hr : Decimal.Layout.Ends rest)
    (fuel room : ℕ) : readValue (fuel + 1) room ((toString z).toList ++ rest) =
      .ok ((int z : Json α), rest) := by
  obtain ⟨c, cs, hd, hc⟩ := exists_cons_toDigits z.natAbs
  rw [toList_toString, signed_append, hd, List.cons_append, readValue_signed hc,
    ← List.cons_append, ← hd, Decimal.readNumber_toDigits (isShort_iff.1 hz) hr]
  have hn : (if decide (z < 0) = true then -(z.natAbs : ℤ) else z.natAbs) = z := by
    simp only [decide_eq_true_eq]
    omega
  rw [hn]

lemma readValue_real {x : α} (hx : Scalar.ReadsBack x) (hr : Decimal.Layout.Ends rest)
    (fuel room : ℕ) : readValue (fuel + 1) room (writeNumeral (Scalar.toNumeral x) ++ rest) =
      .ok (real x, rest) := by
  rw [Scalar.ReadsBack] at hx
  cases hn : (Scalar.toNumeral x : Numeral) with
  | finite d =>
    rw [hn] at hx
    obtain ⟨c, cs, hd, hc⟩ := d.exists_cons_unsignedText
    change readValue _ _ (d.text.toList ++ rest) = _
    rw [toList_text, signed_append, hd, List.cons_append, readValue_signed hc, ← List.cons_append,
      ← hd, d.readNumber_unsignedText hx hr]
  | infinite negative =>
    have hw : Numeral.ofChars? (Numeral.infinite negative).text.toList =
        some (.infinite negative) := by
      cases negative <;> rfl
    rw [hn, hw] at hx
    rw [← Option.some.inj hx]
    cases negative <;> rfl
  | notANumber =>
    have hw : Numeral.ofChars? Numeral.notANumber.text.toList = some .notANumber := rfl
    rw [hn, hw] at hx
    rw [← Option.some.inj hx]
    rfl

end Numbers

section Nesting

variable {room depth : ℕ}

lemma length_write_pos (j : Json α) : 0 < (write depth j).length := by
  obtain ⟨c, hc, -⟩ := starts_write depth j
  cases h : write depth j with
  | nil =>
    rw [h] at hc
    nomatch hc
  | cons d ds => exact Nat.succ_pos _

lemma ReadsAsWritten.of_succ {j : Json α}
    (h : ∀ {fuel depth : ℕ} {rest : List Char}, (write depth j).length ≤ fuel + 1 →
      Decimal.Layout.Ends rest →
      readValue (fuel + 1) room (write depth j ++ rest) = .ok (j, rest)) :
    ReadsAsWritten room j := by
  intro fuel depth rest hf hr
  obtain ⟨fuel, rfl⟩ := Nat.exists_eq_add_one.2 ((length_write_pos j).trans_le hf)
  exact h hf hr

lemma readItems_congr {cs ds : List Char} (h : skipBlanks cs = skipBlanks ds) (fuel : ℕ) :
    (readItems fuel room cs : Except Flaw (List (Json α) × List Char)) =
      readItems fuel room ds := by
  cases fuel with
  | zero => rw [readItems, readItems]
  | succ fuel => rw [readItems, readItems, readValue_congr h]

lemma ends_writeItems (xs : List (Json α)) {rest : List Char} (hr : Decimal.Layout.Ends rest) :
    Decimal.Layout.Ends (writeItems depth xs ++ rest) := by
  cases xs with
  | nil => rwa [writeItems]
  | cons x xs =>
    intro c hc
    rw [writeItems] at hc
    obtain rfl := Option.some_inj.1 hc
    decide

lemma readItems_write {x : Json α} {xs : List (Json α)}
    (h : ∀ y ∈ x :: xs, ReadsAsWritten room y) {fuel : ℕ}
    (hf : (write depth x).length + (writeItems depth xs).length < fuel) (outer : ℕ)
    (rest : List Char) : readItems fuel room
      (write depth x ++ (writeItems depth xs ++ (newLine outer ++ ']' :: rest))) =
        .ok (x :: xs, rest) := by
  induction xs generalizing x fuel with
  | nil =>
    obtain ⟨fuel, rfl⟩ : ∃ n, fuel = n + 1 := ⟨fuel - 1, by omega⟩
    rw [readItems, h x List.mem_cons_self (by omega) (ends_writeItems [] (ends_newLine outer _))]
    simp only [bind, Except.bind, writeItems, List.nil_append, skipBlanks_newLine]
    rfl
  | cons y ys ih =>
    obtain ⟨fuel, rfl⟩ : ∃ n, fuel = n + 1 := ⟨fuel - 1, by omega⟩
    rw [readItems,
      h x List.mem_cons_self (by omega) (ends_writeItems (y :: ys) (ends_newLine outer _))]
    have hs : skipBlanks (writeItems depth (y :: ys) ++ (newLine outer ++ ']' :: rest)) =
        ',' :: (newLine depth ++
          (write depth y ++ (writeItems depth ys ++ (newLine outer ++ ']' :: rest)))) := by
      rw [writeItems, List.append_assoc, List.append_assoc]
      rfl
    have hl : (write depth y).length + (writeItems depth ys).length < fuel := by
      rw [writeItems] at hf
      simp only [List.length_append, List.length_cons] at hf
      omega
    simp only [bind, Except.bind, hs]
    rw [readItems_congr (skipBlanks_newLine depth _),
      ih (fun z hz => h z (List.mem_cons_of_mem _ hz)) hl]
    rfl

omit [Scalar α] in
lemma setField_of_notMem {fields : List (Text × Json α)} {name : Text}
    (h : name ∉ fields.map Prod.fst) (v : Json α) :
    setField fields name v = fields ++ [(name, v)] := by
  induction fields with
  | nil => rfl
  | cons f fields ih =>
    rw [List.map_cons, List.mem_cons, not_or] at h
    rw [setField, beq_eq_false_iff_ne.2 (Ne.symm h.1), ih h.2]
    rfl

omit [Scalar α] in
lemma notMem_of_nodup {before fields : List (Text × Json α)} {f : Text × Json α}
    (h : ((before ++ f :: fields).map Prod.fst).Nodup) : f.1 ∉ before.map Prod.fst := by
  rw [List.map_append, List.map_cons, List.nodup_append] at h
  exact fun hm => h.2.2 f.1 hm f.1 List.mem_cons_self rfl

lemma readFields_congr {cs ds : List Char} (h : skipBlanks cs = skipBlanks ds) (fuel : ℕ)
    (fields : List (Text × Json α)) :
    readFields fuel room fields cs = readFields fuel room fields ds := by
  cases fuel with
  | zero => rw [readFields, readFields]
  | succ fuel => rw [readFields, readFields, h]

lemma ends_writeFields (fields : List (Text × Json α)) {rest : List Char}
    (hr : Decimal.Layout.Ends rest) : Decimal.Layout.Ends (writeFields depth fields ++ rest) := by
  cases fields with
  | nil => rwa [writeFields]
  | cons f fields =>
    intro c hc
    rw [writeFields] at hc
    obtain rfl := Option.some_inj.1 hc
    decide

lemma readFields_step {v : Json α} (hv : ReadsAsWritten room v) {fuel : ℕ}
    (hf : (write depth v).length ≤ fuel) (fields : List (Text × Json α)) (cs : List Char)
    {rest : List Char} (hr : Decimal.Layout.Ends rest) :
    readFields (fuel + 1) room fields
        (writeText (ofChars cs) ++ (": ".toList ++ (write depth v ++ rest))) =
      match skipBlanks rest with
      | ',' :: rest => readFields fuel room (setField fields (ofChars cs) v) rest
      | '\x7d' :: rest => pure (setField fields (ofChars cs) v, rest)
      | _ => throw .malformed := by
  obtain ⟨quoted, hw, ht⟩ := readText_writeText cs
  have hblank : skipBlanks (' ' :: (write depth v ++ rest)) = skipBlanks (write depth v ++ rest) :=
    rfl
  have hcolon : skipBlanks (": ".toList ++ (write depth v ++ rest)) =
      ':' :: ' ' :: (write depth v ++ rest) := rfl
  have hquote : skipBlanks ('"' :: quoted ++ (": ".toList ++ (write depth v ++ rest))) =
      '"' :: (quoted ++ (": ".toList ++ (write depth v ++ rest))) := rfl
  rw [readFields, hw, hquote]
  simp only [ht, hcolon, readValue_congr hblank, hv hf hr]
  rfl

lemma readFields_write {f : Text × Json α} {fields : List (Text × Json α)}
    (h : ∀ g ∈ f :: fields, ReadsAsWritten room g.2)
    (hn : ∀ g ∈ f :: fields, ∃ cs, g.1 = ofChars cs) {before : List (Text × Json α)}
    (hd : ((before ++ f :: fields).map Prod.fst).Nodup) {fuel : ℕ}
    (hf : (write depth f.2).length + (writeFields depth fields).length < fuel) (outer : ℕ)
    (rest : List Char) : readFields fuel room before
      (writeText f.1 ++ (": ".toList ++ (write depth f.2 ++
        (writeFields depth fields ++ (newLine outer ++ '\x7d' :: rest))))) =
          .ok (before ++ f :: fields, rest) := by
  induction fields generalizing f before fuel with
  | nil =>
    obtain ⟨fuel, rfl⟩ : ∃ n, fuel = n + 1 := ⟨fuel - 1, by omega⟩
    obtain ⟨cs, hc⟩ := hn f List.mem_cons_self
    rw [hc, readFields_step (h f List.mem_cons_self) (by omega) _ _
      (ends_writeFields [] (ends_newLine outer _)),
      ← hc, setField_of_notMem (notMem_of_nodup hd), writeFields, List.nil_append,
      skipBlanks_newLine]
    rfl
  | cons g fields ih =>
    obtain ⟨fuel, rfl⟩ : ∃ n, fuel = n + 1 := ⟨fuel - 1, by omega⟩
    obtain ⟨cs, hc⟩ := hn f List.mem_cons_self
    have hs : skipBlanks (writeFields depth (g :: fields) ++ (newLine outer ++ '\x7d' :: rest)) =
        ',' :: (newLine depth ++ (writeText g.1 ++ (": ".toList ++ (write depth g.2 ++
          (writeFields depth fields ++ (newLine outer ++ '\x7d' :: rest)))))) := by
      rw [writeFields]
      simp only [List.append_assoc]
      rfl
    have hl : (write depth g.2).length + (writeFields depth fields).length < fuel := by
      rw [writeFields] at hf
      simp only [List.length_append, List.length_cons] at hf
      omega
    have hb : before ++ f :: g :: fields = (before ++ [f]) ++ g :: fields := by simp
    rw [hc, readFields_step (h f List.mem_cons_self) (by omega) _ _
      (ends_writeFields (g :: fields) (ends_newLine outer _)), ← hc,
      setField_of_notMem (notMem_of_nodup hd), hs]
    rw [hb] at hd ⊢
    change readFields fuel room (before ++ [f]) _ = _
    rw [readFields_congr (skipBlanks_newLine depth _),
      ih (fun g' hg => h g' (List.mem_cons_of_mem _ hg))
        (fun g' hg => hn g' (List.mem_cons_of_mem _ hg)) hd hl]

lemma write_list_append (x : Json α) (xs : List (Json α)) (rest : List Char) :
    write depth (list (x :: xs)) ++ rest = '[' :: (newLine (depth + 1) ++ (write (depth + 1) x ++
      (writeItems (depth + 1) xs ++ (newLine depth ++ ']' :: rest)))) := by
  rw [write]
  simp

lemma write_record_append (f : Text × Json α) (fields : List (Text × Json α)) (rest : List Char) :
    write depth (record (f :: fields)) ++ rest = '\x7b' :: (newLine (depth + 1) ++
      (writeText f.1 ++ (": ".toList ++ (write (depth + 1) f.2 ++
        (writeFields (depth + 1) fields ++ (newLine depth ++ '\x7d' :: rest)))))) := by
  rw [write]
  simp

lemma readValue_list {cs : List Char} (hs : Starts cs) (fuel : ℕ) (rest : List Char) :
    readValue (fuel + 1) (room + 1) ('[' :: (newLine depth ++ (cs ++ rest))) =
      (readItems fuel room (cs ++ rest) >>= fun (xs, rest) => pure ((list xs : Json α), rest)) := by
  obtain ⟨hb, hne, -⟩ := hs.skipBlanks rest
  have hskip : skipBlanks ('[' :: (newLine depth ++ (cs ++ rest))) =
      '[' :: (newLine depth ++ (cs ++ rest)) := rfl
  rw [readValue, hskip]
  -- By `hne` the text is not that of an empty one.
  simp only [skipBlanks_newLine, hb]

lemma readValue_record {cs : List Char} (hs : Starts cs) (fuel : ℕ) (rest : List Char) :
    readValue (fuel + 1) (room + 1) ('\x7b' :: (newLine depth ++ (cs ++ rest))) =
      (readFields fuel room [] (cs ++ rest) >>= fun (fields, rest) =>
        pure ((record fields : Json α), rest)) := by
  obtain ⟨hb, -, hne⟩ := hs.skipBlanks rest
  have hskip : skipBlanks ('\x7b' :: (newLine depth ++ (cs ++ rest))) =
      '\x7b' :: (newLine depth ++ (cs ++ rest)) := rfl
  rw [readValue, hskip]
  -- By `hne` the text is not that of an empty one.
  simp only [skipBlanks_newLine, hb]

theorem Storable.readsAsWritten {j : Json α} (h : Storable j) (hd : j.depth ≤ room) :
    ReadsAsWritten room j := by
  induction h generalizing room with
  | null =>
    apply ReadsAsWritten.of_succ
    intro fuel depth rest hf _
    rw [write]
    rfl
  | bool b =>
    apply ReadsAsWritten.of_succ
    intro fuel depth rest hf _
    rw [write]
    cases b <;> rfl
  | int hz =>
    apply ReadsAsWritten.of_succ
    intro fuel depth rest hf hr
    rw [write]
    exact readValue_int hz hr fuel room
  | real hx =>
    apply ReadsAsWritten.of_succ
    intro fuel depth rest hf hr
    rw [write]
    exact readValue_real hx hr fuel room
  | text cs =>
    apply ReadsAsWritten.of_succ
    intro fuel depth rest hf _
    obtain ⟨quoted, hw, ht⟩ := readText_writeText cs
    have hskip : skipBlanks ('"' :: quoted ++ rest) = '"' :: (quoted ++ rest) := rfl
    rw [write, hw, readValue, hskip]
    simp only [ht]
    rfl
  | @list xs hs ih =>
    obtain ⟨room, rfl⟩ := Nat.exists_eq_add_one.2 ((Nat.succ_pos _).trans_le hd)
    have hitems := depths_le_iff.1 (Nat.le_of_succ_le_succ hd)
    apply ReadsAsWritten.of_succ
    intro fuel depth rest hf _
    cases xs with
    | nil =>
      rw [write]
      rfl
    | cons x xs =>
      rw [write] at hf
      simp only [List.length_append, List.length_cons] at hf
      rw [write_list_append, readValue_list (starts_write _ x),
        readItems_write (fun y hy => ih y hy (hitems y hy)) (by omega)]
      rfl
  | @record fields hn hnamed hs ih =>
    obtain ⟨room, rfl⟩ := Nat.exists_eq_add_one.2 ((Nat.succ_pos _).trans_le hd)
    have hfields := fieldDepths_le_iff.1 (Nat.le_of_succ_le_succ hd)
    apply ReadsAsWritten.of_succ
    intro fuel depth rest hf _
    cases fields with
    | nil =>
      rw [write]
      rfl
    | cons f fields =>
      rw [write] at hf
      simp only [List.length_append, List.length_cons] at hf
      rw [write_record_append, readValue_record (starts_writeText f.1),
        readFields_write (fun g hg => ih g hg (hfields g hg)) hnamed hn (by omega)]
      rfl

end Nesting

theorem ofText_toText {j : Json α} (h : Storable j) {room : ℕ} (hd : j.depth ≤ room) :
    ofText room j.toText = .ok j := by
  have hr : readValue (2 * (write 0 j).length + 2) room (write 0 j ++ []) = .ok (j, []) :=
    h.readsAsWritten hd (by omega) Decimal.Layout.ends_nil
  rw [List.append_nil] at hr
  rw [ofText, toText, String.toList_ofList]
  simp only [hr]
  rfl

end KnotSpline.Json
