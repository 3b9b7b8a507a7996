import KnotSpline.Proofs.Checks
import KnotSpline.Store.File

/-! Which paths name a place to write: names that lead through directories to a name that is none
of a directory. -/

namespace KnotSpline

variable {α : Type}

namespace Path

structure IsName (name : List UInt8) : Prop where
  ne_nil : name ≠ []
  ne_here : name ≠ here
  ne_up : name ≠ up
  zero_notMem : 0 ∉ name
  slash_notMem : slash ∉ name

def encoded (name : String) : List UInt8 :=
  name.toList.flatMap String.utf8EncodeChar

def spelled (absolute : Bool) : List (List UInt8) → List UInt8
  | [] => []
  | name :: names =>
    (if absolute then slash :: name else name) ++ names.flatMap fun n => slash :: n

section Spelling

variable {name : List UInt8} {names : List (List UInt8)} {absolute : Bool}

lemma split_slash (bytes : List UInt8) : split (slash :: bytes) = split bytes := by
  have h := List.splitOnP_append_cons_of_forall_mem (p := (· == slash))
    (List.forall_mem_nil _) slash rfl bytes
  rw [split, List.splitOn, ← List.nil_append (slash :: bytes), h]
  rfl

lemma split_append (h : IsName name) (bytes : List UInt8) :
    split (name ++ slash :: bytes) = name :: split bytes := by
  have hname : ∀ x ∈ name, (x == slash) = false := by
    intro x hx
    rw [beq_eq_false_iff_ne]
    exact ne_of_mem_of_not_mem hx h.slash_notMem
  have hne : name.isEmpty = false := by simpa using h.ne_nil
  rw [split, List.splitOn, List.splitOnP_append_cons_of_forall_mem hname slash rfl,
    List.filter_cons, hne]
  rfl

lemma split_flatMap (hname : IsName name) (hnames : ∀ n ∈ names, IsName n) :
    split (name ++ names.flatMap fun n => slash :: n) = name :: names := by
  induction names generalizing name with
  | nil =>
    have hne : name.isEmpty = false := by simpa using hname.ne_nil
    rw [List.flatMap_nil, List.append_nil, split, List.splitOn_eq_singleton hname.slash_notMem,
      List.filter_singleton, hne]
    rfl
  | cons n names ih =>
    obtain ⟨hn, hnames⟩ := List.forall_mem_cons.1 hnames
    rw [List.flatMap_cons, List.cons_append, split_append hname, ih hn hnames]

lemma getLast?_flatMap (hname : IsName name) (hnames : ∀ n ∈ names, IsName n) :
    (name ++ names.flatMap fun n => slash :: n).getLast? ≠ some slash := by
  induction names generalizing name with
  | nil =>
    rw [List.flatMap_nil, List.append_nil]
    exact fun h => hname.slash_notMem (List.mem_of_getLast? h)
  | cons n names ih =>
    obtain ⟨hn, hnames⟩ := List.forall_mem_cons.1 hnames
    have hne : n ++ (names.flatMap fun n => slash :: n) ≠ [] :=
      List.append_ne_nil_of_left_ne_nil hn.ne_nil _
    rw [List.flatMap_cons, List.cons_append,
      List.getLast?_append_of_ne_nil _ (List.cons_ne_nil _ _),
      ← List.singleton_append, List.getLast?_append_of_ne_nil _ hne]
    exact ih hn hnames

lemma mapM_bytes? (cs : List Char) :
    (cs.map CodePoint.char).mapM bytes? = some (cs.map String.utf8EncodeChar) := by
  induction cs with
  | nil => rfl
  | cons c cs ih =>
    rw [List.map_cons, List.mapM_cons, ih]
    rfl

lemma ofText_spelled {cs : List Char}
    (hcs : cs.flatMap String.utf8EncodeChar = spelled absolute (name :: names))
    (hn : ∀ n ∈ name :: names, IsName n)
    (hl : (cs.flatMap String.utf8EncodeChar).length ≤ maxPath) :
    (Path.ofText (Text.ofChars cs) : Except (Fault α) Path) =
      .ok ⟨absolute, name :: names, false⟩ := by
  have hp : (Text.ofChars cs).points.mapM bytes? = some (cs.map String.utf8EncodeChar) :=
    mapM_bytes? cs
  obtain ⟨hname, hnames⟩ := List.forall_mem_cons.1 hn
  rw [Path.ofText, hp]
  dsimp only
  rw [← List.flatMap_def, hcs] at *
  have hzero : (spelled absolute (name :: names)).contains 0 = false := by
    have hslash : (0 : UInt8) ≠ slash := by decide
    have hrest : ∀ n ∈ names, 0 ∉ n := fun n hn => (hnames n hn).zero_notMem
    have h0 := hname.zero_notMem
    rw [List.contains_eq_mem, decide_eq_false_iff_not, spelled]
    cases absolute <;> simpa [hslash, h0] using hrest
  have hempty : (spelled absolute (name :: names)).isEmpty = false := by
    have hne := hname.ne_nil
    rw [spelled]
    cases absolute <;> simp [hne]
  have hhead : decide ((spelled absolute (name :: names)).head? = some slash) = absolute := by
    cases absolute
    · refine decide_eq_false fun h => hname.slash_notMem ?_
      rw [spelled, if_neg Bool.false_ne_true, List.head?_append_of_ne_nil _ hname.ne_nil] at h
      exact List.mem_of_head? h
    · exact decide_eq_true rfl
  have hsplit : split (spelled absolute (name :: names)) = name :: names := by
    cases absolute
    · exact split_flatMap hname hnames
    · exact (split_slash _).trans (split_flatMap hname hnames)
  have hlast : (spelled absolute (name :: names)).getLast? ≠ some slash := by
    cases absolute
    · exact getLast?_flatMap hname hnames
    · have hne : name ++ (names.flatMap fun n => slash :: n) ≠ [] :=
        List.append_ne_nil_of_left_ne_nil hname.ne_nil _
      rw [spelled, if_pos rfl, List.cons_append, ← List.singleton_append,
        List.getLast?_append_of_ne_nil _ hne]
      exact getLast?_flatMap hname hnames
  simp only [hzero, hempty, Nat.not_lt.2 hl, hhead, hlast, hsplit, bind, Except.bind, pure,
    Except.pure, Bool.false_eq_true, if_false, decide_false]

end Spelling

section Following

variable {isDirectory : Directory → Bool} {isFile isFile' : Location → Bool} {d : Directory}
  {names : List (List UInt8)}

lemma follow_of_ok {target : Target}
    (h : follow isDirectory isFile d names = (.ok target : Except (Fault α) Target)) :
    follow isDirectory isFile' d names = (.ok target : Except (Fault α) Target) := by
  induction names generalizing d with
  | nil => exact h
  | cons name names ih =>
    rw [follow] at h ⊢
    split_ifs at h ⊢
    · exact ih h
    · exact ih h
    · exact ih h
    · exact h

lemma follow_append (hn : ∀ n ∈ names, IsName n)
    (hd : ∀ ns, ns <+: names → ns ≠ [] → isDirectory (ns.reverse ++ d) = true)
    (rest : List (List UInt8)) :
    (follow isDirectory isFile d (names ++ rest) : Except (Fault α) Target) =
      follow isDirectory isFile (names.reverse ++ d) rest := by
  induction names generalizing d with
  | nil => rfl
  | cons name names ih =>
    obtain ⟨hname, hnames⟩ := List.forall_mem_cons.1 hn
    have hfirst : isDirectory (name :: d) = true :=
      hd [name] (List.prefix_append [name] names) (List.cons_ne_nil _ _)
    have hrest : ∀ ns, ns <+: names → ns ≠ [] → isDirectory (ns.reverse ++ (name :: d)) = true := by
      intro ns hns _
      have h := hd (name :: ns) (List.cons_prefix_cons.2 ⟨rfl, hns⟩) (List.cons_ne_nil _ _)
      rwa [List.reverse_cons, List.append_assoc] at h
    rw [List.cons_append, follow, if_neg hname.ne_here, if_neg hname.ne_up, if_pos hfirst,
      ih hnames hrest, List.reverse_cons, List.append_assoc]
    rfl

lemma follow_name {name : List UInt8} (hn : IsName name) (h : isDirectory (name :: d) = false) :
    follow isDirectory isFile d [name] = (.ok (.entry ⟨d, name⟩) : Except (Fault α) Target) := by
  rw [follow, if_neg hn.ne_here, if_neg hn.ne_up, if_neg (by rw [h]; exact Bool.false_ne_true)]
  rfl

end Following

end Path

namespace Store

variable {s t : Store α} {path : Text} {l : Location}

lemma placeToWrite_cases (h : s.placeToWrite path = .ok l) :
    s.entryAt path = .ok (l, false) ∧ l.name.length ≤ Path.maxName := by
  rw [placeToWrite, bind_eq_ok_iff] at h
  obtain ⟨⟨m, closed⟩, he, h⟩ := h
  simp only [check_eq_ok_iff] at h
  obtain ⟨hc, hl, hm⟩ := h
  obtain rfl := Except.ok.inj hm
  exact ⟨by rw [he, Bool.eq_false_iff.2 hc], Nat.not_lt.1 hl⟩

lemma entryAt_of_ok (ht : t.host = s.host) {e : Location × Bool} (h : s.entryAt path = .ok e) :
    t.entryAt path = .ok e := by
  have hd : t.isDirectory = s.isDirectory := by
    funext d
    rw [isDirectory, isDirectory, ht]
  simp only [entryAt, bind_eq_ok_iff, ht, hd] at h ⊢
  obtain ⟨p, hp, target, htarget, h⟩ := h
  exact ⟨p, hp, target, Path.follow_of_ok htarget, h⟩

lemma placeToWrite_of_ok (ht : t.host = s.host) (h : s.placeToWrite path = .ok l) :
    t.placeToWrite path = .ok l := by
  obtain ⟨he, hl⟩ := placeToWrite_cases h
  rw [placeToWrite, entryAt_of_ok ht he]
  simp only [bind, Except.bind, Bool.false_eq_true, if_false, Nat.not_lt.2 hl]
  rfl

lemma contentAt_of_placeToWrite (h : s.placeToWrite path = .ok l) {content : ByteArray}
    (hc : s.file? l = some content) : s.contentAt path = .ok content := by
  obtain ⟨he, hl⟩ := placeToWrite_cases h
  rw [contentAt, he]
  simp only [bind, Except.bind, Nat.not_lt.2 hl, if_false, hc, Bool.false_eq_true]
  rfl

/-- Every name that is short enough is a place to write in every directory that names lead to, but
for the names of the directories that are there. -/
theorem placeToWrite_of_names (absolute : Bool) (names : List (List UInt8)) (name : List UInt8)
    {cs : List Char}
    (hcs : cs.flatMap String.utf8EncodeChar = Path.spelled absolute (names ++ [name]))
    (hn : ∀ n ∈ names ++ [name], Path.IsName n)
    (hl : (cs.flatMap String.utf8EncodeChar).length ≤ Path.maxPath) {start : Directory}
    (hstart : (if absolute then [] else s.host.workingDirectory) = start)
    (hd : ∀ ns, ns <+: names → ns ≠ [] → s.isDirectory (ns.reverse ++ start) = true)
    (hname : s.isDirectory (name :: (names.reverse ++ start)) = false) :
    s.placeToWrite (Text.ofChars cs) =
      if Path.maxName < name.length then .error .nameTooLong
      else .ok ⟨names.reverse ++ start, name⟩ := by
  obtain ⟨hnames, hlast⟩ := List.forall_mem_append.1 hn
  have hpath : (Path.ofText (Text.ofChars cs) : Except (Fault α) Path) =
      .ok ⟨absolute, names ++ [name], false⟩ := by
    cases names with
    | nil => exact Path.ofText_spelled hcs hn hl
    | cons n names => exact Path.ofText_spelled hcs hn hl
  have htarget : Path.follow s.isDirectory s.isFile start (names ++ [name]) =
      (.ok (.entry ⟨names.reverse ++ start, name⟩) : Except (Fault α) Path.Target) := by
    rw [Path.follow_append hnames hd]
    exact Path.follow_name (hlast name (List.mem_singleton_self _)) hname
  rw [placeToWrite, entryAt, hpath]
  simp only [bind, Except.bind, hstart, htarget, pure, Except.pure, Bool.false_eq_true, if_false]
  split <;> rfl

lemma placeToWrite_of_name {c : List Char} (hn : Path.IsName (c.flatMap String.utf8EncodeChar))
    (hl : (c.flatMap String.utf8EncodeChar).length ≤ Path.maxPath)
    (hd : s.isDirectory (c.flatMap String.utf8EncodeChar :: s.host.workingDirectory) = false) :
    s.placeToWrite (Text.ofChars c) =
      if Path.maxName < (c.flatMap String.utf8EncodeChar).length then .error .nameTooLong
      else .ok ⟨s.host.workingDirectory, c.flatMap String.utf8EncodeChar⟩ :=
  placeToWrite_of_names false [] _ (List.append_nil _).symm
    (List.forall_mem_singleton.2 hn) hl rfl
    (fun _ hns hne => absurd (List.prefix_nil.1 hns) hne) hd

lemma setFile_setFile (s : Store α) (l : Location) (content content' : ByteArray) :
    (s.setFile l content).setFile l content' = s.setFile l content' := by
  simp [setFile, List.filter_filter]

end Store

end KnotSpline
