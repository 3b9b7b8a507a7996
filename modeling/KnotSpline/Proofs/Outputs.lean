import KnotSpline.Proofs.Visits

/-! Pieces of text that follow what is met one after the other: whole texts while nothing stands in
the way, and a part of one at the first obstacle. -/

namespace KnotSpline

variable {α : Type}

namespace Visit

def StopsAmong (s : Store α) (visits : List (Visit α)) (e : Fault α) : Prop :=
  ∃ done v rest place, visits = done ++ v :: rest ∧ (∀ w ∈ done, w.Clear s) ∧ v.StopsAt s place e

lemma StopsAmong.of_singleton {s : Store α} {v : Visit α} {e : Fault α}
    (h : StopsAmong s [v] e) : ∃ place, v.StopsAt s place e := by
  obtain ⟨_ | ⟨w, done⟩, u, rest, place, hvisits, -, hu⟩ := h
  · obtain ⟨rfl, -⟩ := List.cons.inj hvisits
    exact ⟨place, hu⟩
  · obtain ⟨-, hnil⟩ := List.cons.inj hvisits
    exact absurd hnil.symm (List.append_ne_nil_of_right_ne_nil done (List.cons_ne_nil u rest))

end Visit

namespace Output

section Pieces

variable {β γ : Type} {e : Fault α} {b : β}

lemma bind_of_ok {o : Output α β} (h : o.outcome = .ok b) (f : β → Output α γ) :
    (o >>= f).outcome = (f b).outcome ∧ (o >>= f).text = o.text ++ (f b).text := by
  obtain ⟨chunks, outcome⟩ := o
  obtain rfl : outcome = .ok b := h
  exact ⟨rfl, List.flatten_append⟩

lemma bind_of_error {o : Output α β} (h : o.outcome = .error e) (f : β → Output α γ) :
    (o >>= f).outcome = .error e ∧ (o >>= f).text = o.text := by
  obtain ⟨chunks, outcome⟩ := o
  obtain rfl : outcome = .error e := h
  exact ⟨rfl, rfl⟩

lemma bind_assoc (o : Output α β) (f : β → Output α γ) {δ : Type} (g : γ → Output α δ) :
    o >>= f >>= g = o >>= fun b => f b >>= g := by
  obtain ⟨chunks, e | b⟩ := o
  · rfl
  · change Bind.bind ⟨chunks ++ (f b).chunks, (f b).outcome⟩ g =
      Bind.bind ⟨chunks, .ok b⟩ fun b => f b >>= g
    rcases h : f b with ⟨chunks', e | c⟩
    · simp only [Bind.bind, h]
    · simp only [Bind.bind, h, List.append_assoc]

lemma text_put (cs : List Char) : (put cs : Output α Unit).text = cs :=
  List.append_nil _

end Pieces

variable {s : Store α} {visits visits' : List (Visit α)} {before : List Char}
  {Whole Part Whole' Part' : List Char → Prop} {o o' : Output α Unit}

/-- The pieces follow what is met. After the text that stands before it comes the whole if nothing
stands in the way, and otherwise a part. -/
inductive Follows (s : Store α) (visits : List (Visit α)) (before : List Char)
    (Whole Part : List Char → Prop) (o : Output α Unit) : Prop
  | whole {cs : List Char} (clear : ∀ v ∈ visits, v.Clear s) (outcome : o.outcome = .ok ())
    (text : o.text = before ++ cs) (whole : Whole cs)
  | part {cs : List Char} {e : Fault α} (stops : Visit.StopsAmong s visits e)
    (outcome : o.outcome = .error e) (text : o.text = cs)
    (part : cs = [] ∨ ∃ ds, cs = before ++ ds ∧ Part ds)

namespace Follows

lemma imp (h : o.Follows s visits before Whole Part) (hw : ∀ cs, Whole cs → Whole' cs)
    (hp : ∀ cs, Part cs → Part' cs) : o.Follows s visits before Whole' Part' := by
  cases h with
  | whole clear outcome text whole => exact .whole clear outcome text (hw _ whole)
  | part stops outcome text part =>
    exact .part stops outcome text (part.imp_right fun ⟨ds, hds, h⟩ => ⟨ds, hds, hp ds h⟩)

lemma put (cs : List Char) :
    (Output.put cs).Follows s [] [] (fun ds => ds = cs) (fun _ => False) :=
  .whole (List.forall_mem_nil _) rfl (text_put cs) rfl

lemma nil : (pure () : Output α Unit).Follows s [] [] (fun ds => ds = []) (fun _ => False) :=
  .whole (List.forall_mem_nil _) rfl rfl rfl

lemma bind (h : o.Follows s visits before Whole Part) (h' : o'.Follows s visits' [] Whole' Part') :
    (o >>= fun _ => o').Follows s (visits ++ visits') before
      (fun cs => ∃ c d, cs = c ++ d ∧ Whole c ∧ Whole' d)
      (fun cs => Part cs ∨ ∃ c d, cs = c ++ d ∧ Whole c ∧ (d = [] ∨ Part' d)) := by
  cases h with
  | part stops outcome text part =>
    obtain ⟨done, v, rest, place, rfl, hdone, hv⟩ := stops
    obtain ⟨houtcome, htext⟩ := bind_of_error outcome fun _ => o'
    refine .part ⟨done, v, rest ++ visits', place, ?_, hdone, hv⟩ houtcome (htext.trans text)
      (part.imp_right fun ⟨ds, hds, h⟩ => ⟨ds, hds, .inl h⟩)
    rw [List.append_assoc, List.cons_append]
  | @whole c clear outcome text whole =>
    obtain ⟨houtcome, htext⟩ := bind_of_ok outcome fun _ => o'
    cases h' with
    | @whole d clear' outcome' text' whole' =>
      refine .whole (List.forall_mem_append.2 ⟨clear, clear'⟩) (houtcome.trans outcome')
        ?_ ⟨c, d, rfl, whole, whole'⟩
      rw [htext, text, text', List.nil_append, List.append_assoc]
    | @part d e stops outcome' text' part =>
      obtain ⟨done, v, rest, place, rfl, hdone, hv⟩ := stops
      refine .part ⟨visits ++ done, v, rest, place, (List.append_assoc _ _ _).symm,
        List.forall_mem_append.2 ⟨clear, hdone⟩, hv⟩ (houtcome.trans outcome') rfl
        (.inr ⟨c ++ d, ?_, .inr ⟨c, d, rfl, whole, ?_⟩⟩)
      · rw [htext, text, text', List.append_assoc]
      · exact part.imp_right fun ⟨ds, hds, h⟩ => hds ▸ h

lemma enclose (h : o.Follows s visits before Whole Part) :
    o.Follows s visits [] (fun cs => ∃ ds, cs = before ++ ds ∧ Whole ds)
      (fun cs => ∃ ds, cs = before ++ ds ∧ Part ds) := by
  cases h with
  | whole clear outcome text whole => exact .whole clear outcome text ⟨_, rfl, whole⟩
  | part stops outcome text part =>
    exact .part stops outcome text (part.imp_right fun h => ⟨_, rfl, h⟩)

lemma put_bind (h : o.Follows s visits [] Whole Part) :
    (do Output.put before; o).Follows s visits before Whole (fun cs => cs = [] ∨ Part cs) := by
  obtain ⟨houtcome, htext⟩ := bind_of_ok (o := Output.put before) (b := ()) rfl fun _ => o
  rw [text_put] at htext
  cases h with
  | whole clear outcome text whole =>
    exact .whole clear (houtcome.trans outcome) (htext.trans (congrArg _ text)) whole
  | part stops outcome text part =>
    refine .part stops (houtcome.trans outcome) htext (.inr ⟨_, rfl, ?_⟩)
    exact text ▸ part.imp_right fun ⟨ds, hds, h⟩ => hds ▸ h

variable {v : Visit α}

lemma of_inner (hv : v.obstacle? s = none) (h : o.Follows s (v.inner s) before Whole Part) :
    o.Follows s [v] before Whole Part := by
  cases h with
  | whole clear outcome text whole =>
    exact .whole (List.forall_mem_singleton.2 (Visit.clear_of_inner hv clear)) outcome text whole
  | part stops outcome text part =>
    obtain ⟨done, w, rest, place, hinner, hdone, hw⟩ := stops
    exact .part ⟨[], v, [], _, rfl, List.forall_mem_nil _, .cons hv hinner hdone hw⟩ outcome text
      part

lemma of_obstacle {e : Fault α} (hv : v.obstacle? s = some e) :
    (ofExcept (.error e)).Follows s [v] before Whole Part :=
  .part ⟨[], v, [], [], rfl, List.forall_mem_nil _, Visit.stopsAt_nil hv⟩ rfl rfl (.inl rfl)

lemma put_single (hv : v.obstacle? s = none) (hinner : v.inner s = []) {cs : List Char}
    (h : Whole cs) : (Output.put (before ++ cs)).Follows s [v] before Whole Part := by
  refine .whole (List.forall_mem_singleton.2 (Visit.clear_of_inner hv ?_)) rfl (text_put _) h
  rw [hinner]
  exact List.forall_mem_nil _

end Follows

end Output

end KnotSpline
