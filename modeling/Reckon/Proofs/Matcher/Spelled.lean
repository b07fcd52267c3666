import Reckon.Proofs.Matcher.Faithful

/-! What the tokens that matchers find are spelled with. Which token a text may be read as is told
by a relation between tokens and texts. A matcher keeps to such a relation if whatever it finds is
spelled with the characters that stand where it was looked for, leaf after leaf. For each way of
combining matchers the relation of the whole follows from those of the parts. Nothing is asked of
the position where a matcher is started: its line and its column may be anything, since the offset
alone says what is read. -/

namespace Reckon

/-- The leaf holds the characters `cs`, which stand from offset `i` on. -/
structure Leaf.Carries (src : Source) (i : Nat) (l : Leaf) (cs : List Char) : Prop where
  first : l.first.offset = i
  last : l.last.offset + 1 = i + cs.length
  text : l.text = String.ofList cs
  ne_nil : cs ≠ []
  stands : cs <+: src.rest i

/-- The leaves hold the characters `cs`, which stand from offset `i` on, one leaf after another. -/
inductive Row (src : Source) : Nat → List Leaf → List Char → Prop
  | nil {i : Nat} : Row src i [] []
  | cons {i : Nat} {l : Leaf} {ls : List Leaf} {cs ds : List Char} :
    l.Carries src i cs → Row src (i + cs.length) ls ds → Row src i (l :: ls) (cs ++ ds)

namespace Row

variable {src : Source} {i : Nat} {ls ms : List Leaf} {l : Leaf} {cs ds : List Char}

theorem singleton (h : l.Carries src i cs) : Row src i [l] cs := by
  have hrow := Row.cons h (.nil (i := i + cs.length))
  rwa [List.append_nil] at hrow

theorem append (h : Row src i ls cs) (h' : Row src (i + cs.length) ms ds) :
    Row src i (ls ++ ms) (cs ++ ds) := by
  induction h with
  | nil => exact h'
  | @cons i l ls cs ds' hl _ ih =>
    rw [List.length_append, ← Nat.add_assoc] at h'
    rw [List.append_assoc]
    exact .cons hl (ih h')

theorem stands (h : Row src i ls cs) : cs <+: src.rest i := by
  induction h with
  | nil => exact List.nil_prefix
  | @cons i l ls cs ds hl _ ih =>
    obtain ⟨tail, htail⟩ := hl.stands
    rw [Source.rest_of_rest htail.symm] at ih
    rw [← htail]
    exact (List.prefix_append_right_inj cs).mpr ih

theorem eq_nil_iff (h : Row src i ls cs) : ls = [] ↔ cs = [] := by
  cases h with
  | nil => simp
  | cons hl _ => simp [hl.ne_nil]

theorem first_of_head? (h : Row src i ls cs) (hl : ls.head? = some l) : l.first.offset = i := by
  cases h with
  | nil => cases hl
  | cons hcarries _ =>
    obtain rfl := Option.some.inj hl
    exact hcarries.first

theorem last_of_getLast? (h : Row src i ls cs) (hl : ls.getLast? = some l) :
    l.last.offset + 1 = i + cs.length := by
  induction h with
  | nil => cases hl
  | @cons i l' ls cs ds hcarries hrest ih =>
    cases ls with
    | nil =>
      obtain rfl := hrest.eq_nil_iff.mp rfl
      obtain rfl := Option.some.inj hl
      rw [List.append_nil]
      exact hcarries.last
    | cons l'' ls =>
      rw [List.getLast?_cons_cons] at hl
      rw [ih hl, List.length_append, Nat.add_assoc]

variable {α : Type} [Spanned α] [Leafed α] {t : α}

theorem first_offset (h : Row src i (Leafed.leaves t) cs) (hne : cs ≠ []) :
    (Spanned.first t).offset = i := by
  have hl := List.head?_eq_some_head (mt h.eq_nil_iff.mp hne)
  rw [Leafed.first_eq hl]
  exact h.first_of_head? hl

theorem last_offset (h : Row src i (Leafed.leaves t) cs) (hne : cs ≠ []) :
    (Spanned.last t).offset + 1 = i + cs.length := by
  have hl := List.getLast?_eq_some_getLast (mt h.eq_nil_iff.mp hne)
  rw [Leafed.last_eq hl]
  exact h.last_of_getLast? hl

/-- The text of a token is what it is spelled with. -/
theorem textOf (h : Row src i (Leafed.leaves t) cs) (hne : cs ≠ []) :
    src.textOf (Spanned.span t) = .ok (String.ofList cs) := by
  obtain ⟨tail, htail⟩ := h.stands
  have hlast : (Spanned.last t).offset = i + cs.length - 1 := by
    have hoffset := h.last_offset hne
    omega
  have hpos := List.length_pos_iff.mpr hne
  have hle := Source.le_length_of_rest htail.symm hne
  simp only [Source.textOf, Spanned.span, h.first_offset hne, hlast]
  rw [Source.slice_eq_between (by omega) hle, Source.between_of_rest htail.symm]

/-- Reading goes on behind the characters of the token. -/
theorem offset_of_resume {here next : Position}
    (h : Row src here.offset (Leafed.leaves t) cs) (hnext : resume src here t = .ok next) :
    next.offset = here.offset + cs.length := by
  rw [resume, Leafed.isEmpty_eq] at hnext
  split at hnext
  · rename_i hempty
    obtain rfl := h.eq_nil_iff.mp (List.isEmpty_iff.mp hempty)
    obtain rfl := Except.ok.inj hnext
    rfl
  · rename_i hempty
    rw [List.isEmpty_iff, h.eq_nil_iff] at hempty
    rw [Source.offset_of_advance hnext, h.last_offset hempty]

end Row

/-- What a part that may be missing is spelled with. -/
def IfAny {α : Type} (S : α → List Char → Prop) : Option α → List Char → Prop
  | some t, cs => S t cs
  | none, cs => cs = []

namespace Matcher

/-- Wherever the matcher is started, what it finds is spelled as told with what stands there. -/
def Spells {α : Type} [Spanned α] [Leafed α] (p : Matcher α) (S : α → List Char → Prop) : Prop :=
  ∀ ⦃src : Source⦄ ⦃here : Position⦄ ⦃t : α⦄, p src here = .found t →
    ∃ cs, S t cs ∧ Row src here.offset (Leafed.leaves t) cs

/-! Matchers of single leaves. -/

theorem spells_char (kind : LeafKind) (c : Char) :
    (char kind c).Spells fun l cs => l.kind = kind ∧ l.text = String.ofList cs ∧ cs = [c] := by
  intro src here l h
  rw [char] at h
  split at h
  · rename_i hc
    obtain rfl := Attempt.found.inj h
    have hrest := Source.rest_of_charAt hc
    have hcarries : (Leaf.single kind c here).Carries src here.offset [c] :=
      ⟨rfl, rfl, rfl, List.cons_ne_nil _ _, by rw [hrest]; exact ⟨_, rfl⟩⟩
    exact ⟨[c], ⟨rfl, rfl, rfl⟩, .singleton hcarries⟩
  · cases h

theorem spells_run (kind : LeafKind) (test : Char → Bool) :
    (run kind test).Spells fun l cs => l.kind = kind ∧ l.text = String.ofList cs ∧ cs ≠ [] ∧
      ∀ c ∈ cs, test c = true := by
  intro src here l h
  rw [run] at h
  split at h
  · cases h
  rename_i hne
  obtain ⟨stop, hstop, h⟩ := Attempt.bind_eq_found_iff.mp h
  obtain ⟨text, htext, h⟩ := Attempt.bind_eq_found_iff.mp h
  obtain rfl := Attempt.found.inj h
  have hend := Source.runEnd_eq src test here.offset
  -- The characters of the run are all those that pass the test.
  generalize hcs : (src.rest here.offset).takeWhile test = cs at hend
  have hpre : cs <+: src.rest here.offset := hcs ▸ List.takeWhile_prefix test
  obtain ⟨tail, htail⟩ := hpre
  have hnil : cs ≠ [] := by
    rintro rfl
    exact hne hend
  have hpos := List.length_pos_iff.mpr hnil
  have hle := Source.le_length_of_rest htail.symm hnil
  have hoffset : stop.offset = src.runEnd test here.offset - 1 := by
    cases hadvance : src.advance here (src.runEnd test here.offset - 1) with
    | error cause =>
      rw [hadvance] at hstop
      cases hstop
    | ok q =>
      rw [hadvance] at hstop
      obtain rfl := Attempt.found.inj hstop
      exact Source.offset_of_advance hadvance
  rw [hend, Source.slice_eq_between (by omega) hle, Source.between_of_rest htail.symm] at htext
  have hall : ∀ c ∈ cs, test c = true := by
    rw [← hcs]
    exact List.all_eq_true.mp List.all_takeWhile
  refine ⟨cs, ⟨rfl, (Attempt.found.inj htext).symm, hnil, hall⟩, .singleton ?_⟩
  exact ⟨rfl, by simp only; omega, (Attempt.found.inj htext).symm, hnil, tail, htail⟩

/-! What matchers are combined to. -/

variable {α β γ δ : Type} [Spanned α] [Leafed α] [Spanned β] [Leafed β] [Spanned γ] [Leafed γ]
  [Spanned δ] [Leafed δ] {p : Matcher α} {q : Matcher β} {r : Matcher γ}
  {S : α → List Char → Prop} {T : β → List Char → Prop} {U : γ → List Char → Prop}
  {V : δ → List Char → Prop}

theorem Spells.mono {S' : α → List Char → Prop} (h : p.Spells S)
    (hS : ∀ t cs, S t cs → S' t cs) : p.Spells S' := by
  intro src here t ht
  obtain ⟨cs, hcs, hrow⟩ := h ht
  exact ⟨cs, hS t cs hcs, hrow⟩

theorem Spells.firstOf {ps : List (Matcher α)} (h : ∀ p ∈ ps, p.Spells S) :
    (Matcher.firstOf ps).Spells S := by
  intro src here t ht
  induction ps with
  | nil => cases ht
  | cons p ps ih =>
    obtain ⟨hp, hps⟩ := List.forall_mem_cons.mp h
    rw [Matcher.firstOf] at ht
    cases hx : p src here with
    | found a =>
      rw [hx] at ht
      obtain rfl := Attempt.found.inj ht
      exact hp hx
    | absent =>
      rw [hx] at ht
      exact ih hps ht
    | fault cause =>
      rw [hx] at ht
      cases ht

theorem Spells.map {f : α → β} (h : p.Spells S)
    (hleaves : ∀ t, Leafed.leaves (f t) = Leafed.leaves t)
    (hT : ∀ t cs, S t cs → T (f t) cs) : (Matcher.map f p).Spells T := by
  intro src here b hb
  obtain ⟨t, ht, hb⟩ := Attempt.bind_eq_found_iff.mp hb
  obtain rfl := Attempt.found.inj hb
  obtain ⟨cs, hcs, hrow⟩ := h ht
  refine ⟨cs, hT t cs hcs, ?_⟩
  rw [hleaves]
  exact hrow

/-- A token is spelled with the characters it takes up. -/
theorem Spells.of_takesUp [Solid α] {src : Source} {here : Position} {i : Nat} {t : α}
    {cs : List Char} (h : p.Spells S) (ht : p src here = .found t) (htakes : TakesUp src i cs t) :
    S t cs := by
  obtain ⟨ds, hds, hrow⟩ := h ht
  have hne : ds ≠ [] := mt hrow.eq_nil_iff.mpr (Solid.leaves_ne_nil t)
  have htext := Except.ok.inj (htakes.text.symm.trans (hrow.textOf hne))
  obtain rfl := String.ofList_injective htext
  exact hds

/-- After what was found reading goes on behind the characters it is spelled with. -/
theorem Spells.step {src : Source} {here next : Position} {t : α} (h : p.Spells S)
    (ht : p.step src here = .found (t, next)) :
    ∃ cs, S t cs ∧ Row src here.offset (Leafed.leaves t) cs ∧
      next.offset = here.offset + cs.length := by
  obtain ⟨a, ha, ht⟩ := Attempt.bind_eq_found_iff.mp ht
  obtain ⟨n, hn, ht⟩ := Attempt.bind_eq_found_iff.mp ht
  obtain ⟨rfl, rfl⟩ := Prod.mk.inj (Attempt.found.inj ht)
  obtain ⟨cs, hcs, hrow⟩ := h ha
  cases hresume : resume src here a with
  | error cause =>
    rw [hresume] at hn
    cases hn
  | ok m =>
    rw [hresume] at hn
    obtain rfl := Attempt.found.inj hn
    exact ⟨cs, hcs, hrow, hrow.offset_of_resume hresume⟩

theorem Spells.seq2 {f : α → β → γ} (hp : p.Spells S) (hq : q.Spells T)
    (hleaves : ∀ a b, Leafed.leaves (f a b) = Leafed.leaves a ++ Leafed.leaves b)
    (hU : ∀ a b cs ds, S a cs → T b ds → U (f a b) (cs ++ ds)) : (Matcher.seq2 f p q).Spells U := by
  intro src here c hc
  obtain ⟨⟨a, next⟩, ha, hc⟩ := Attempt.bind_eq_found_iff.mp hc
  obtain ⟨⟨b, _⟩, hb, hc⟩ := Attempt.bind_eq_found_iff.mp hc
  obtain rfl := Attempt.found.inj hc
  obtain ⟨cs, hcs, hrow, hnext⟩ := hp.step ha
  obtain ⟨ds, hds, hrow', -⟩ := hq.step hb
  rw [hnext] at hrow'
  refine ⟨cs ++ ds, hU a b cs ds hcs hds, ?_⟩
  rw [hleaves]
  exact hrow.append hrow'

theorem Spells.seq3 {f : α → β → γ → δ} (hp : p.Spells S) (hq : q.Spells T) (hr : r.Spells U)
    (hleaves : ∀ a b c, Leafed.leaves (f a b c) =
      Leafed.leaves a ++ Leafed.leaves b ++ Leafed.leaves c)
    (hV : ∀ a b c cs ds es, S a cs → T b ds → U c es → V (f a b c) (cs ++ (ds ++ es))) :
    (Matcher.seq3 f p q r).Spells V := by
  intro src here d hd
  obtain ⟨⟨a, next⟩, ha, hd⟩ := Attempt.bind_eq_found_iff.mp hd
  obtain ⟨⟨b, next'⟩, hb, hd⟩ := Attempt.bind_eq_found_iff.mp hd
  obtain ⟨⟨c, _⟩, hc, hd⟩ := Attempt.bind_eq_found_iff.mp hd
  obtain rfl := Attempt.found.inj hd
  obtain ⟨cs, hcs, hrow, hnext⟩ := hp.step ha
  obtain ⟨ds, hds, hrow', hnext'⟩ := hq.step hb
  obtain ⟨es, hes, hrow'', -⟩ := hr.step hc
  rw [hnext'] at hrow''
  rw [hnext] at hrow' hrow''
  refine ⟨cs ++ (ds ++ es), hV a b c cs ds es hcs hds hes, ?_⟩
  rw [hleaves, List.append_assoc]
  exact hrow.append (hrow'.append hrow'')

theorem Spells.perhaps [Solid α] (h : p.Spells S) :
    (Matcher.perhaps p).Spells fun t cs => IfAny S t.toOption cs := by
  intro src here t ht
  rw [Matcher.perhaps] at ht
  split at ht
  · rename_i a ha
    obtain rfl := Attempt.found.inj ht
    exact h ha
  · obtain rfl := Attempt.found.inj ht
    exact ⟨[], rfl, .nil⟩
  · cases ht

/-- The tokens of a repetition are spelled one after another. -/
theorem Spells.collect {src : Source} {fuel : Nat} {here : Position} {ts : List α}
    (h : p.Spells S) (hts : Matcher.collect p src fuel here = .ok ts) :
    ∃ css, List.Forall₂ S ts css ∧
      Row src here.offset (ts.flatMap Leafed.leaves) css.flatten := by
  induction fuel generalizing here ts with
  | zero => cases hts
  | succ fuel ih =>
    rw [Matcher.collect] at hts
    split at hts
    · cases hts
    · obtain rfl := Except.ok.inj hts
      exact ⟨[], .nil, .nil⟩
    rename_i t ht
    obtain ⟨cs, hcs, hrow⟩ := h ht
    split at hts
    · obtain rfl := Except.ok.inj hts
      exact ⟨[], .nil, .nil⟩
    split at hts
    · cases hts
    rename_i next hnext
    split at hts
    · obtain rfl := Except.ok.inj hts
      refine ⟨[cs], .cons hcs .nil, ?_⟩
      rw [List.flatMap_singleton, List.flatten_singleton]
      exact hrow
    split at hts
    · cases hts
    rename_i tokens htokens
    obtain rfl := Except.ok.inj hts
    obtain ⟨css, hcss, hrows⟩ := ih htokens
    rw [hrow.offset_of_resume hnext] at hrows
    refine ⟨cs :: css, .cons hcs hcss, ?_⟩
    rw [List.flatMap_cons, List.flatten_cons]
    exact hrow.append hrows

theorem Spells.many {f : α → List α → β} (h : p.Spells S)
    (hleaves : ∀ t ts, Leafed.leaves (f t ts) = (t :: ts).flatMap Leafed.leaves)
    (hT : ∀ t ts css, List.Forall₂ S (t :: ts) css → T (f t ts) css.flatten) :
    (Matcher.many f p).Spells T := by
  intro src here b hb
  rw [Matcher.many] at hb
  split at hb
  · cases hb
  · cases hb
  · rename_i t ts hts
    obtain rfl := Attempt.found.inj hb
    obtain ⟨css, hcss, hrow⟩ := h.collect hts
    refine ⟨css.flatten, hT t ts css hcss, ?_⟩
    rw [hleaves]
    exact hrow

end Matcher

end Reckon
