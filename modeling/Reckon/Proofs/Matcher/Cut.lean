import Reckon.Proofs.Matcher.Longest
import Reckon.Proofs.Matcher.Repeat
import Reckon.Proofs.Text.Cut

/-! What matchers find in a text that is cut off. What a matcher finds up to where the text is cut,
or before, it finds in the beginning that is left as well; where it misses in the whole text it
misses there, too. Only what it finds beyond the cut may be lost or change. Such a matcher depends
on nothing behind what it finds but that it can go on no further.

A sequence may find its first part beyond the cut and then fail, so it must be known that it fails
in the beginning as well. That is so if the part is cut off rather than lost: then it takes up all
that is left of the text, and nothing can follow it. -/

namespace Reckon.Matcher

variable {α β γ δ : Type}

/-- How what is found at an offset of a text compares to what is found in the beginning of it. -/
inductive Cut [Spanned α] [Leafed α] (p : Matcher α) (own src : Source) (i : Nat) : Prop
  /-- Nothing is found in either. -/
  | misses : p.Misses own i → p.Misses src i → Cut p own src i
  /-- The same is found in both. -/
  | finds {j : Nat} {t : α} : p.Finds own i j t → p.Finds src i j t → Cut p own src i
  /-- What is found in the text ends beyond its beginning. -/
  | beyond {j : Nat} {t : α} : own.length < j → p.Finds src i j t → Cut p own src i

/-- What the matcher finds, it finds as well where the text is cut off behind it. -/
def Kept [Spanned α] [Leafed α] (p : Matcher α) : Prop :=
  ∀ ⦃own src : Source⦄ ⦃i : Nat⦄, own.Begins src → i ≤ own.length → p.Cut own src i

/-- Where the text is cut off before the end of what the matcher finds, it finds all that is left.
-/
def Fills [Spanned α] [Leafed α] (p : Matcher α) : Prop :=
  ∀ ⦃own src : Source⦄ ⦃i j : Nat⦄ ⦃t : α⦄, own.Begins src → i < own.length → own.length < j →
    p.Finds src i j t → ∃ u, p.Finds own i own.length u

variable [Spanned α] [Leafed α] [Spanned β] [Leafed β] [Spanned γ] [Leafed γ] [Spanned δ]
  [Leafed δ]

/-- What is found at an offset ends at one offset only. -/
theorem Finds.stop_eq {p : Matcher α} {src : Source} {i j k : Nat} {t u : α}
    (h : p.Finds src i j t) (h' : p.Finds src i k u) : j = k := by
  obtain rfl := Attempt.found.inj (h.found.symm.trans h'.found)
  have hplace := Except.ok.inj (h.tiles.resume_eq.symm.trans h'.tiles.resume_eq)
  rw [← Source.offset_place h.tiles.le_length, hplace, Source.offset_place h'.tiles.le_length]

/-- At the end of a text nothing is found that takes up text. -/
theorem Faithful.misses_length [Solid α] {p : Matcher α} (hp : p.Faithful) (src : Source) :
    p.Misses src src.length := by
  rcases hp.misses_or_finds (Nat.le_refl src.length) with hmiss | ⟨j, t, ht⟩
  · exact hmiss
  · exact absurd ht.tiles.le_length (Nat.not_le_of_lt ht.lt)

/-- A text that is not cut off is its own beginning. -/
theorem Kept.faithful {p : Matcher α} (hp : p.Kept) : p.Faithful := by
  intro src i hi
  cases hp src.begins_refl hi with
  | misses hmiss _ =>
    rw [hmiss]
    trivial
  | finds ht _ =>
    rw [ht.found]
    exact ⟨_, ht.tiles⟩
  | beyond hlt ht => exact absurd ht.tiles.le_length (Nat.not_le_of_lt hlt)

theorem Kept.misses {p : Matcher α} (hp : p.Kept) {own src : Source} {i : Nat}
    (h : own.Begins src) (hi : i ≤ own.length) (hmiss : p.Misses src i) : p.Misses own i := by
  cases hp h hi with
  | misses hno _ => exact hno
  | finds _ ht => exact absurd hmiss ht.not_misses
  | beyond _ ht => exact absurd hmiss ht.not_misses

theorem Kept.finds {p : Matcher α} (hp : p.Kept) {own src : Source} {i j : Nat} {t : α}
    (h : own.Begins src) (hj : j ≤ own.length) (ht : p.Finds src i j t) : p.Finds own i j t := by
  cases hp h (Nat.le_trans ht.tiles.le hj) with
  | misses _ hmiss => exact absurd hmiss ht.not_misses
  | finds hu hu' =>
    obtain rfl := hu'.stop_eq ht
    obtain rfl := Attempt.found.inj (hu'.found.symm.trans ht.found)
    exact hu
  | beyond hlt hu =>
    rw [hu.stop_eq ht] at hlt
    omega

/-! Matchers of single leaves. -/

/-- A leaf is found in the beginning of the text if its characters stand there. -/
theorem Cut.of_carries {p : Matcher Leaf} {own src : Source} {i j : Nat} {cs : List Char}
    (kind : LeafKind) (h : own.Begins src) (hcarries : src.Carries i j cs)
    (hsrc : p.Finds src i j (src.leaf kind i j))
    (hown : own.Carries i j cs → p.Finds own i j (own.leaf kind i j)) : p.Cut own src i := by
  rcases Nat.lt_or_ge own.length j with hlt | hge
  · exact .beyond hlt hsrc
  · have hfinds := hown (h.carries_of_le hge hcarries)
    rw [h.leaf_eq kind hcarries.le hge] at hfinds
    exact .finds hfinds hsrc

theorem kept_char (kind : LeafKind) (c : Char) : (char kind c).Kept := by
  intro own src i h hi
  have hle := Nat.le_trans hi h.le_length
  by_cases hc : src.charAt i = some c
  · have hcarries := Source.carries_singleton hc
    exact .of_carries kind h hcarries (finds_char kind hcarries) (finds_char kind)
  · refine .misses (misses_char kind hi ?_) (misses_char kind hle ?_)
    · rintro d hd rfl
      exact hc (h.charAt hd)
    · rintro d hd rfl
      exact hc hd

/-- A single character is not cut off. -/
theorem fills_char (kind : LeafKind) (c : Char) : (char kind c).Fills := by
  intro own src i j l _ hi hj hl
  have hstop : j = i + 1 := by
    by_cases hc : src.charAt i = some c
    · exact hl.stop_eq (finds_char kind (Source.carries_singleton hc))
    · refine absurd (misses_char kind hl.tiles.start_le ?_) hl.not_misses
      rintro d hd rfl
      exact hc hd
  omega

theorem kept_symbol (kind : LeafKind) (s : Symbol) : (symbol kind s).Kept := by
  intro own src i h hi
  have hle := Nat.le_trans hi h.le_length
  cases hs : src.startsWithAt i s.chars with
  | true =>
    obtain ⟨tail, hrest⟩ := Source.startsWithAt_iff.mp hs
    have hcarries := Source.carries_of_rest hrest.symm (List.cons_ne_nil _ _)
    exact .of_carries kind h hcarries (finds_symbol kind hcarries) (finds_symbol kind)
  | false =>
    exact .misses (misses_symbol kind hi (h.startsWithAt_eq_false hs)) (misses_symbol kind hle hs)

theorem kept_run (kind : LeafKind) (test : Char → Bool) : (run kind test).Kept := by
  intro own src i h hi
  have hle := Nat.le_trans hi h.le_length
  rcases src.passes_or_fails i test with ⟨c, hc, htest⟩ | hno
  · obtain ⟨j, cs, hcarries, hne, hall, hstop⟩ := Source.exists_carries_run hc htest
    exact .of_carries kind h hcarries (finds_run kind hcarries hne hall hstop) fun hown =>
      finds_run kind hown hne hall fun d hd => hstop d (h.charAt hd)
  · exact .misses (misses_run kind hi fun d hd => hno d (h.charAt hd)) (misses_run kind hle hno)

/-- A run that goes on beyond the cut is cut off. -/
theorem fills_run (kind : LeafKind) (test : Char → Bool) : (run kind test).Fills := by
  intro own src i j l h hi hj hl
  rcases longest_run kind test hl.tiles.start_le with ⟨hmiss, -⟩ | ⟨k, u, cs, hu, hcarries, hcs⟩
  · exact absurd hmiss hl.not_misses
  obtain rfl := hl.stop_eq hu
  have hown : own.Carries i own.length (own.between i own.length) :=
    ⟨Nat.le_of_lt hi, Nat.le_refl _, rfl⟩
  have hne : own.between i own.length ≠ [] := by
    rw [← List.length_pos_iff, Source.length_between (Nat.le_refl _)]
    omega
  have hall : ∀ c ∈ own.between i own.length, test c = true := by
    intro c hc
    obtain ⟨m, hm, hlt, hat⟩ := Source.mem_between_iff.mp hc
    refine hcs.word.all c ?_
    rw [← hcarries.between_eq]
    exact Source.mem_between_iff.mpr ⟨m, hm, by omega, h.charAt hat⟩
  have hend : own.charAt own.length = none := Source.charAt_eq_none_iff.mpr (Nat.le_refl _)
  exact ⟨_, finds_run kind hown hne hall (by rw [hend]; nofun)⟩

/-! What matchers are combined to. -/

theorem Kept.firstOf {ps : List (Matcher α)} (h : ∀ p ∈ ps, p.Kept) :
    (Matcher.firstOf ps).Kept := by
  intro own src i hown hi
  induction ps with
  | nil => exact .misses rfl rfl
  | cons p ps ih =>
    obtain ⟨hp, hps⟩ := List.forall_mem_cons.mp h
    cases hp hown hi with
    | finds ht ht' => exact .finds ht.firstOf_head ht'.firstOf_head
    | beyond hlt ht => exact .beyond hlt ht.firstOf_head
    | misses hmiss hmiss' =>
      cases ih hps with
      | misses hrest hrest' =>
        exact .misses (hmiss.firstOf_eq.trans hrest) (hmiss'.firstOf_eq.trans hrest')
      | finds ht ht' => exact .finds (ht.firstOf_tail hmiss) (ht'.firstOf_tail hmiss')
      | beyond hlt ht => exact .beyond hlt (ht.firstOf_tail hmiss')

theorem Kept.firstOf_pair {p q : Matcher α} (hp : p.Kept) (hq : q.Kept) :
    (Matcher.firstOf [p, q]).Kept :=
  Kept.firstOf (List.forall_mem_cons.mpr ⟨hp, List.forall_mem_singleton.mpr hq⟩)

/-- Alternatives that miss in the text miss in its beginning, so the one that is cut off is still
the first to find something. -/
theorem Fills.firstOf {ps : List (Matcher α)} (h : ∀ p ∈ ps, p.Kept ∧ p.Fills) :
    (Matcher.firstOf ps).Fills := by
  intro own src i j t hown hi hj ht
  induction ps with
  | nil => cases ht.found
  | cons p ps ih =>
    obtain ⟨⟨hkept, hfills⟩, hps⟩ := List.forall_mem_cons.mp h
    cases hkept hown (Nat.le_of_lt hi) with
    | misses hmiss hmiss' =>
      obtain ⟨u, hu⟩ := ih hps ⟨hmiss'.firstOf_eq.symm.trans ht.found, ht.tiles⟩
      exact ⟨u, hu.firstOf_tail hmiss⟩
    | finds hu hu' =>
      have hstop := hu'.firstOf_head.stop_eq ht
      have hle := hu.tiles.le_length
      omega
    | beyond hlt hu =>
      obtain ⟨u, hu⟩ := hfills hown hi hlt hu
      exact ⟨u, hu.firstOf_head⟩

theorem Kept.map {p : Matcher α} {f : α → β} (hp : p.Kept)
    (hleaves : ∀ t, Leafed.leaves (f t) = Leafed.leaves t) : (Matcher.map f p).Kept := by
  intro own src i h hi
  cases hp h hi with
  | misses hmiss hmiss' => exact .misses (hmiss.map f) (hmiss'.map f)
  | finds ht ht' => exact .finds (ht.map (hleaves _)) (ht'.map (hleaves _))
  | beyond hlt ht => exact .beyond hlt (ht.map (hleaves _))

theorem Kept.perhaps [Solid α] {p : Matcher α} (hp : p.Kept) : (Matcher.perhaps p).Kept := by
  intro own src i h hi
  have hle := Nat.le_trans hi h.le_length
  cases hp h hi with
  | misses hmiss hmiss' =>
    have hmissing := hmiss.perhaps hi
    rw [h.place_eq hi] at hmissing
    exact .finds hmissing (hmiss'.perhaps hle)
  | finds ht ht' => exact .finds ht.perhaps ht'.perhaps
  | beyond hlt ht => exact .beyond hlt ht.perhaps

theorem Fills.perhaps [Solid α] {p : Matcher α} (hp : p.Fills) (hkept : p.Kept) :
    (Matcher.perhaps p).Fills := by
  intro own src i j t h hi hj ht
  cases hkept h (Nat.le_of_lt hi) with
  | misses _ hmiss =>
    have hstop := (hmiss.perhaps ht.tiles.start_le).stop_eq ht
    omega
  | finds hu hu' =>
    have hstop := hu'.perhaps.stop_eq ht
    have hle := hu.tiles.le_length
    omega
  | beyond hlt hu =>
    obtain ⟨u, hu⟩ := hp h hi hlt hu
    exact ⟨_, hu.perhaps⟩

/-- In the beginning of the text nothing is left behind what was cut off. -/
theorem Fills.misses_or_finds {p : Matcher α} (hp : p.Fills) (hkept : p.Kept) {own src : Source}
    {i j : Nat} {t : α} (h : own.Begins src) (hi : i ≤ own.length) (hj : own.length < j)
    (ht : p.Finds src i j t) : p.Misses own i ∨ ∃ u, p.Finds own i own.length u := by
  rcases Nat.lt_or_eq_of_le hi with hlt | rfl
  · exact .inr (hp h hlt hj ht)
  · rcases hkept.faithful.misses_or_finds hi with hmiss | ⟨k, u, hu⟩
    · exact .inl hmiss
    · obtain rfl : own.length = k := Nat.le_antisymm hu.tiles.le hu.tiles.le_length
      exact .inr ⟨u, hu⟩

/-- Where the first part is cut off, the second one misses, so the sequence fails in the beginning
of the text, unless it is found beyond it. -/
theorem Kept.seq2 [Solid β] {p : Matcher α} {q : Matcher β} {f : α → β → γ} (hp : p.Kept)
    (hfills : p.Fills) (hq : q.Kept)
    (hleaves : ∀ a b, Leafed.leaves (f a b) = Leafed.leaves a ++ Leafed.leaves b) :
    (Matcher.seq2 f p q).Kept := by
  intro own src i h hi
  cases hp h hi with
  | misses hmiss hmiss' => exact .misses hmiss.seq2 hmiss'.seq2
  | finds ha ha' =>
    cases hq h ha.tiles.le_length with
    | misses hmiss hmiss' => exact .misses (ha.misses_seq2 hmiss) (ha'.misses_seq2 hmiss')
    | finds hb hb' => exact .finds (ha.seq2 hb (hleaves _ _)) (ha'.seq2 hb' (hleaves _ _))
    | beyond hlt hb => exact .beyond hlt (ha'.seq2 hb (hleaves _ _))
  | beyond hlt ha =>
    rcases hq.faithful.misses_or_finds ha.tiles.le_length with hmiss | ⟨j, b, hb⟩
    · refine .misses ?_ (ha.misses_seq2 hmiss)
      rcases hfills.misses_or_finds hp h hi hlt ha with hno | ⟨u, hu⟩
      · exact hno.seq2
      · exact hu.misses_seq2 (hq.faithful.misses_length own)
    · exact .beyond (Nat.lt_of_lt_of_le hlt hb.tiles.le) (ha.seq2 hb (hleaves _ _))

section Three

variable {p : Matcher α} {q : Matcher β} {r : Matcher γ} {f : α → β → γ → δ} {own src : Source}
  {i m n : Nat} {a : α} {b : β}

/-- Behind two parts that are the same in both texts the third one decides. -/
theorem Kept.cut_seq3 (hr : r.Kept) (h : own.Begins src) (ha : p.Finds own i m a)
    (ha' : p.Finds src i m a) (hb : q.Finds own m n b) (hb' : q.Finds src m n b)
    (hleaves : ∀ a b c, Leafed.leaves (f a b c) =
      Leafed.leaves a ++ Leafed.leaves b ++ Leafed.leaves c) :
    (Matcher.seq3 f p q r).Cut own src i := by
  cases hr h hb.tiles.le_length with
  | misses hmiss hmiss' =>
    exact .misses (ha.misses_seq3_of_finds hb hmiss) (ha'.misses_seq3_of_finds hb' hmiss')
  | finds hc hc' =>
    exact .finds (ha.seq3 hb hc (hleaves _ _ _)) (ha'.seq3 hb' hc' (hleaves _ _ _))
  | beyond hlt hc => exact .beyond hlt (ha'.seq3 hb' hc (hleaves _ _ _))

omit [Leafed γ] [Spanned δ] [Leafed δ] in
/-- Behind a part that takes up all that is left the third one misses. -/
theorem Faithful.misses_seq3 (hq : q.Faithful) (hr : r.Misses own own.length)
    (hp : p.Misses own i ∨ ∃ u, p.Finds own i own.length u) :
    (Matcher.seq3 f p q r).Misses own i := by
  rcases hp with hno | ⟨u, hu⟩
  · exact hno.seq3
  rcases hq.misses_or_finds (Nat.le_refl own.length) with hno | ⟨k, b, hb⟩
  · exact hu.misses_seq3 hno
  · obtain rfl : own.length = k := Nat.le_antisymm hb.tiles.le hb.tiles.le_length
    exact hu.misses_seq3_of_finds hb hr

theorem Kept.seq3 [Solid γ] (hp : p.Kept) (hpfills : p.Fills) (hq : q.Kept) (hqfills : q.Fills)
    (hr : r.Kept)
    (hleaves : ∀ a b c, Leafed.leaves (f a b c) =
      Leafed.leaves a ++ Leafed.leaves b ++ Leafed.leaves c) : (Matcher.seq3 f p q r).Kept := by
  intro own src i h hi
  have hend := hr.faithful.misses_length own
  cases hp h hi with
  | misses hmiss hmiss' => exact .misses hmiss.seq3 hmiss'.seq3
  | finds ha ha' =>
    have hm := ha.tiles.le_length
    cases hq h hm with
    | misses hmiss hmiss' => exact .misses (ha.misses_seq3 hmiss) (ha'.misses_seq3 hmiss')
    | finds hb hb' => exact hr.cut_seq3 h ha ha' hb hb' hleaves
    | beyond hlt hb =>
      rcases hr.faithful.misses_or_finds hb.tiles.le_length with hmiss | ⟨j, c, hc⟩
      · refine .misses ?_ (ha'.misses_seq3_of_finds hb hmiss)
        rcases hqfills.misses_or_finds hq h hm hlt hb with hno | ⟨u, hu⟩
        · exact ha.misses_seq3 hno
        · exact ha.misses_seq3_of_finds hu hend
      · exact .beyond (Nat.lt_of_lt_of_le hlt hc.tiles.le) (ha'.seq3 hb hc (hleaves _ _ _))
  | beyond hlt ha =>
    have hno : (Matcher.seq3 f p q r).Misses own i :=
      hq.faithful.misses_seq3 hend (hpfills.misses_or_finds hp h hi hlt ha)
    rcases hq.faithful.misses_or_finds ha.tiles.le_length with hmiss | ⟨k, b, hb⟩
    · exact .misses hno (ha.misses_seq3 hmiss)
    rcases hr.faithful.misses_or_finds hb.tiles.le_length with hmiss | ⟨j, c, hc⟩
    · exact .misses hno (ha.misses_seq3_of_finds hb hmiss)
    · have hle := Nat.le_trans hb.tiles.le hc.tiles.le
      exact .beyond (Nat.lt_of_lt_of_le hlt hle) (ha.seq3 hb hc (hleaves _ _ _))

end Three

/-- A sequence whose later parts may be missing does not fail once its first part is found. -/
theorem Kept.seq3_perhaps [Solid β] [Solid γ] {p : Matcher α} {q : Matcher β} {r : Matcher γ}
    {f : α → Perhaps β → Perhaps γ → δ} (hp : p.Kept) (hq : q.Kept) (hr : r.Kept)
    (hleaves : ∀ a b c, Leafed.leaves (f a b c) =
      Leafed.leaves a ++ Leafed.leaves b ++ Leafed.leaves c) :
    (Matcher.seq3 f p (Matcher.perhaps q) (Matcher.perhaps r)).Kept := by
  intro own src i h hi
  cases hp h hi with
  | misses hmiss hmiss' => exact .misses hmiss.seq3 hmiss'.seq3
  | finds ha ha' =>
    cases hq.perhaps h ha.tiles.le_length with
    | misses hmiss hmiss' => exact .misses (ha.misses_seq3 hmiss) (ha'.misses_seq3 hmiss')
    | finds hb hb' => exact hr.perhaps.cut_seq3 h ha ha' hb hb' hleaves
    | beyond hlt hb =>
      obtain ⟨j, c, hc⟩ := hr.faithful.exists_finds_perhaps hb.tiles.le_length
      exact .beyond (Nat.lt_of_lt_of_le hlt hc.tiles.le) (ha'.seq3 hb hc (hleaves _ _ _))
  | beyond hlt ha =>
    obtain ⟨k, b, hb⟩ := hq.faithful.exists_finds_perhaps ha.tiles.le_length
    obtain ⟨j, c, hc⟩ := hr.faithful.exists_finds_perhaps hb.tiles.le_length
    have hle := Nat.le_trans hb.tiles.le hc.tiles.le
    exact .beyond (Nat.lt_of_lt_of_le hlt hle) (ha.seq3 hb hc (hleaves _ _ _))

/-- The tokens that are found in turn are found in the beginning of the text as well, unless the
last of them ends beyond it. -/
theorem Repeats.of_kept [Solid α] {p : Matcher α} {own src : Source} {i j : Nat} {ts : List α}
    (hr : p.Repeats src i j ts) (hp : p.Kept) (h : own.Begins src) (hi : i ≤ own.length) :
    p.Repeats own i j ts ∨ own.length < j := by
  induction hr with
  | nil _ hmiss => exact .inl (.nil hi (hp.misses h hi hmiss))
  | @cons i m j t ts ht hts ih =>
    rcases Nat.lt_or_ge own.length m with hlt | hge
    · exact .inr (Nat.lt_of_lt_of_le hlt hts.tiles.le)
    · exact (ih hge).imp_left (.cons (hp.finds h hge ht))

theorem Kept.many [Solid α] {p : Matcher α} {f : α → List α → β} (hp : p.Kept)
    (hleaves : ∀ t ts, Leafed.leaves (f t ts) = (t :: ts).flatMap Leafed.leaves) :
    (Matcher.many f p).Kept := by
  intro own src i h hi
  obtain ⟨j, ts, hts⟩ := hp.faithful.exists_repeats (Nat.le_trans hi h.le_length)
  cases ts with
  | nil =>
    cases hts with
    | nil _ hmiss => exact .misses (hp.misses h hi hmiss).many hmiss.many
  | cons t ts =>
    have hmany := hts.finds_many (hleaves t ts)
    rcases hts.of_kept hp h hi with hown | hlt
    · exact .finds (hown.finds_many (hleaves t ts)) hmany
    · exact .beyond hlt hmany

end Reckon.Matcher
