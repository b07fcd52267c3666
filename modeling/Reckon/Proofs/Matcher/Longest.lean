import Reckon.Proofs.Grammar.Number
import Reckon.Proofs.Matcher.Choice
import Reckon.Proofs.Matcher.Repeat

/-! Matchers that take the longest word. The words of a matcher are the texts it may find. Which of
them stand at a place is a matter of the text alone, and all of those are prefixes of one another. A
matcher that takes the longest of them never gives up a longer one for a choice it made before. In a
sequence that might happen: a part that takes all it can get may take what the next part needs. It
does not if no word of the next part begins with a character that a word of the part goes on with. A
repetition is a sequence of any length, and what is asked of it is asked of the words of its one
part.
-/

namespace Reckon

/-- The longest of the words that the text begins with. -/
structure LongestOf (L : List Char → Prop) (text cs : List Char) : Prop where
  word : L cs
  stands : cs <+: text
  longest : ∀ ds, L ds → ds <+: text → ds.length ≤ cs.length

/-- A word of the one kind and behind it a word of the other. -/
inductive Joined (L M : List Char → Prop) : List Char → Prop
  | mk {xs ys : List Char} : L xs → M ys → Joined L M (xs ++ ys)

theorem Joined.cons {L M : List Char → Prop} {c : Char} {ys : List Char} (hc : L [c])
    (hys : M ys) : Joined L M (c :: ys) :=
  .mk hc hys

/-- Where a word of the one kind goes on, no word of the other begins. -/
def StopsBefore (L M : List Char → Prop) : Prop :=
  ∀ ⦃xs : List Char⦄ ⦃c : Char⦄ ⦃xs' ys : List Char⦄, L xs → L (xs ++ c :: xs') → ¬M (c :: ys)

theorem stopsBefore_of_length {L : List Char → Prop} {n : Nat} (h : ∀ cs, L cs → cs.length = n)
    (M : List Char → Prop) : StopsBefore L M := by
  intro xs c xs' ys hxs hlong _
  have hshort := h _ hxs
  have hlength := h _ hlong
  rw [List.length_append, List.length_cons] at hlength
  omega

/-- Words that a word may be joined to begin with a character of the one or, behind the empty word,
with a character of the other. -/
theorem StopsBefore.joined {L M N : List Char → Prop} (hM : StopsBefore L M)
    (hN : StopsBefore L N) : StopsBefore L (Joined M N) := by
  intro xs c xs' ys hxs hlong hjoined
  generalize hcs : c :: ys = cs at hjoined
  obtain ⟨hm, hn⟩ := hjoined
  rename_i ms ns
  cases ms with
  | nil =>
    rw [List.nil_append] at hcs
    subst hcs
    exact hN hxs hlong hn
  | cons m ms =>
    obtain ⟨rfl, -⟩ := List.cons.inj hcs
    exact hM hxs hlong hm

/-- Any number of words one after another. -/
inductive Chained (L : List Char → Prop) : List Char → Prop
  | nil : Chained L []
  | cons {xs ys : List Char} : L xs → Chained L ys → Chained L (xs ++ ys)

/-- Chained words begin with a character that one of the words begins with. -/
theorem Chained.exists_head {L : List Char → Prop} {c : Char} {cs : List Char}
    (h : Chained L (c :: cs)) : ∃ ys, L (c :: ys) := by
  generalize hcs : c :: cs = text at h
  induction h with
  | nil => cases hcs
  | @cons xs ys hxs _ ih =>
    cases xs with
    | nil => exact ih hcs
    | cons x xs =>
      obtain ⟨rfl, -⟩ := List.cons.inj hcs
      exact ⟨xs, hxs⟩

theorem StopsBefore.chained {L M : List Char → Prop} (h : StopsBefore L M) :
    StopsBefore L (Chained M) := by
  intro xs c xs' ys hxs hlong hchained
  obtain ⟨zs, hzs⟩ := hchained.exists_head
  exact h hxs hlong hzs

/-- Where words may stop, one that is chained to others is not part of a longer one: what follows
chained words in a longer chain are chained words again. -/
theorem Chained.of_append {L : List Char → Prop} (hLL : StopsBefore L L) {cs more : List Char}
    {c : Char} (hcs : Chained L cs) (hall : Chained L (cs ++ c :: more))
    (hc : ∃ ys, L (c :: ys)) : Chained L (c :: more) := by
  obtain ⟨zs, hzs⟩ := hc
  induction hcs with
  | nil => exact hall
  | @cons xs ys hxs hys ih =>
    -- Whatever stands behind the first word begins another one.
    have hnext : ∀ d ds, ys ++ c :: more = d :: ds → ∃ ws, L (d :: ws) := by
      intro d ds heq
      cases ys with
      | nil =>
        obtain ⟨rfl, -⟩ := List.cons.inj heq
        exact ⟨zs, hzs⟩
      | cons y ys =>
        obtain ⟨rfl, -⟩ := List.cons.inj heq
        exact hys.exists_head
    rw [List.append_assoc] at hall
    generalize htext : xs ++ (ys ++ c :: more) = text at hall
    cases hall with
    | nil => simp at htext
    | @cons xs' ys' hxs' hys' =>
      rcases List.append_eq_append_iff.mp htext with ⟨t, rfl, ht⟩ | ⟨t, rfl, ht⟩
      · cases t with
        | nil =>
          rw [List.nil_append] at ht
          exact ih (ht ▸ hys')
        | cons d t =>
          obtain ⟨ws, hws⟩ := hnext d _ ht
          exact absurd hws (hLL hxs hxs')
      · cases t with
        | nil =>
          rw [List.nil_append] at ht
          exact ih (ht ▸ hys')
        | cons d t =>
          obtain rfl : ys' = d :: (t ++ (ys ++ c :: more)) := ht
          obtain ⟨ws, hws⟩ := hys'.exists_head
          exact absurd hws (hLL hxs' hxs)

theorem head_eq_of_prefix {c d : Char} {xs ys : List Char}
    (h : c :: xs <+: d :: ys ∨ d :: ys <+: c :: xs) : c = d := by
  rcases h with h | h
  · exact (List.cons_prefix_cons.mp h).1
  · exact (List.cons_prefix_cons.mp h).1.symm

namespace LongestOf

variable {L M : List Char → Prop} {xs ys text : List Char}

/-- Of a joined word that stands there the first part is the longest, or the second part is empty.
-/
theorem joined_cases (h : LongestOf L (xs ++ text) xs) (hLM : StopsBefore L M)
    {as bs : List Char} (ha : L as) (hb : M bs) (hstands : as ++ bs <+: xs ++ text) :
    as = xs ∧ bs <+: text ∨ bs = [] ∧ as.length ≤ xs.length := by
  have has : as <+: xs ++ text := (List.prefix_append as bs).trans hstands
  have hle := h.longest as ha has
  obtain ⟨xs', rfl⟩ := List.prefix_of_prefix_length_le has (List.prefix_append xs text) hle
  rw [List.append_assoc, List.prefix_append_right_inj] at hstands
  cases xs' with
  | nil =>
    left
    rw [List.append_nil]
    exact ⟨rfl, hstands⟩
  | cons c xs' =>
    cases bs with
    | nil => exact .inr ⟨rfl, hle⟩
    | cons b bs =>
      obtain ⟨rfl, -⟩ := List.cons_prefix_cons.mp hstands
      exact absurd hb (hLM ha h.word)

/-- The longest word of the one kind and behind it the longest of the other. -/
theorem append (hx : LongestOf L (xs ++ text) xs) (hy : LongestOf M text ys)
    (hLM : StopsBefore L M) : LongestOf (Joined L M) (xs ++ text) (xs ++ ys) where
  word := .mk hx.word hy.word
  stands := (List.prefix_append_right_inj xs).mpr hy.stands
  longest := by
    rintro ds ⟨ha, hb⟩ hstands
    rcases hx.joined_cases hLM ha hb hstands with ⟨rfl, hbs⟩ | ⟨rfl, hle⟩
    · have hle := hy.longest _ hb hbs
      simp only [List.length_append]
      omega
    · simp only [List.length_append, List.length_nil]
      omega

/-- Where none of the other words stands behind the longest of the one kind, none does behind any
of them. -/
theorem not_joined (hx : LongestOf L (xs ++ text) xs) (hno : ∀ ds, M ds → ¬ds <+: text)
    (hLM : StopsBefore L M) : ∀ ds, Joined L M ds → ¬ds <+: xs ++ text := by
  rintro ds ⟨ha, hb⟩ hstands
  rcases hx.joined_cases hLM ha hb hstands with ⟨-, hbs⟩ | ⟨rfl, -⟩
  · exact hno _ hb hbs
  · exact hno [] hb List.nil_prefix

/-- There is but one longest word. -/
theorem unique (h : LongestOf L text xs) (h' : LongestOf L text ys) : xs = ys :=
  (List.prefix_of_prefix_length_le h.stands h'.stands (h'.longest xs h.word h.stands)).eq_of_length_le
    (h.longest ys h'.word h'.stands)

/-- A chain is the longest if some word begins like the text behind it, but none stands there. -/
theorem of_chained {tail : List Char} (hLL : StopsBefore L L) (hxs : Chained L xs)
    (hbegins : ∀ c ∈ tail.head?, ∃ ys, L (c :: ys)) (hno : ∀ ds, L ds → ¬ds <+: tail) :
    LongestOf (Chained L) (xs ++ tail) xs where
  word := hxs
  stands := List.prefix_append xs tail
  longest := by
    intro ds hds hprefix
    by_contra hlt
    obtain ⟨more, rfl⟩ := List.prefix_of_prefix_length_le (List.prefix_append xs tail) hprefix
      (Nat.le_of_not_le hlt)
    rw [List.prefix_append_right_inj] at hprefix
    cases more with
    | nil => simp at hlt
    | cons c more =>
      have hhead : c ∈ tail.head? := by
        obtain ⟨rest, rfl⟩ := hprefix
        rfl
      generalize htext : c :: more = text at hprefix
      have hmore : Chained L text := htext ▸ hxs.of_append hLL hds (hbegins c hhead)
      cases hmore with
      | nil => cases htext
      | cons hword _ => exact hno _ hword ((List.prefix_append _ _).trans hprefix)

/-- The longest chain of one or more words is the longest of all chains. -/
theorem chained (h : LongestOf (Joined L (Chained L)) text xs) : LongestOf (Chained L) text xs where
  word := by
    obtain ⟨hx, hxs⟩ := h.word
    exact .cons hx hxs
  stands := h.stands
  longest := by
    intro ds hds hprefix
    cases hds with
    | nil => exact Nat.zero_le _
    | cons hx hxs => exact h.longest _ (.mk hx hxs) hprefix

end LongestOf

namespace Matcher

/-- The matcher finds the longest word that stands where it is started, and misses if none does. -/
def Longest {α : Type} [Spanned α] [Leafed α] (p : Matcher α) (L : List Char → Prop) : Prop :=
  ∀ ⦃src : Source⦄ ⦃i : Nat⦄, i ≤ src.length →
    (p.Misses src i ∧ ∀ cs, L cs → ¬cs <+: src.rest i) ∨
      ∃ j t cs, p.Finds src i j t ∧ src.Carries i j cs ∧ LongestOf L (src.rest i) cs

variable {α β γ δ : Type} [Spanned α] [Leafed α] [Spanned β] [Leafed β] [Spanned γ] [Leafed γ]
  [Spanned δ] [Leafed δ] {p : Matcher α} {q : Matcher β} {r : Matcher γ}
  {L M N : List Char → Prop}

theorem Longest.congr (h : p.Longest L) (hLM : ∀ cs, L cs ↔ M cs) : p.Longest M := by
  have hsame : L = M := funext fun cs => propext (hLM cs)
  exact hsame ▸ h

/-! Matchers of single leaves. -/

theorem longest_char (kind : LeafKind) (c : Char) : (char kind c).Longest (· = [c]) := by
  intro src i hi
  by_cases hc : src.charAt i = some c
  · have hcarries := Source.carries_singleton hc
    refine .inr ⟨_, _, [c], finds_char kind hcarries, hcarries, rfl, ?_, ?_⟩
    · rw [hcarries.rest_eq]
      exact List.prefix_append _ _
    · rintro ds rfl _
      exact Nat.le_refl _
  · refine .inl ⟨misses_char kind hi ?_, ?_⟩
    · rintro d hd rfl
      exact hc hd
    · rintro cs rfl ⟨tail, htail⟩
      exact hc (Source.charAt_of_rest htail.symm)

theorem longest_run (kind : LeafKind) (test : Char → Bool) :
    (run kind test).Longest (IsRun test) := by
  intro src i hi
  rcases src.passes_or_fails i test with ⟨c, hc, htest⟩ | hno
  · obtain ⟨j, cs, hcarries, hne, hall, hstop⟩ := Source.exists_carries_run hc htest
    refine .inr ⟨j, _, cs, finds_run kind hcarries hne hall hstop, hcarries, ⟨hne, hall⟩, ?_, ?_⟩
    · rw [hcarries.rest_eq]
      exact List.prefix_append _ _
    · -- A longer word would hold the character behind the run.
      intro ds hds hprefix
      by_contra hlt
      rw [hcarries.rest_eq] at hprefix
      obtain ⟨ds', rfl⟩ := List.prefix_of_prefix_length_le (List.prefix_append _ (src.rest j))
        hprefix (Nat.le_of_not_le hlt)
      rw [List.prefix_append_right_inj] at hprefix
      cases ds' with
      | nil => simp at hlt
      | cons d ds' =>
        obtain ⟨tail, htail⟩ := hprefix
        have hfails := hstop d (Source.charAt_of_rest htail.symm)
        rw [hds.all d (List.mem_append_right _ List.mem_cons_self)] at hfails
        cases hfails
  · refine .inl ⟨misses_run kind hi hno, ?_⟩
    rintro cs hcs ⟨tail, htail⟩
    obtain ⟨c, rest, rfl⟩ := List.exists_cons_of_ne_nil hcs.ne_nil
    have hfails := hno c (Source.charAt_of_rest htail.symm)
    rw [hcs.all c List.mem_cons_self] at hfails
    cases hfails

/-! What matchers are combined to. -/

theorem longest_firstOf_nil : (firstOf ([] : List (Matcher α))).Longest fun _ => False :=
  fun _ _ _ => .inl ⟨rfl, fun _ h => h.elim⟩

/-- The first alternative may win where the others would find something, too. It must have a word
for that, so that it takes no less than they would. -/
theorem Longest.firstOf_cons {ps : List (Matcher α)} (hp : p.Longest L)
    (hps : (firstOf ps).Longest M)
    (hLM : ∀ xs ys, L xs → M ys → xs <+: ys ∨ ys <+: xs → L ys) :
    (firstOf (p :: ps)).Longest fun cs => L cs ∨ M cs := by
  intro src i hi
  rcases hp hi with ⟨hmiss, hno⟩ | ⟨j, t, cs, hfinds, hcarries, hlongest⟩
  · rcases hps hi with ⟨hmiss', hno'⟩ | ⟨j, t, cs, hfinds, hcarries, hlongest⟩
    · refine .inl ⟨hmiss.firstOf_eq.trans hmiss', ?_⟩
      rintro cs (hcs | hcs)
      · exact hno cs hcs
      · exact hno' cs hcs
    · refine .inr ⟨j, t, cs, .firstOf_tail hmiss hfinds, hcarries, .inr hlongest.word,
        hlongest.stands, ?_⟩
      rintro ds (hds | hds) hprefix
      · exact absurd hprefix (hno ds hds)
      · exact hlongest.longest ds hds hprefix
  · refine .inr ⟨j, t, cs, hfinds.firstOf_head, hcarries, .inl hlongest.word, hlongest.stands, ?_⟩
    rintro ds (hds | hds) hprefix
    · exact hlongest.longest ds hds hprefix
    · have hword := hLM cs ds hlongest.word hds
        (List.prefix_or_prefix_of_prefix hlongest.stands hprefix)
      exact hlongest.longest ds hword hprefix

/-- An alternative, the words it takes and the characters that these begin with. -/
structure Branch (α : Type) where
  matcher : Matcher α
  words : List Char → Prop
  begins : Char → Bool

/-- The alternative takes the longest of its words, and these begin as told. -/
structure Branch.TakesLongest (k : Branch α) : Prop where
  longest : k.matcher.Longest k.words
  begins : ∀ cs, k.words cs → ∃ c rest, cs = c :: rest ∧ k.begins c = true

/-- Of alternatives whose words begin with different characters none takes the words of another. -/
theorem Longest.firstOf_apart {ks : List (Branch α)} (h : ∀ k ∈ ks, k.TakesLongest)
    (hapart : ks.Pairwise fun k l => Apart k.begins l.begins) :
    (Matcher.firstOf (ks.map (·.matcher))).Longest fun cs => ∃ k ∈ ks, k.words cs := by
  induction ks with
  | nil => exact longest_firstOf_nil.congr (by simp)
  | cons k ks ih =>
    obtain ⟨hk, hks⟩ := List.forall_mem_cons.mp h
    obtain ⟨hfirst, hrest⟩ := List.pairwise_cons.mp hapart
    refine (hk.longest.firstOf_cons (ih hks hrest) ?_).congr (by simp)
    rintro xs ys hxs ⟨l, hl, hys⟩ hprefix
    obtain ⟨c, xs, rfl, hc⟩ := hk.begins xs hxs
    obtain ⟨d, ys, rfl, hd⟩ := (hks l hl).begins ys hys
    rw [← head_eq_of_prefix hprefix, hfirst l hl c hc] at hd
    cases hd

theorem Longest.map {f : α → β} (h : p.Longest L)
    (hleaves : ∀ t, Leafed.leaves (f t) = Leafed.leaves t) : (Matcher.map f p).Longest L := by
  intro src i hi
  rcases h hi with ⟨hmiss, hno⟩ | ⟨j, t, cs, hfinds, hcarries, hlongest⟩
  · exact .inl ⟨hmiss.map f, hno⟩
  · exact .inr ⟨j, f t, cs, hfinds.map (hleaves t), hcarries, hlongest⟩

theorem Longest.perhaps [Solid α] (h : p.Longest L) :
    (Matcher.perhaps p).Longest fun cs => cs = [] ∨ L cs := by
  intro src i hi
  rcases h hi with ⟨hmiss, hno⟩ | ⟨j, t, cs, hfinds, hcarries, hlongest⟩
  · refine .inr ⟨i, _, [], hmiss.perhaps hi, ⟨Nat.le_refl i, hi, src.between_self i⟩, .inl rfl,
      List.nil_prefix, ?_⟩
    rintro ds (rfl | hds) hprefix
    · exact Nat.le_refl _
    · exact absurd hprefix (hno ds hds)
  · refine .inr ⟨j, _, cs, hfinds.perhaps, hcarries, .inr hlongest.word, hlongest.stands, ?_⟩
    rintro ds (rfl | hds) hprefix
    · exact Nat.zero_le _
    · exact hlongest.longest ds hds hprefix

theorem Longest.seq2 {f : α → β → γ} (hp : p.Longest L) (hq : q.Longest M)
    (hleaves : ∀ a b, Leafed.leaves (f a b) = Leafed.leaves a ++ Leafed.leaves b)
    (hLM : StopsBefore L M) : (Matcher.seq2 f p q).Longest (Joined L M) := by
  intro src i hi
  rcases hp hi with ⟨hmiss, hno⟩ | ⟨m, a, xs, ha, hxs, hx⟩
  · refine .inl ⟨hmiss.seq2, ?_⟩
    rintro cs ⟨hcs, -⟩ hprefix
    exact hno _ hcs ((List.prefix_append _ _).trans hprefix)
  rw [hxs.rest_eq] at hx ⊢
  rcases hq hxs.le_length with ⟨hmiss, hno⟩ | ⟨j, b, ys, hb, hys, hy⟩
  · exact .inl ⟨ha.misses_seq2 hmiss, hx.not_joined hno hLM⟩
  · exact .inr ⟨j, f a b, xs ++ ys, ha.seq2 hb (hleaves a b), hxs.append hys, hx.append hy hLM⟩

theorem Longest.seq3 {f : α → β → γ → δ} (hp : p.Longest L) (hq : q.Longest M)
    (hr : r.Longest N)
    (hleaves : ∀ a b c, Leafed.leaves (f a b c) =
      Leafed.leaves a ++ Leafed.leaves b ++ Leafed.leaves c)
    (hLM : StopsBefore L M) (hLN : StopsBefore L N) (hMN : StopsBefore M N) :
    (Matcher.seq3 f p q r).Longest (Joined L (Joined M N)) := by
  have hLMN := hLM.joined hLN
  intro src i hi
  rcases hp hi with ⟨hmiss, hno⟩ | ⟨m, a, xs, ha, hxs, hx⟩
  · refine .inl ⟨hmiss.seq3, ?_⟩
    rintro cs ⟨hcs, -⟩ hprefix
    exact hno _ hcs ((List.prefix_append _ _).trans hprefix)
  rw [hxs.rest_eq] at hx ⊢
  rcases hq hxs.le_length with ⟨hmiss, hno⟩ | ⟨n, b, ys, hb, hys, hy⟩
  · refine .inl ⟨ha.misses_seq3 hmiss, hx.not_joined ?_ hLMN⟩
    rintro cs ⟨hcs, -⟩ hprefix
    exact hno _ hcs ((List.prefix_append _ _).trans hprefix)
  rw [hys.rest_eq] at hy hx ⊢
  rcases hr hys.le_length with ⟨hmiss, hno⟩ | ⟨j, c, zs, hc, hzs, hz⟩
  · exact .inl ⟨ha.misses_seq3_of_finds hb hmiss, hx.not_joined (hy.not_joined hno hMN) hLMN⟩
  · exact .inr ⟨j, f a b c, xs ++ (ys ++ zs), ha.seq3 hb hc (hleaves a b c),
      hxs.append (hys.append hzs), hx.append (hy.append hz hMN) hLMN⟩

/-- Started over and over again the matcher finds the words of the longest chain. The induction is on
the number of characters that are left. -/
theorem Longest.exists_repeats [Solid α] (hp : p.Longest L) (hLL : StopsBefore L L) {src : Source}
    {i : Nat} (hi : i ≤ src.length) :
    ∃ j ts cs, p.Repeats src i j ts ∧ src.Carries i j cs ∧
      LongestOf (Chained L) (src.rest i) cs := by
  induction hn : src.length - i using Nat.strongRecOn generalizing i with
  | ind n ih =>
    rcases hp hi with ⟨hmiss, hno⟩ | ⟨m, t, xs, ht, hxs, hx⟩
    · refine ⟨i, [], [], .nil hi hmiss, ⟨Nat.le_refl i, hi, src.between_self i⟩, .nil,
        List.nil_prefix, ?_⟩
      rintro ds hds hprefix
      cases hds with
      | nil => exact Nat.le_refl _
      | cons hds _ => exact absurd ((List.prefix_append _ _).trans hprefix) (hno _ hds)
    · have hlt := ht.lt
      have hle := hxs.le_length
      obtain ⟨j, ts, ys, hts, hys, hy⟩ := ih (src.length - m) (by omega) hle rfl
      refine ⟨j, t :: ts, xs ++ ys, .cons ht hts, hxs.append hys, ?_⟩
      rw [hxs.rest_eq] at hx ⊢
      exact (hx.append hy hLL.chained).chained

/-- A repetition takes the longest chain of one or more words. -/
theorem Longest.many [Solid α] {f : α → List α → β} (hp : p.Longest L) (hLL : StopsBefore L L)
    (hleaves : ∀ t ts, Leafed.leaves (f t ts) = (t :: ts).flatMap Leafed.leaves) :
    (Matcher.many f p).Longest (Joined L (Chained L)) := by
  intro src i hi
  rcases hp hi with ⟨hmiss, hno⟩ | ⟨m, t, xs, ht, hxs, hx⟩
  · refine .inl ⟨hmiss.many, ?_⟩
    rintro cs ⟨hcs, -⟩ hprefix
    exact hno _ hcs ((List.prefix_append _ _).trans hprefix)
  · obtain ⟨j, ts, ys, hts, hys, hy⟩ := hp.exists_repeats hLL hxs.le_length
    rw [hxs.rest_eq] at hx ⊢
    exact .inr ⟨j, f t ts, xs ++ ys, (Repeats.cons ht hts).finds_many (hleaves t ts),
      hxs.append hys, hx.append hy hLL.chained⟩

/-- From a position of the text nothing is found if and only if no word stands there, and what is
found takes up the longest one. -/
theorem Longest.takesUp [Solid α] (hp : p.Longest L) {src : Source} {i : Nat} {here : Position}
    (h : src.positionOf i = .ok here) :
    (p src here = .absent ↔ ¬∃ cs, L cs ∧ cs <+: src.rest i) ∧
      (p src here ≠ .absent → ∃ t cs, p src here = .found t ∧ LongestOf L (src.rest i) cs ∧
        TakesUp src i cs t) := by
  obtain ⟨hi, rfl⟩ := Source.eq_place_of_positionOf h
  rcases hp hi with ⟨hmiss, hno⟩ | ⟨j, t, cs, hfinds, hcarries, hlongest⟩
  · refine ⟨⟨fun _ => ?_, fun _ => hmiss⟩, fun hfound => absurd hmiss hfound⟩
    rintro ⟨cs, hcs, hprefix⟩
    exact hno cs hcs hprefix
  · have hword : ∃ cs, L cs ∧ cs <+: src.rest i := ⟨cs, hlongest.word, hlongest.stands⟩
    refine ⟨iff_of_false hfinds.not_misses (not_not_intro hword), fun _ => ?_⟩
    exact ⟨t, cs, hfinds.found, hlongest, hfinds.takesUp hcarries⟩

end Matcher

end Reckon
