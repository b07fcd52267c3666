import Reckon.Proofs.Grammar.Spelled
import Reckon.Proofs.Matcher.Longest

/-! The longest number. A number is taken digit by digit and part by part, and a part that fails is
given up, but no part ever takes what a longer number would need: digits are not followed by the
point or the scale marker that they might have swallowed, and neither is a fraction by a scale. So
what is found is the longest of the words of numbers that stand there, and its parts spell it. -/

namespace Reckon

/-- A sign or nothing. -/
inductive SignWord : List Char → Prop
  | absent : SignWord []
  | present {c : Char} : c = '+' ∨ c = '-' → SignWord [c]

/-- The words of numbers: an optional sign and the word of an unsigned number. -/
def NumberWord : List Char → Prop := Joined SignWord UnsignedWord

/-- The words of decimal numbers with a fraction, a scale or both. -/
inductive RealWord : List Char → Prop
  | mk {sign ds fs ss : List Char} : SignWord sign → IsRun isDecimalDigit ds → FractionWord fs →
    ScaleWord ss → fs ++ ss ≠ [] → RealWord (sign ++ (ds ++ (fs ++ ss)))

/-! Which characters the parts begin with and go on with. -/

theorem SignWord.head {c : Char} {cs : List Char} (h : SignWord (c :: cs)) : c = '+' ∨ c = '-' := by
  cases h with
  | present hc => exact hc

theorem FractionWord.head {c : Char} {cs : List Char} (h : FractionWord (c :: cs)) : c = '.' := by
  cases h with
  | digits _ => rfl

theorem ScaleWord.head {c : Char} {cs : List Char} (h : ScaleWord (c :: cs)) :
    c = 'e' ∨ c = 'E' := by
  cases h with
  | unsigned hc _ => exact hc
  | signed hc _ _ => exact hc

theorem UnsignedWord.head {c : Char} {cs : List Char} (h : UnsignedWord (c :: cs)) :
    startsNumber c = true := by
  obtain ⟨d, rest, heq, hd⟩ := h.exists_cons
  obtain ⟨rfl, -⟩ := List.cons.inj heq
  exact hd

theorem not_sign_of_startsNumber {c : Char} (h : startsNumber c = true) : ¬(c = '+' ∨ c = '-') := by
  rintro (rfl | rfl) <;> exact absurd h (by decide)

/-- A run goes on with characters of its class only. -/
theorem stopsBefore_isRun {test : Char → Bool} {M : List Char → Prop}
    (h : ∀ c cs, M (c :: cs) → test c = false) : StopsBefore (IsRun test) M := by
  intro xs c xs' ys _ hlong hM
  have hc := hlong.all c (List.mem_append_right _ List.mem_cons_self)
  rw [h c ys hM] at hc
  cases hc

/-- Behind no sign a sign may go on, and behind a sign nothing. -/
theorem stopsBefore_signWord {M : List Char → Prop}
    (h : ∀ c cs, M (c :: cs) → ¬(c = '+' ∨ c = '-')) : StopsBefore SignWord M := by
  intro xs c xs' ys hxs hlong hM
  cases hxs with
  | absent => exact h c ys hM hlong.head
  | present _ => cases hlong

theorem stopsBefore_fractionWord : StopsBefore FractionWord ScaleWord := by
  intro xs c xs' ys hxs hlong hscale
  have hmarker := hscale.head
  cases hxs with
  | absent =>
    obtain rfl := FractionWord.head hlong
    exact absurd hmarker (by decide)
  | digits _ =>
    cases hlong with
    | digits hrun =>
      have hc := hrun.all c (List.mem_append_right _ List.mem_cons_self)
      rcases hmarker with rfl | rfl <;> exact absurd hc (by decide)

theorem isDecimalDigit_of_fractionWord (c : Char) (cs : List Char) (h : FractionWord (c :: cs)) :
    isDecimalDigit c = false := by
  obtain rfl := h.head
  rfl

theorem isDecimalDigit_of_scaleWord (c : Char) (cs : List Char) (h : ScaleWord (c :: cs)) :
    isDecimalDigit c = false := by
  rcases h.head with rfl | rfl <;> rfl

/-- What follows the digits of a decimal number begins with a point or a scale marker. -/
theorem head_of_fraction_scale {c : Char} {fs ss cs : List Char} (hfs : FractionWord fs)
    (hss : ScaleWord ss) (h : fs ++ ss = c :: cs) : c = '.' ∨ c = 'e' ∨ c = 'E' := by
  cases fs with
  | nil =>
    rw [List.nil_append] at h
    subst h
    exact .inr hss.head
  | cons f fs =>
    obtain ⟨rfl, -⟩ := List.cons.inj h
    exact .inl hfs.head

/-! What the parts of a number are spelled with are words. -/

theorem signWord_of_ifAny {sign : Option Leaf} {cs : List Char} (h : IfAny Leaf.IsSign sign cs) :
    SignWord cs := by
  cases sign with
  | none =>
    obtain rfl : cs = [] := h
    exact .absent
  | some l =>
    obtain ⟨hc, -⟩ := h
    exact .present hc

theorem fractionWord_of_ifAny {fraction : Option Fraction} {cs : List Char}
    (h : IfAny Fraction.IsSpelled fraction cs) : FractionWord cs := by
  cases fraction with
  | none =>
    obtain rfl : cs = [] := h
    exact .absent
  | some f =>
    obtain ⟨-, -, hds⟩ := h
    exact .digits hds

theorem scaleWord_of_ifAny {scale : Option Scale} {cs : List Char}
    (h : IfAny Scale.IsSpelled scale cs) : ScaleWord cs := by
  cases scale with
  | none =>
    obtain rfl : cs = [] := h
    exact .absent
  | some s =>
    obtain ⟨hm, -, hsign, -, hds⟩ := h
    cases signWord_of_ifAny hsign with
    | absent => exact .unsigned hm hds
    | present hc => exact .signed hm hc hds

theorem WholeNumber.IsSpelled.unsignedWord {n : WholeNumber} {cs : List Char}
    (h : n.IsSpelled cs) : UnsignedWord cs := by
  obtain ⟨radix, marker, digits⟩ := n
  obtain ⟨hmarked, -, hds⟩ := h
  cases hmarked with
  | decimal =>
    have hword := UnsignedWord.decimal hds .absent .absent
    rwa [List.append_nil, List.append_nil] at hword
  | binary _ => exact .binary hds
  | octal _ => exact .octal hds
  | hexadecimal _ => exact .hexadecimal hds

/-- Behind the same signs stand the same unsigned numbers. -/
theorem SignWord.append_inj {ss ts xs ys : List Char} (hs : SignWord ss) (ht : SignWord ts)
    (hx : UnsignedWord xs) (hy : UnsignedWord ys) (h : ss ++ xs = ts ++ ys) : xs = ys := by
  cases hs with
  | absent =>
    cases ht with
    | absent => exact h
    | present hc =>
      obtain rfl : xs = _ :: ys := h
      exact absurd hc (not_sign_of_startsNumber hx.head)
  | present hc =>
    cases ht with
    | absent =>
      obtain rfl : ys = _ :: xs := h.symm
      exact absurd hc (not_sign_of_startsNumber hy.head)
    | present _ => exact (List.cons.inj h).2

/-- No word of a whole number has a fraction or a scale. -/
theorem WholeNumber.IsSpelled.eq_nil {n : WholeNumber} {ds fs ss : List Char}
    (h : n.IsSpelled (ds ++ (fs ++ ss))) (hds : IsRun isDecimalDigit ds) (hfs : FractionWord fs)
    (hss : ScaleWord ss) : fs ++ ss = [] := by
  obtain ⟨radix, marker, digits⟩ := n
  obtain ⟨d, ds, rfl⟩ := List.exists_cons_of_ne_nil hds.ne_nil
  have hd := hds.all d List.mem_cons_self
  generalize hcs : d :: ds ++ (fs ++ ss) = cs at h
  obtain ⟨hmarked, -, hrun⟩ := h
  cases hmarked with
  | decimal =>
    rw [List.nil_append] at hcs
    subst hcs
    -- The first character behind the digits would be a digit, too.
    by_contra hne
    obtain ⟨c, rest, hparts⟩ := List.exists_cons_of_ne_nil hne
    have hc : isDecimalDigit c = true := hrun.all c <| by
      rw [hparts]
      exact List.mem_append_right _ List.mem_cons_self
    rcases head_of_fraction_scale hfs hss hparts with rfl | rfl | rfl
    all_goals exact absurd hc (by decide)
  | binary _ | octal _ | hexadecimal _ =>
    obtain rfl := (List.cons.inj hcs).1
    exact absurd hd (by decide)

theorem WholeNumber.IsSpelled.not_realWord {n : WholeNumber} {sign cs : List Char}
    (h : n.IsSpelled cs) (hsign : SignWord sign) : ¬RealWord (sign ++ cs) := by
  intro hreal
  generalize hword : sign ++ cs = word at hreal
  obtain ⟨hsign', hds, hfs, hss, hne⟩ := hreal
  obtain rfl := hsign.append_inj hsign' h.unsignedWord (.decimal hds hfs hss) hword
  exact hne (h.eq_nil hds hfs hss)

theorem RealNumber.IsSpelled.realWord {n : RealNumber} {sign cs : List Char} (h : n.IsSpelled cs)
    (hsign : SignWord sign) : RealWord (sign ++ cs) := by
  obtain ⟨-, hds, hfs, hss, hpart⟩ := h
  refine .mk hsign hds (fractionWord_of_ifAny hfs) (scaleWord_of_ifAny hss) ?_
  obtain ⟨whole, fraction, scale⟩ := n
  rcases hpart with hpart | hpart
  · obtain ⟨f, rfl⟩ := Option.isSome_iff_exists.mp hpart
    obtain ⟨-⟩ := hfs
    exact List.cons_ne_nil _ _
  · obtain ⟨s, rfl⟩ := Option.isSome_iff_exists.mp hpart
    obtain ⟨-⟩ := hss
    simp

/-- A number is a real if and only if its word has a fraction or a scale. -/
theorem Number.IsSpelled.real_iff {n : Number} {cs : List Char} (h : n.IsSpelled cs) :
    (∃ r, n.magnitude = .real r) ↔ RealWord cs := by
  obtain ⟨sign, m⟩ := n
  obtain ⟨hsign, hm⟩ := h
  constructor
  · rintro ⟨r, rfl⟩
    have hreal : r.IsSpelled _ := hm
    exact hreal.realWord (signWord_of_ifAny hsign)
  · intro hreal
    cases m with
    | real r => exact ⟨r, rfl⟩
    | whole w =>
      have hword : w.IsSpelled _ := hm
      exact absurd hreal (hword.not_realWord (signWord_of_ifAny hsign))

/-- The number covers the longest word of a number that the text has at offset `i`, and its parts
spell that word. Reading goes on right behind it. -/
structure Number.IsLongest (n : Number) (src : Source) (i : Nat) (cs : List Char) : Prop where
  longest : LongestOf NumberWord (src.rest i) cs
  first : src.positionOf i = .ok (Spanned.first n)
  text : src.textOf (Spanned.span n) = .ok (String.ofList cs)
  next : ∃ next, resume src (Spanned.first n) n = .ok next ∧
    src.positionOf (i + cs.length) = .ok next
  spelled : n.IsSpelled cs
  real_iff : (∃ r, n.magnitude = .real r) ↔ RealWord cs

namespace Grammar

open Matcher

theorem longest_either (kind : LeafKind) (c d : Char) :
    (firstOf [char kind c, char kind d]).Longest fun cs => cs = [c] ∨ cs = [d] := by
  have hsecond : (firstOf [char kind d]).Longest fun cs => cs = [d] ∨ False :=
    (longest_char _ _).firstOf_cons longest_firstOf_nil fun _ _ _ h => h.elim
  refine ((longest_char _ _).firstOf_cons hsecond ?_).congr fun cs => ?_
  · rintro xs ys rfl (rfl | hno) hprefix
    · simpa [eq_comm] using hprefix
    · exact hno.elim
  · simp only [or_false]

theorem longest_perhaps_sign : (perhaps sign).Longest SignWord := by
  refine (longest_either _ _ _).perhaps.congr fun cs => ⟨?_, ?_⟩
  · rintro (rfl | rfl | rfl)
    · exact .absent
    · exact .present (.inl rfl)
    · exact .present (.inr rfl)
  · rintro (_ | rfl | rfl)
    · exact .inl rfl
    · exact .inr (.inl rfl)
    · exact .inr (.inr rfl)

theorem longest_perhaps_fraction : (perhaps fraction).Longest FractionWord := by
  have hdot : StopsBefore (· = ['.']) (IsRun isDecimalDigit) :=
    stopsBefore_of_length (n := 1) (by rintro cs rfl; rfl) _
  have hfraction : fraction.Longest (Joined (· = ['.']) (IsRun isDecimalDigit)) :=
    (longest_char _ _).seq2 (longest_run _ _) (fun _ _ => rfl) hdot
  refine hfraction.perhaps.congr fun cs => ⟨?_, ?_⟩
  · rintro (rfl | ⟨rfl, hds⟩)
    · exact .absent
    · exact .digits hds
  · rintro (_ | hds)
    · exact .inl rfl
    · exact .inr (.cons rfl hds)

theorem longest_perhaps_scale : (perhaps scale).Longest ScaleWord := by
  have hlength : ∀ cs, cs = ['e'] ∨ cs = ['E'] → cs.length = 1 := by
    rintro cs (rfl | rfl) <;> rfl
  have hsign : StopsBefore SignWord (IsRun isDecimalDigit) := by
    refine stopsBefore_signWord fun c cs hrun => ?_
    have hc := hrun.all c List.mem_cons_self
    rintro (rfl | rfl) <;> exact absurd hc (by decide)
  have hleaves : ∀ (marker : Leaf) (sign : Perhaps Leaf) (digits : Leaf),
      Leafed.leaves (Scale.mk marker sign.toOption digits) =
        Leafed.leaves marker ++ Leafed.leaves sign ++ Leafed.leaves digits := by
    intro marker sign digits
    cases sign <;> rfl
  have hscale := (longest_either .scaleMarker 'e' 'E').seq3 longest_perhaps_sign
    (longest_run .decimalDigits _) hleaves (stopsBefore_of_length hlength _)
    (stopsBefore_of_length hlength _) hsign
  refine hscale.perhaps.congr fun cs => ⟨?_, ?_⟩
  · rintro (rfl | ⟨hm, hs, hds⟩)
    · exact .absent
    · rcases hm with rfl | rfl <;> cases hs with
      | absent => exact .unsigned (by decide) hds
      | present hc => exact .signed (by decide) hc hds
  · rintro (_ | ⟨rfl | rfl, hds⟩ | ⟨rfl | rfl, hc, hds⟩)
    · exact .inl rfl
    all_goals right
    · exact .cons (.inl rfl) (Joined.mk SignWord.absent hds)
    · exact .cons (.inr rfl) (Joined.mk SignWord.absent hds)
    · exact .cons (.inl rfl) (.cons (.present hc) hds)
    · exact .cons (.inr rfl) (.cons (.present hc) hds)

theorem longest_unsignedReal :
    unsignedReal.Longest (Joined (IsRun isDecimalDigit) (Joined FractionWord ScaleWord)) :=
  (longest_run _ _).seq3 longest_perhaps_fraction longest_perhaps_scale leaves_realOrWhole
    (stopsBefore_isRun isDecimalDigit_of_fractionWord)
    (stopsBefore_isRun isDecimalDigit_of_scaleWord) stopsBefore_fractionWord

/-- Marked digits, and the marker as the character they begin with. -/
def markedBranch (radix : Radix) (kind : LeafKind) (marker : Char) (digit : Char → Bool) :
    Branch WholeNumber :=
  ⟨markedWhole radix kind marker digit, Joined (· = [marker]) (IsRun digit), [marker].contains⟩

theorem takesLongest_markedBranch (radix : Radix) (kind : LeafKind) (marker : Char)
    (digit : Char → Bool) : (markedBranch radix kind marker digit).TakesLongest where
  longest := (longest_char _ _).seq2 (longest_run _ _) (fun _ _ => rfl)
    (stopsBefore_of_length (n := 1) (by rintro cs rfl; rfl) _)
  begins := by
    rintro cs ⟨rfl, -⟩
    exact ⟨marker, _, rfl, by simp [markedBranch]⟩

def decimalBranch : Branch WholeNumber :=
  ⟨map WholeNumber.decimal decimalDigits, IsRun isDecimalDigit, isDecimalDigit⟩

theorem takesLongest_decimalBranch : decimalBranch.TakesLongest where
  longest := (longest_run _ _).map fun _ => rfl
  begins := by
    intro cs hcs
    obtain ⟨c, rest, rfl⟩ := List.exists_cons_of_ne_nil hcs.ne_nil
    exact ⟨c, rest, rfl, hcs.all c List.mem_cons_self⟩

def wholeBranches : List (Branch WholeNumber) :=
  [markedBranch .binary .percent '%' isBinaryDigit, markedBranch .octal .ampersand '&' isOctalDigit,
   decimalBranch, markedBranch .hexadecimal .dollar '$' isHexDigit]

theorem longest_unsignedWhole :
    unsignedWhole.Longest fun cs => ∃ k ∈ wholeBranches, k.words cs := by
  have hall : ∀ k ∈ wholeBranches, k.TakesLongest := by
    simp only [wholeBranches, List.forall_mem_cons]
    exact ⟨takesLongest_markedBranch _ _ _ _, takesLongest_markedBranch _ _ _ _,
      takesLongest_decimalBranch, takesLongest_markedBranch _ _ _ _, List.forall_mem_nil _⟩
  refine Longest.firstOf_apart hall ?_
  simp only [wholeBranches, List.pairwise_cons, List.mem_cons, List.not_mem_nil, or_false,
    forall_eq_or_imp, forall_eq, false_imp_iff, implies_true, List.Pairwise.nil, and_true]
  have hdigit : ∀ marker, isDecimalDigit marker = false →
      Apart isDecimalDigit [marker].contains := by
    intro marker hmarker c hc
    rw [← Bool.not_eq_true, List.contains_iff_mem, List.mem_singleton]
    rintro rfl
    rw [hmarker] at hc
    cases hc
  exact ⟨⟨apart_of_all (by decide), (hdigit _ (by decide)).symm, apart_of_all (by decide)⟩,
    ⟨(hdigit _ (by decide)).symm, apart_of_all (by decide)⟩, hdigit _ (by decide)⟩

/-- The words of unsigned numbers are decimal ones with whatever follows the digits and marked ones.
-/
theorem unsignedWord_iff (cs : List Char) : UnsignedWord cs ↔
    Joined (IsRun isDecimalDigit) (Joined FractionWord ScaleWord) cs ∨
      ∃ k ∈ wholeBranches, k.words cs := by
  simp only [wholeBranches, List.exists_mem_cons_iff, List.not_mem_nil, false_and, exists_false,
    or_false]
  constructor
  · rintro (⟨hds, hfs, hss⟩ | hds | hds | hds)
    · exact .inl (.mk hds (.mk hfs hss))
    · exact .inr (.inl (.cons rfl hds))
    · exact .inr (.inr (.inl (.cons rfl hds)))
    · exact .inr (.inr (.inr (.inr (.cons rfl hds))))
  · rintro (⟨hds, hfs, hss⟩ | ⟨rfl, hds⟩ | ⟨rfl, hds⟩ | hds | ⟨rfl, hds⟩)
    · exact .decimal hds hfs hss
    · exact .binary hds
    · exact .octal hds
    · have hword := UnsignedWord.decimal hds .absent .absent
      rwa [List.append_nil, List.append_nil] at hword
    · exact .hexadecimal hds

theorem longest_magnitude : magnitude.Longest UnsignedWord := by
  have hmap : (map Magnitude.whole unsignedWhole).Longest
      fun cs => ∃ k ∈ wholeBranches, k.words cs :=
    longest_unsignedWhole.map fun _ => rfl
  have hwhole := hmap.firstOf_cons longest_firstOf_nil fun _ _ _ h => h.elim
  refine (longest_unsignedReal.firstOf_cons hwhole ?_).congr fun cs => ?_
  · rintro xs ys ⟨hrun, -⟩ (hys | hno) hprefix
    · -- Where digits stand, whole numbers are decimal, and these are words of the first kind.
      obtain ⟨c, rest, rfl⟩ := List.exists_cons_of_ne_nil hrun.ne_nil
      have hc := hrun.all c List.mem_cons_self
      cases (unsignedWord_iff ys).mpr (.inr hys) with
      | decimal hds hfs hss => exact .mk hds (.mk hfs hss)
      | binary _ | octal _ | hexadecimal _ =>
        obtain rfl := head_eq_of_prefix hprefix
        exact absurd hc (by decide)
    · exact hno.elim
  · rw [unsignedWord_iff, or_false]

theorem longest_number : number.Longest NumberWord := by
  refine longest_perhaps_sign.seq2 longest_magnitude ?_ ?_
  · intro sign m
    cases sign <;> rfl
  · exact stopsBefore_signWord fun c cs h => not_sign_of_startsNumber h.head

/-- A number that is found where it is the longest is spelled with its word. -/
theorem isLongest_of_finds {src : Source} {i j : Nat} {n : Number} {cs : List Char}
    (hfinds : number.Finds src i j n) (hcarries : src.Carries i j cs)
    (hlongest : LongestOf NumberWord (src.rest i) cs) : n.IsLongest src i cs := by
  have htakes := hfinds.takesUp hcarries
  have hspelled := spells_number.of_takesUp hfinds.found htakes
  exact ⟨hlongest, htakes.first, htakes.text, htakes.next, hspelled, hspelled.real_iff⟩

/-- A number is found if and only if a word of a number stands there, and it is the longest. -/
theorem number_longest (src : Source) (i : Nat) (here : Position)
    (h : src.positionOf i = .ok here) :
    (number src here = .absent ↔ ¬∃ cs, NumberWord cs ∧ cs <+: src.rest i) ∧
      (number src here ≠ .absent → ∃ n cs, number src here = .found n ∧ n.IsLongest src i cs) := by
  obtain ⟨hi, rfl⟩ := Source.eq_place_of_positionOf h
  rcases longest_number hi with ⟨hmiss, hno⟩ | ⟨j, n, cs, hfinds, hcarries, hlongest⟩
  · refine ⟨⟨fun _ => ?_, fun _ => hmiss⟩, fun hfound => absurd hmiss hfound⟩
    rintro ⟨cs, hcs, hprefix⟩
    exact hno cs hcs hprefix
  · have hword : ∃ cs, NumberWord cs ∧ cs <+: src.rest i := ⟨cs, hlongest.word, hlongest.stands⟩
    refine ⟨⟨fun habsent => absurd habsent hfinds.not_misses, fun hno => absurd hword hno⟩, ?_⟩
    exact fun _ => ⟨n, cs, hfinds.found, isLongest_of_finds hfinds hcarries hlongest⟩

/-- A scale without digits is no part of the number. -/
theorem number_longest_scale :
    ∃ n, number (Source.mk #['x', '-', '1', '.', '5', 'e', '+'] (by decide)) ⟨0, 1, 1⟩ = .found n ∧
      n.IsLongest (Source.mk #['x', '-', '1', '.', '5', 'e', '+'] (by decide)) 1
        ['-', '1', '.', '5'] := by
  obtain ⟨-, hfound⟩ :=
    number_longest (Source.mk #['x', '-', '1', '.', '5', 'e', '+'] (by decide)) 1 ⟨0, 1, 1⟩ rfl
  have hread : number (Source.mk #['x', '-', '1', '.', '5', 'e', '+'] (by decide)) ⟨0, 1, 1⟩ =
      .found ⟨some ⟨.sign, "-", ⟨0, 1, 1⟩, ⟨0, 1, 1⟩⟩,
        .real ⟨⟨.decimalDigits, "1", ⟨0, 2, 2⟩, ⟨0, 2, 2⟩⟩,
          some ⟨⟨.dot, ".", ⟨0, 3, 3⟩, ⟨0, 3, 3⟩⟩, ⟨.decimalDigits, "5", ⟨0, 4, 4⟩, ⟨0, 4, 4⟩⟩⟩,
          none⟩⟩ := rfl
  obtain ⟨n, cs, hn, hlongest⟩ := hfound (by rw [hread]; nofun)
  obtain rfl := Attempt.found.inj (hn.symm.trans hread)
  have htext : String.ofList cs = "-1.5" := (Except.ok.inj hlongest.text).symm
  obtain rfl : cs = ['-', '1', '.', '5'] := String.ofList_injective htext
  exact ⟨_, hn, hlongest⟩

end Grammar

end Reckon
