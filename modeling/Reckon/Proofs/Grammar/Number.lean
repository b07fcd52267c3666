import Reckon.Proofs.Grammar.Faithful
import Reckon.Proofs.Text.Classes

/-! The words of the grammars. A word that is followed by a character that ends words, or by the end
of the text, is found as a whole: no part of it is dropped and nothing behind it is taken. A number
is not found where no word of a number begins. -/

namespace Reckon

/-- The text ends at offset `j`, or goes on with a character that ends words. -/
def Source.EndsWordAt (src : Source) (j : Nat) : Prop := ∀ c ∈ src.charAt j, endsWord c = true

/-- One or more characters that pass a test. -/
structure IsRun (test : Char → Bool) (cs : List Char) : Prop where
  ne_nil : cs ≠ []
  all : ∀ c ∈ cs, test c = true

/-- A point and digits, or nothing. -/
inductive FractionWord : List Char → Prop
  | absent : FractionWord []
  | digits {ds : List Char} : IsRun isDecimalDigit ds → FractionWord ('.' :: ds)

/-- A scale marker, an optional sign and digits, or nothing. -/
inductive ScaleWord : List Char → Prop
  | absent : ScaleWord []
  | unsigned {marker : Char} {ds : List Char} : marker = 'e' ∨ marker = 'E' →
    IsRun isDecimalDigit ds → ScaleWord (marker :: ds)
  | signed {marker sign : Char} {ds : List Char} : marker = 'e' ∨ marker = 'E' →
    sign = '+' ∨ sign = '-' → IsRun isDecimalDigit ds → ScaleWord (marker :: sign :: ds)

/-- The words of numbers without a sign. -/
inductive UnsignedWord : List Char → Prop
  | decimal {ds fraction scale : List Char} : IsRun isDecimalDigit ds → FractionWord fraction →
    ScaleWord scale → UnsignedWord (ds ++ (fraction ++ scale))
  | binary {ds : List Char} : IsRun isBinaryDigit ds → UnsignedWord ('%' :: ds)
  | octal {ds : List Char} : IsRun isOctalDigit ds → UnsignedWord ('&' :: ds)
  | hexadecimal {ds : List Char} : IsRun isHexDigit ds → UnsignedWord ('$' :: ds)

/-- Characters that unsigned numbers begin with. -/
def startsNumber (c : Char) : Bool := isDecimalDigit c || ['%', '&', '$'].contains c

theorem isWhiteSpace_of_startsNumber {c : Char} (h : startsNumber c = true) :
    isWhiteSpace c = false := by
  rw [startsNumber, Bool.or_eq_true, List.contains_iff_mem] at h
  rcases h with h | h
  · exact isWhiteSpace_of_isHexDigit (isHexDigit_of_isDecimalDigit h)
  · simp only [List.mem_cons, List.not_mem_nil, or_false] at h
    rcases h with rfl | rfl | rfl <;> decide

/-- No name begins like a number. -/
theorem isNameStart_of_startsNumber {c : Char} (h : startsNumber c = true) :
    isNameStart c = false := by
  rw [startsNumber, Bool.or_eq_true, List.contains_iff_mem] at h
  rcases h with h | h
  · have hunder : c ≠ '_' := by
      rintro rfl
      exact absurd h (by decide)
    simp [isNameStart, isAlphabetic_of_isDecimalDigit h, hunder]
  · simp only [List.mem_cons, List.not_mem_nil, or_false] at h
    rcases h with rfl | rfl | rfl <;> decide

theorem UnsignedWord.exists_cons {cs : List Char} (h : UnsignedWord cs) :
    ∃ c rest, cs = c :: rest ∧ startsNumber c = true := by
  cases h with
  | @decimal ds fraction scale hds _ _ =>
    obtain ⟨c, rest, rfl⟩ := List.exists_cons_of_ne_nil hds.ne_nil
    exact ⟨c, _, rfl, by rw [startsNumber, hds.all c List.mem_cons_self, Bool.true_or]⟩
  | binary _ => exact ⟨_, _, rfl, rfl⟩
  | octal _ => exact ⟨_, _, rfl, rfl⟩
  | hexadecimal _ => exact ⟨_, _, rfl, rfl⟩

namespace Grammar

open Matcher

variable {src : Source} {i j : Nat} {cs : List Char}

theorem finds_run_of_isRun {test : Char → Bool} (kind : LeafKind) (h : src.Carries i j cs)
    (hcs : IsRun test cs) (hstop : ∀ c ∈ src.charAt j, test c = false) :
    (run kind test).Finds src i j (src.leaf kind i j) :=
  finds_run kind h hcs.ne_nil hcs.all hstop

/-- Where a word ends, the digits of every base end. -/
theorem digit_of_endsWordAt {digit : Char → Bool} (hend : src.EndsWordAt j)
    (hhex : ∀ c, digit c = true → isHexDigit c = true) : ∀ c ∈ src.charAt j, digit c = false := by
  intro c hc
  rw [← Bool.not_eq_true]
  intro hd
  have hfalse := isHexDigit_of_endsWord (hend c hc)
  rw [hhex c hd] at hfalse
  cases hfalse

theorem isDecimalDigit_of_endsWordAt (hend : src.EndsWordAt j) :
    ∀ c ∈ src.charAt j, isDecimalDigit c = false :=
  digit_of_endsWordAt hend fun _ => isHexDigit_of_isDecimalDigit

theorem finds_sign {c : Char} (hc : c = '+' ∨ c = '-') (h : src.Carries i j [c]) :
    sign.Finds src i j (src.leaf .sign i j) := by
  rcases hc with rfl | rfl
  · exact (finds_char _ h).firstOf_head
  · refine Finds.firstOf_tail ?_ (finds_char _ h).firstOf_head
    exact misses_char _ h.start_le (h.forall_charAt (by decide))

theorem misses_sign (hi : i ≤ src.length) (h : ∀ c ∈ src.charAt i, c ≠ '+' ∧ c ≠ '-') :
    sign.Misses src i := by
  apply misses_firstOf
  intro p hp
  simp only [List.mem_cons, List.not_mem_nil, or_false] at hp
  rcases hp with rfl | rfl
  · exact misses_char _ hi fun c hc => (h c hc).1
  · exact misses_char _ hi fun c hc => (h c hc).2

/-- Before a scale no digits and no point go on. -/
theorem head_scaleWord {m : Nat} (hs : ScaleWord cs) (h : src.Carries m j cs)
    (hend : src.EndsWordAt j) : ∀ c ∈ src.charAt m, isDecimalDigit c = false ∧ c ≠ '.' := by
  cases hs with
  | absent =>
    obtain rfl : m = j := h.length_eq
    intro c hc
    refine ⟨isDecimalDigit_of_endsWordAt hend c hc, ?_⟩
    rintro rfl
    have hdot := hend '.' hc
    revert hdot
    decide
  | unsigned hm _ => rcases hm with rfl | rfl <;> exact h.forall_charAt (by decide)
  | signed hm _ _ => rcases hm with rfl | rfl <;> exact h.forall_charAt (by decide)

/-- Before a fraction no digits go on. -/
theorem head_fractionWord {m : Nat} (hf : FractionWord cs) (h : src.Carries i m cs)
    (hnext : ∀ c ∈ src.charAt m, isDecimalDigit c = false ∧ c ≠ '.') :
    ∀ c ∈ src.charAt i, isDecimalDigit c = false := by
  cases hf with
  | absent =>
    obtain rfl : i = m := h.length_eq
    exact fun c hc => (hnext c hc).1
  | digits _ => exact h.forall_charAt (by decide)

theorem finds_fraction {m : Nat} (hf : FractionWord cs) (h : src.Carries i m cs)
    (hnext : ∀ c ∈ src.charAt m, isDecimalDigit c = false ∧ c ≠ '.') :
    ∃ f, (perhaps fraction).Finds src i m f := by
  cases hf with
  | absent =>
    obtain rfl : i = m := h.length_eq
    have hdot : (char .dot '.').Misses src i :=
      misses_char _ h.le_length fun c hc => (hnext c hc).2
    have hmiss : fraction.Misses src i := hdot.seq2
    exact ⟨_, hmiss.perhaps h.le_length⟩
  | @digits ds hds =>
    obtain ⟨hdot, hdigits⟩ := h.uncons
    have hfound := finds_run_of_isRun .decimalDigits hdigits hds fun c hc => (hnext c hc).1
    exact ⟨_, ((finds_char _ hdot).seq2 hfound rfl).perhaps⟩

theorem finds_marker {marker : Char} (hm : marker = 'e' ∨ marker = 'E')
    (h : src.Carries i j [marker]) :
    (firstOf [char .scaleMarker 'e', char .scaleMarker 'E']).Finds src i j
      (src.leaf .scaleMarker i j) := by
  rcases hm with rfl | rfl
  · exact (finds_char _ h).firstOf_head
  · refine Finds.firstOf_tail ?_ (finds_char _ h).firstOf_head
    exact misses_char _ h.start_le (h.forall_charAt (by decide))

theorem finds_scale (hs : ScaleWord cs) (h : src.Carries i j cs) (hend : src.EndsWordAt j) :
    ∃ s, (perhaps scale).Finds src i j s := by
  have hstop := isDecimalDigit_of_endsWordAt hend
  cases hs with
  | absent =>
    obtain rfl : i = j := h.length_eq
    have hmarker : (firstOf [char .scaleMarker 'e', char .scaleMarker 'E']).Misses src i := by
      apply misses_firstOf
      intro p hp
      have hhex : ∀ c ∈ src.charAt i, isHexDigit c = false := fun c hc =>
        isHexDigit_of_endsWord (hend c hc)
      simp only [List.mem_cons, List.not_mem_nil, or_false] at hp
      rcases hp with rfl | rfl
      · apply misses_char _ h.le_length
        rintro c hc rfl
        exact absurd (hhex _ hc) (by decide)
      · apply misses_char _ h.le_length
        rintro c hc rfl
        exact absurd (hhex _ hc) (by decide)
    have hmiss : scale.Misses src i := hmarker.seq3
    exact ⟨_, hmiss.perhaps h.le_length⟩
  | @unsigned marker ds hm hds =>
    obtain ⟨hmark, hdigits⟩ := h.uncons
    have hk : i + 1 ≤ src.length := hdigits.start_le
    have hsign : sign.Misses src (i + 1) := by
      obtain ⟨d, ds, rfl⟩ := List.exists_cons_of_ne_nil hds.ne_nil
      have hd := hds.all d List.mem_cons_self
      refine misses_sign hk (hdigits.forall_charAt ⟨?_, ?_⟩)
      · rintro rfl
        exact absurd hd (by decide)
      · rintro rfl
        exact absurd hd (by decide)
    have hfound := finds_run_of_isRun .decimalDigits hdigits hds hstop
    exact ⟨_, ((finds_marker hm hmark).seq3 (hsign.perhaps hk) hfound rfl).perhaps⟩
  | @signed marker sign ds hm hsg hds =>
    obtain ⟨hmark, hrest⟩ := h.uncons
    obtain ⟨hsign, hdigits⟩ := hrest.uncons
    have hfound := finds_run_of_isRun .decimalDigits hdigits hds hstop
    exact ⟨_, ((finds_marker hm hmark).seq3 (finds_sign hsg hsign).perhaps hfound rfl).perhaps⟩

theorem finds_unsignedReal {ds fs ss : List Char} (hds : IsRun isDecimalDigit ds)
    (hfs : FractionWord fs) (hss : ScaleWord ss) (h : src.Carries i j (ds ++ (fs ++ ss)))
    (hend : src.EndsWordAt j) : ∃ m, unsignedReal.Finds src i j m := by
  obtain ⟨k, hwhole, hrest⟩ := h.split
  obtain ⟨l, hfraction, hscale⟩ := hrest.split
  have hnext := head_scaleWord hss hscale hend
  have hdigits := finds_run_of_isRun .decimalDigits hwhole hds
    (head_fractionWord hfs hfraction hnext)
  obtain ⟨f, hf⟩ := finds_fraction hfs hfraction hnext
  obtain ⟨s, hs⟩ := finds_scale hss hscale hend
  exact ⟨_, hdigits.seq3 hf hs (leaves_realOrWhole _ _ _)⟩

/-- Marked digits, which are told again by the base and the digits of what is found. -/
theorem finds_markedWhole {marker : Char} {digit : Char → Bool} (radix : Radix) (kind : LeafKind)
    (hds : IsRun digit cs) (h : src.Carries i j (marker :: cs))
    (hstop : ∀ c ∈ src.charAt j, digit c = false) :
    ∃ n, (markedWhole radix kind marker digit).Finds src i j n ∧ n.radix = radix ∧
      n.digits.text = String.ofList cs := by
  obtain ⟨hmark, hdigits⟩ := h.uncons
  exact ⟨_, (finds_char kind hmark).seq2 (finds_run_of_isRun _ hdigits hds hstop) rfl, rfl,
    congrArg String.ofList hdigits.between_eq⟩

theorem misses_markedWhole {marker : Char} {digit : Char → Bool} (radix : Radix) (kind : LeafKind)
    (hi : i ≤ src.length) (h : ∀ c ∈ src.charAt i, c ≠ marker) :
    (markedWhole radix kind marker digit).Misses src i :=
  (misses_char kind hi h).seq2

/-! Whole numbers in each of the bases. No marker is a digit, so what comes before fails. -/

theorem finds_binary (hds : IsRun isBinaryDigit cs) (h : src.Carries i j ('%' :: cs))
    (hstop : ∀ c ∈ src.charAt j, isBinaryDigit c = false) :
    ∃ n, unsignedWhole.Finds src i j n ∧ n.radix = .binary ∧ n.digits.text = String.ofList cs := by
  obtain ⟨n, hn, hparts⟩ := finds_markedWhole .binary .percent hds h hstop
  exact ⟨n, hn.firstOf_head, hparts⟩

theorem finds_octal (hds : IsRun isOctalDigit cs) (h : src.Carries i j ('&' :: cs))
    (hstop : ∀ c ∈ src.charAt j, isOctalDigit c = false) :
    ∃ n, unsignedWhole.Finds src i j n ∧ n.radix = .octal ∧ n.digits.text = String.ofList cs := by
  have hbinary : (markedWhole .binary .percent '%' isBinaryDigit).Misses src i :=
    misses_markedWhole _ _ h.start_le (h.forall_charAt (by decide))
  obtain ⟨n, hn, hparts⟩ := finds_markedWhole .octal .ampersand hds h hstop
  exact ⟨n, .firstOf_tail hbinary hn.firstOf_head, hparts⟩

theorem finds_decimal (hds : IsRun isDecimalDigit cs) (h : src.Carries i j cs)
    (hstop : ∀ c ∈ src.charAt j, isDecimalDigit c = false) :
    ∃ n, unsignedWhole.Finds src i j n ∧ n.radix = .decimal ∧ n.digits.text = String.ofList cs := by
  have hfirst : ∀ c ∈ src.charAt i, isDecimalDigit c = true := by
    obtain ⟨d, ds, rfl⟩ := List.exists_cons_of_ne_nil hds.ne_nil
    exact h.forall_charAt (hds.all d List.mem_cons_self)
  have hno : ∀ d, isDecimalDigit d = false → ∀ c ∈ src.charAt i, c ≠ d := by
    rintro d hd c hc rfl
    rw [hfirst c hc] at hd
    cases hd
  have hbinary : (markedWhole .binary .percent '%' isBinaryDigit).Misses src i :=
    misses_markedWhole _ _ h.start_le (hno '%' rfl)
  have hoctal : (markedWhole .octal .ampersand '&' isOctalDigit).Misses src i :=
    misses_markedWhole _ _ h.start_le (hno '&' rfl)
  have hdigits := finds_run_of_isRun .decimalDigits h hds hstop
  have hfound := Finds.map hdigits (f := WholeNumber.decimal) rfl
  exact ⟨_, .firstOf_tail hbinary (.firstOf_tail hoctal (Finds.firstOf_head hfound)), rfl,
    congrArg String.ofList h.between_eq⟩

theorem finds_hexadecimal (hds : IsRun isHexDigit cs) (h : src.Carries i j ('$' :: cs))
    (hstop : ∀ c ∈ src.charAt j, isHexDigit c = false) :
    ∃ n, unsignedWhole.Finds src i j n ∧ n.radix = .hexadecimal ∧
      n.digits.text = String.ofList cs := by
  have hi := h.start_le
  have hbinary : (markedWhole .binary .percent '%' isBinaryDigit).Misses src i :=
    misses_markedWhole _ _ hi (h.forall_charAt (by decide))
  have hoctal : (markedWhole .octal .ampersand '&' isOctalDigit).Misses src i :=
    misses_markedWhole _ _ hi (h.forall_charAt (by decide))
  have hdecimal : (map WholeNumber.decimal decimalDigits).Misses src i :=
    Misses.map (misses_run .decimalDigits hi (h.forall_charAt (by decide))) _
  obtain ⟨n, hn, hparts⟩ := finds_markedWhole .hexadecimal .dollar hds h hstop
  exact ⟨n, .firstOf_tail hbinary (.firstOf_tail hoctal (.firstOf_tail hdecimal hn.firstOf_head)),
    hparts⟩

/-- A number without its sign. -/
def magnitude : Matcher Magnitude := firstOf [unsignedReal, map Magnitude.whole unsignedWhole]

theorem misses_unsignedReal (hi : i ≤ src.length)
    (h : ∀ c ∈ src.charAt i, isDecimalDigit c = false) : unsignedReal.Misses src i :=
  (misses_run .decimalDigits hi h).seq3

theorem finds_magnitude_of_whole {n : WholeNumber} (hreal : unsignedReal.Misses src i)
    (h : unsignedWhole.Finds src i j n) : ∃ m, magnitude.Finds src i j m :=
  ⟨_, .firstOf_tail hreal (Finds.firstOf_head (h.map rfl))⟩

theorem finds_magnitude (hw : UnsignedWord cs) (h : src.Carries i j cs)
    (hend : src.EndsWordAt j) : ∃ m, magnitude.Finds src i j m := by
  have hi : i ≤ src.length := h.start_le
  cases hw with
  | decimal hds hfs hss =>
    obtain ⟨m, hm⟩ := finds_unsignedReal hds hfs hss h hend
    exact ⟨m, hm.firstOf_head⟩
  | binary hds =>
    have hreal := misses_unsignedReal hi (h.forall_charAt (by decide))
    have hstop := digit_of_endsWordAt hend fun _ hd =>
      isHexDigit_of_isDecimalDigit (isDecimalDigit_of_isBinaryDigit hd)
    obtain ⟨n, hn, -⟩ := finds_binary hds h hstop
    exact finds_magnitude_of_whole hreal hn
  | octal hds =>
    have hreal := misses_unsignedReal hi (h.forall_charAt (by decide))
    have hstop := digit_of_endsWordAt hend fun _ hd =>
      isHexDigit_of_isDecimalDigit (isDecimalDigit_of_isOctalDigit hd)
    obtain ⟨n, hn, -⟩ := finds_octal hds h hstop
    exact finds_magnitude_of_whole hreal hn
  | hexadecimal hds =>
    have hreal := misses_unsignedReal hi (h.forall_charAt (by decide))
    have hstop := digit_of_endsWordAt hend fun _ hd => hd
    obtain ⟨n, hn, -⟩ := finds_hexadecimal hds h hstop
    exact finds_magnitude_of_whole hreal hn

/-- Where no number begins there is none, whatever its sign. -/
theorem misses_magnitude (hi : i ≤ src.length)
    (h : ∀ c ∈ src.charAt i, startsNumber c = false) : magnitude.Misses src i := by
  have hdigit : ∀ c ∈ src.charAt i, isDecimalDigit c = false := by
    intro c hc
    have hno := h c hc
    rw [startsNumber, Bool.or_eq_false_iff] at hno
    exact hno.1
  have hmarker : ∀ d ∈ ['%', '&', '$'], ∀ c ∈ src.charAt i, c ≠ d := by
    rintro d hd c hc rfl
    have hno := h c hc
    rw [startsNumber, List.contains_iff_mem.mpr hd, Bool.or_true] at hno
    cases hno
  apply misses_firstOf
  intro p hp
  simp only [List.mem_cons, List.not_mem_nil, or_false] at hp
  rcases hp with rfl | rfl
  · exact misses_unsignedReal hi hdigit
  apply Misses.map
  apply misses_firstOf
  intro p hp
  simp only [List.mem_cons, List.not_mem_nil, or_false] at hp
  rcases hp with rfl | rfl | rfl | rfl
  · exact misses_markedWhole _ _ hi (hmarker '%' (by decide))
  · exact misses_markedWhole _ _ hi (hmarker '&' (by decide))
  · exact Misses.map (misses_run _ hi hdigit) _
  · exact misses_markedWhole _ _ hi (hmarker '$' (by decide))

/-- A word of a number that no sign stands before. -/
theorem finds_number (hw : UnsignedWord cs) (h : src.Carries i j cs) (hend : src.EndsWordAt j) :
    ∃ m, number.Finds src i j ⟨none, m⟩ ∧ Tiles src (Leaf.IsCopy src) i j (Leafed.leaves m) := by
  have hi : i ≤ src.length := h.start_le
  obtain ⟨m, hm⟩ := finds_magnitude hw h hend
  obtain ⟨c, rest, rfl, hc⟩ := hw.exists_cons
  have hsign : sign.Misses src i := by
    refine misses_sign hi (h.forall_charAt ⟨?_, ?_⟩)
    · rintro rfl
      exact absurd hc (by decide)
    · rintro rfl
      exact absurd hc (by decide)
  exact ⟨m, Finds.seq2 (hsign.perhaps hi) hm rfl, hm.tiles⟩

/-- A sign and the word of a number right behind it. -/
theorem finds_signedNumber {c : Char} {k : Nat} (hc : c = '+' ∨ c = '-') (hw : UnsignedWord cs)
    (hsign : src.Carries i k [c]) (h : src.Carries k j cs) (hend : src.EndsWordAt j) :
    ∃ m, number.Finds src i j ⟨some (src.leaf .sign i k), m⟩ ∧
      Tiles src (Leaf.IsCopy src) k j (Leafed.leaves m) := by
  obtain ⟨m, hm⟩ := finds_magnitude hw h hend
  exact ⟨m, Finds.seq2 (finds_sign hc hsign).perhaps hm rfl, hm.tiles⟩

theorem misses_number (hi : i ≤ src.length)
    (h : ∀ c ∈ src.charAt i, startsNumber c = false ∧ c ≠ '+' ∧ c ≠ '-') :
    number.Misses src i := by
  have hsign : sign.Misses src i := misses_sign hi fun c hc => (h c hc).2
  have hmagnitude : magnitude.Misses src i := misses_magnitude hi fun c hc => (h c hc).1
  exact (hsign.perhaps hi).misses_seq2 hmagnitude

/-- A sign that no number follows is none of a number. -/
theorem misses_number_of_sign {c : Char} (hc : c = '+' ∨ c = '-') (h : src.Carries i j [c])
    (hnext : ∀ d ∈ src.charAt j, startsNumber d = false) : number.Misses src i := by
  have hmagnitude : magnitude.Misses src j := misses_magnitude h.le_length hnext
  exact (finds_sign hc h).perhaps.misses_seq2 hmagnitude

end Grammar

end Reckon
