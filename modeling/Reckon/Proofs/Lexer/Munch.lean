import Reckon.Proofs.Lexer.Found
import Reckon.Proofs.Lexer.Kinds
import Reckon.Proofs.Matcher.Choice

/-! Why the step of a lexer takes the longest token. White space, numbers, identifiers, comments and
string literals begin with different characters, so at most one of them is found at a place and the
order in which they are tried does not matter. All but names share their first characters with
special symbols. A special symbol has at most two characters, though, and where it has two of them
none of the others is found but a comment, which has two characters of its own to begin with. -/

namespace Reckon

namespace Grammar

open Matcher

variable {src : Source} {i : Nat}

/-! The characters that begin tokens. -/

def beginsNumber (c : Char) : Bool := startsNumber c || ['+', '-'].contains c

def beginsComment (c : Char) : Bool := ['/', '(', '{'].contains c

def beginsString (c : Char) : Bool := ['\'', '#'].contains c

theorem beginsWith_whiteSpace : whiteSpace.BeginsWith isWhiteSpace :=
  fun _ _ hi h => misses_run .whiteSpace hi h

theorem beginsWith_number : number.BeginsWith beginsNumber := by
  intro src i hi h
  apply misses_number hi
  intro c hc
  have hno := h c hc
  rw [beginsNumber, Bool.or_eq_false_iff] at hno
  refine ⟨hno.1, ?_, ?_⟩ <;> rintro rfl <;> exact absurd hno.2 (by decide)

theorem beginsWith_identifier : identifier.BeginsWith isNameStart :=
  fun _ _ hi h => misses_identifier hi h

theorem beginsComment_of_opener (kind : CommentKind) :
    ∃ c rest, kind.opener = c :: rest ∧ beginsComment c = true := by
  cases kind <;> exact ⟨_, _, rfl, rfl⟩

theorem beginsWith_comment : BeginsWith comment beginsComment := by
  intro src i hi h
  apply misses_comment hi
  cases ho : openerAt src i with
  | none => rfl
  | some kind =>
    obtain ⟨c, rest, hopener, hc⟩ := beginsComment_of_opener kind
    have hstart := startsWithAt_of_openerAt ho
    rw [hopener, Source.startsWithAt, Bool.and_eq_true, beq_iff_eq] at hstart
    rw [h c hstart.1] at hc
    cases hc

theorem beginsWith_stringLiteral : stringLiteral.BeginsWith beginsString := by
  intro src i hi h
  apply misses_stringLiteral hi
  intro c hc
  have hno := h c hc
  refine ⟨?_, ?_⟩ <;> rintro rfl <;> exact absurd hno (by decide)

theorem apart_whiteSpace_number : Apart isWhiteSpace beginsNumber := by
  have hstarts : Apart isWhiteSpace startsNumber :=
    Apart.symm fun _ => isWhiteSpace_of_startsNumber
  exact hstarts.or (apart_of_all (by decide))

theorem apart_whiteSpace_name : Apart isWhiteSpace isNameStart := by
  intro c hc
  rw [isNameStart, isAlphabetic_of_isWhiteSpace hc, Bool.false_or, beq_eq_false_iff_ne]
  rintro rfl
  exact absurd hc (by decide)

theorem apart_number_name : Apart beginsNumber isNameStart := by
  have hstarts : Apart isNameStart startsNumber :=
    Apart.symm fun _ => isNameStart_of_startsNumber
  exact (hstarts.or (apart_of_all (by decide))).symm

/-! Special symbols. -/

/-- Everything that a special symbol may be. -/
def symbolSpellings : List (List Char) :=
  doubleSymbols.map Symbol.chars ++ singleSymbols.map fun c => [c]

theorem mem_symbolSpellings_iff {cs : List Char} :
    cs ∈ symbolSpellings ↔
      (∃ s ∈ doubleSymbols, s.chars = cs) ∨ ∃ c ∈ singleSymbols, [c] = cs := by
  rw [symbolSpellings, List.mem_append, List.mem_map, List.mem_map]

theorem length_of_mem_doubleSymbols : ∀ s ∈ doubleSymbols, s.chars.length = 2 := by
  decide

theorem length_of_mem_symbolSpellings : ∀ cs ∈ symbolSpellings, cs.length ≤ 2 := by
  decide

/-- The first of several symbols that stands there is found. -/
theorem exists_finds_symbol {ss : List Symbol} (kind : LeafKind)
    (h : ∃ s ∈ ss, src.startsWithAt i s.chars = true) :
    ∃ s ∈ ss, ∃ j, src.Carries i j s.chars ∧
      (firstOf (ss.map (symbol kind))).Finds src i j (src.leaf kind i j) := by
  induction ss with
  | nil => simp at h
  | cons s ss ih =>
    cases hs : src.startsWithAt i s.chars with
    | true =>
      obtain ⟨tail, hrest⟩ := Source.startsWithAt_iff.mp hs
      have hcarries := Source.carries_of_rest hrest.symm (List.cons_ne_nil _ _)
      exact ⟨s, List.mem_cons_self, _, hcarries, (finds_symbol kind hcarries).firstOf_head⟩
    | false =>
      obtain ⟨s', hs', hstart⟩ := h
      have hmem : s' ∈ ss := by
        refine (List.mem_cons.mp hs').resolve_left ?_
        rintro rfl
        rw [hs] at hstart
        cases hstart
      obtain ⟨t, ht, j, hcarries, hfinds⟩ := ih ⟨s', hmem, hstart⟩
      have hmiss : (symbol kind s).Misses src i := misses_symbol kind hcarries.start_le hs
      exact ⟨t, List.mem_cons_of_mem _ ht, j, hcarries, .firstOf_tail hmiss hfinds⟩

/-- The longest of the symbols that stand there is found, unless there is none. -/
theorem specialSymbol_longest (hi : i ≤ src.length) :
    (specialSymbol.Misses src i ∧ ∀ cs ∈ symbolSpellings, ¬cs <+: src.rest i) ∨
      ∃ cs ∈ symbolSpellings, ∃ j, src.Carries i j cs ∧
        (∀ ds ∈ symbolSpellings, ds <+: src.rest i → ds.length ≤ cs.length) ∧
        specialSymbol.Finds src i j (src.leaf .specialSymbol i j) := by
  by_cases hdouble : ∃ s ∈ doubleSymbols, src.startsWithAt i s.chars = true
  · obtain ⟨s, hs, j, hcarries, hfinds⟩ := exists_finds_symbol .specialSymbol hdouble
    refine .inr ⟨s.chars, mem_symbolSpellings_iff.mpr (.inl ⟨s, hs, rfl⟩), j, hcarries, ?_,
      hfinds.firstOf_append_left⟩
    intro ds hds _
    rw [length_of_mem_doubleSymbols s hs]
    exact length_of_mem_symbolSpellings ds hds
  have hno : ∀ s ∈ doubleSymbols, ¬src.startsWithAt i s.chars = true :=
    fun s hs hstart => hdouble ⟨s, hs, hstart⟩
  have hmiss : ∀ p ∈ doubleSymbols.map (symbol .specialSymbol), p.Misses src i := by
    refine List.forall_mem_map.mpr fun s hs => misses_symbol _ hi ?_
    rw [← Bool.not_eq_true]
    exact hno s hs
  by_cases hsingle : ∃ c ∈ singleSymbols, src.charAt i = some c
  · obtain ⟨c, hc, hat⟩ := hsingle
    have hcarries := Source.carries_singleton hat
    refine .inr ⟨[c], mem_symbolSpellings_iff.mpr (.inr ⟨c, hc, rfl⟩), i + 1, hcarries, ?_,
      .firstOf_append hmiss (finds_single _ hc hcarries)⟩
    intro ds hds hprefix
    rcases mem_symbolSpellings_iff.mp hds with ⟨t, ht, rfl⟩ | ⟨d, -, rfl⟩
    · exact absurd (Source.startsWithAt_iff.mpr hprefix) (hno t ht)
    · exact Nat.le_refl 1
  refine .inl ⟨misses_firstOf (List.forall_mem_append.mpr ⟨hmiss, ?_⟩), ?_⟩
  · refine List.forall_mem_map.mpr fun c hc => misses_char _ hi ?_
    rintro d hd rfl
    exact hsingle ⟨d, hc, hd⟩
  · rintro cs hcs hprefix
    rcases mem_symbolSpellings_iff.mp hcs with ⟨t, ht, rfl⟩ | ⟨d, hd, rfl⟩
    · exact hno t ht (Source.startsWithAt_iff.mpr hprefix)
    · obtain ⟨tail, hrest⟩ := hprefix
      exact hsingle ⟨d, hd, Source.charAt_of_rest hrest.symm⟩

/-- Where a symbol of two characters stands there is no white space, number, identifier or string
literal. -/
theorem misses_of_double {s : Symbol} (hs : s ∈ doubleSymbols)
    (h : src.startsWithAt i s.chars = true) :
    whiteSpace.Misses src i ∧ number.Misses src i ∧ identifier.Misses src i ∧
      stringLiteral.Misses src i := by
  obtain ⟨tail, hrest⟩ := Source.startsWithAt_iff.mp h
  have hcarries : src.Carries i _ (s.head :: s.tail) :=
    Source.carries_of_rest hrest.symm (List.cons_ne_nil _ _)
  have hi : i ≤ src.length := hcarries.start_le
  obtain ⟨hhead, htail⟩ := hcarries.uncons
  have hheads : ∀ s ∈ doubleSymbols, isWhiteSpace s.head = false ∧ isNameStart s.head = false ∧
      beginsString s.head = false ∧ startsNumber s.head = false := by decide
  have htails : ∀ s ∈ doubleSymbols, s.tail.all (!startsNumber ·) = true := by decide
  obtain ⟨hspace, hname, hstring, hdigit⟩ := hheads s hs
  have hnumber : number.Misses src i := by
    by_cases hsign : s.head = '+' ∨ s.head = '-'
    · obtain ⟨e, he⟩ := List.length_eq_one_iff.mp
        (Nat.succ.inj (length_of_mem_doubleSymbols s hs))
      have hno := htails s hs
      rw [he, List.all_cons, List.all_nil, Bool.and_true, Bool.not_eq_true'] at hno
      rw [he] at htail
      exact misses_number_of_sign hsign hhead (htail.forall_charAt hno)
    · rw [not_or] at hsign
      exact misses_number hi (hhead.forall_charAt ⟨hdigit, hsign⟩)
  exact ⟨beginsWith_whiteSpace src i hi (hhead.forall_charAt hspace), hnumber,
    beginsWith_identifier src i hi (hhead.forall_charAt hname),
    beginsWith_stringLiteral src i hi (hhead.forall_charAt hstring)⟩

/-- A comment that begins with a symbol of two characters has two characters at least. -/
theorem le_of_comment_of_double {s : Symbol} {j : Nat} {c : Comment} (hs : s ∈ doubleSymbols)
    (h : src.startsWithAt i s.chars = true) (hc : comment src (src.place i) = .found c)
    (hstands : Stands src i j c) : i + 2 ≤ j := by
  have hlt := hstands.lt
  have hle := hstands.le
  obtain ⟨kind, nested, last, ho, hbody, rfl⟩ := exists_body_of_comment (by omega) hc
  have hpos := kind.opener_length_pos
  have hbounds := hbody.bounds (by omega) (le_length_of_openerAt ho)
  obtain rfl : j = last + 1 := hstands.stop_eq ⟨by omega, hbounds.2, rfl, rfl⟩
  have hopener : kind.opener.length = 2 := by
    cases kind with
    | line => rfl
    | round => rfl
    | curly =>
      have hbrace := startsWithAt_of_openerAt ho
      rw [CommentKind.opener, Source.startsWithAt, Bool.and_eq_true, beq_iff_eq] at hbrace
      rw [Symbol.chars, Source.startsWithAt, Bool.and_eq_true, beq_iff_eq, hbrace.1] at h
      have hheads : ∀ s ∈ doubleSymbols, s.head ≠ '{' := by decide
      exact absurd (Option.some.inj h.1).symm (hheads s hs)
  omega

end Grammar

namespace Lexer

open Matcher Grammar

variable {src : Source} {i j : Nat}

/-- What is tried before the special symbols, and the characters it begins with. -/
def beginnings : List ((Char → Bool) × Matcher Token) :=
  [(isWhiteSpace, map Token.leaf whiteSpace),
   (beginsNumber, map Token.number number),
   (isNameStart, map Token.leaf identifier),
   (beginsComment, map Token.comment comment),
   (beginsString, map Token.string stringLiteral)]

theorem beginsWith_of_mem : ∀ k ∈ beginnings, k.2.BeginsWith k.1 := by
  simp only [beginnings, List.forall_mem_cons]
  exact ⟨beginsWith_whiteSpace.map _, beginsWith_number.map _, beginsWith_identifier.map _,
    beginsWith_comment.map _, beginsWith_stringLiteral.map _, List.forall_mem_nil _⟩

theorem exclusive_attempts (hi : i ≤ src.length) : Exclusive attempts src (src.place i) := by
  have hapart : beginnings.Pairwise fun k l => Apart k.1 l.1 := by
    simp only [beginnings, List.pairwise_cons, List.mem_cons, List.not_mem_nil, or_false,
      forall_eq_or_imp, forall_eq, false_imp_iff, implies_true, List.Pairwise.nil, and_true]
    refine ⟨⟨apart_whiteSpace_number, apart_whiteSpace_name, ?_, ?_⟩, ⟨apart_number_name, ?_, ?_⟩,
      ⟨?_, ?_⟩, ?_⟩
    all_goals exact apart_of_all (by decide)
  exact exclusive_of_beginsWith beginsWith_of_mem hapart hi

theorem anyToken_of_attempt (hi : i ≤ src.length) {p : Matcher Token} (hp : p ∈ attempts)
    {t : Token} (h : p src (src.place i) = .found t) : anyToken src (src.place i) = .found t := by
  rw [anyToken_eq_firstOf, firstOf_append, (exclusive_attempts hi).firstOf_eq hp h]
  rfl

/-- Where anything that is tried is found, a token is. -/
theorem exists_stands_of_attempt (hi : i ≤ src.length) {p : Matcher Token}
    (hp : p ∈ attempts ++ [map Token.leaf specialSymbol]) {u : Token}
    (hu : p src (src.place i) = .found u) :
    ∃ t k, anyToken src (src.place i) = .found t ∧ Stands src i k t := by
  refine (anyToken_cases hi).resolve_left fun habsent => ?_
  rw [anyToken_eq_firstOf] at habsent
  rw [misses_of_misses_firstOf habsent p hp] at hu
  cases hu

/-- No token that is found is shorter than the special symbol that stands there. -/
theorem le_of_symbol {k : Nat} {cs : List Char} {t : Token} (hcs : cs ∈ symbolSpellings)
    (hcarries : src.Carries i j cs)
    (hsymbol : specialSymbol.Finds src i j (src.leaf .specialSymbol i j))
    (ht : anyToken src (src.place i) = .found t) (hs : Stands src i k t) : j ≤ k := by
  have hlen := hcarries.length_eq
  have hlt := hs.lt
  rcases mem_symbolSpellings_iff.mp hcs with ⟨s, hdouble, rfl⟩ | ⟨c, -, rfl⟩
  · have hstart := hcarries.startsWithAt_eq
    rw [length_of_mem_doubleSymbols s hdouble] at hlen
    obtain ⟨hspace, hnumber, hname, hstring⟩ := misses_of_double hdouble hstart
    -- What is left to be found are a comment and the symbol itself.
    cases foundAt_of_anyToken ht with
    | whiteSpace hl => exact absurd hspace (by simp [Misses, hl])
    | number hn => exact absurd hnumber (by simp [Misses, hn])
    | identifier hl => exact absurd hname (by simp [Misses, hl])
    | string hl => exact absurd hstring (by simp [Misses, hl])
    | comment hc =>
      have hle := le_of_comment_of_double hdouble hstart hc ⟨hs.lt, hs.le, hs.first, hs.last⟩
      omega
    | specialSymbol hl =>
      obtain rfl := Attempt.found.inj (hl.symm.trans hsymbol.found)
      have hleaf := hsymbol.tiles.stands (show i < j by omega)
      have heq := hleaf.stop_eq ⟨hs.lt, hs.le, hs.first, hs.last⟩
      omega
  · rw [List.length_singleton] at hlen
    omega

/-- Whatever is found at a place, the token taken there is at least as long. -/
theorem exists_longest (hi : i ≤ src.length) {p : Matcher Token}
    (hp : p ∈ attempts ++ [map Token.leaf specialSymbol]) {u : Token}
    (hu : p src (src.place i) = .found u) :
    ∃ t j k, anyToken src (src.place i) = .found t ∧ Stands src i j u ∧ Stands src i k t ∧
      j ≤ k := by
  obtain ⟨t, k, ht, hs⟩ := exists_stands_of_attempt hi hp hu
  -- An attempt that succeeds yields the token that is taken. A special symbol may stand back behind
  -- another token, but only behind a longer one.
  rcases List.mem_append.mp hp with hp | hp
  · obtain rfl := Attempt.found.inj (ht.symm.trans (anyToken_of_attempt hi hp hu))
    exact ⟨t, k, k, ht, hs, hs, Nat.le_refl k⟩
  · obtain rfl := List.mem_singleton.mp hp
    obtain ⟨l, hl, rfl⟩ := exists_of_map hu
    rcases specialSymbol_longest hi with ⟨hmiss, -⟩ | ⟨cs, hcs, j, hcarries, -, hfinds⟩
    · rw [hmiss] at hl
      cases hl
    · obtain rfl := Attempt.found.inj (hl.symm.trans hfinds.found)
      have hle := le_of_symbol hcs hcarries hfinds ht hs
      have hleaf := hfinds.tiles.stands (hfinds.tiles.lt_of_ne_nil (List.cons_ne_nil _ _))
      exact ⟨t, j, k, ht, ⟨hleaf.lt, hleaf.le, hleaf.first, hleaf.last⟩, hs, hle⟩

/-- What there is to say about the token that a lexer takes at a position. -/
structure TakesLongest (src : Source) (here : Position) : Prop where
  /-- At most one of the attempts that come before the special symbols succeeds. -/
  exclusive : Exclusive attempts src here
  /-- These attempts may be made in any order. -/
  perm : ∀ ps, ps.Perm attempts →
    firstOf (ps ++ [map Token.leaf specialSymbol]) src here = anyToken src here
  /-- The token that is given out is as long as any that is found there. -/
  longest : ∀ lx : Lexer, lx.source = src → lx.position = here → lx.stopped = false →
    ∀ p ∈ attempts ++ [map Token.leaf specialSymbol], ∀ u, p src here = .found u →
      ∃ t lx' m n, lx.next = (.ok (some t), lx') ∧ (Spanned.span u).length = .ok m ∧
        (Spanned.span t).length = .ok n ∧ m ≤ n
  /-- The special symbol that is found is the longest that stands there. -/
  symbol : (specialSymbol src here = .absent ∧
      ∀ cs ∈ symbolSpellings, ¬cs <+: src.rest here.offset) ∨
    ∃ cs ∈ symbolSpellings, cs <+: src.rest here.offset ∧
      (∀ ds ∈ symbolSpellings, ds <+: src.rest here.offset → ds.length ≤ cs.length) ∧
      ∃ stop, src.positionOf (here.offset + cs.length - 1) = .ok stop ∧
        specialSymbol src here = .found ⟨.specialSymbol, String.ofList cs, here, stop⟩

/-- A lexer takes the longest token that is found where it stands, and the order in which tokens
are tried matters only where a special symbol begins like something longer. -/
theorem takesLongest (src : Source) (i : Nat) (here : Position) (h : src.positionOf i = .ok here) :
    TakesLongest src here := by
  obtain ⟨hi, rfl⟩ := Source.eq_place_of_positionOf h
  have hexclusive := exclusive_attempts hi
  refine ⟨hexclusive, ?_, ?_, ?_⟩
  · intro ps hperm
    rw [anyToken_eq_firstOf, firstOf_append, firstOf_append, hexclusive.firstOf_perm hperm.symm]
  · rintro lx rfl hpos hrun p hp u hu
    obtain ⟨t, j, k, ht, hsu, hst, hjk⟩ := exists_longest hi hp hu
    have hlt := hst.lt
    have hle := hst.le
    have hgoing : ¬(lx.stopped = true ∨ lx.isExhausted = true) := by
      rw [hrun, isExhausted, hpos, Source.offset_place hi]
      simp only [Bool.false_eq_true, false_or, decide_eq_true_eq]
      omega
    rw [← hpos] at ht
    exact ⟨t, _, j - i, k - i, next_of_found hgoing ht hst, hsu.length_span, hst.length_span,
      by omega⟩
  · rw [Source.offset_place hi]
    rcases specialSymbol_longest hi with hmiss | ⟨cs, hcs, j, hcarries, hlongest, hfinds⟩
    · exact .inl hmiss
    · have hlen := hcarries.length_eq
      have hle := hcarries.le_length
      have hstands := hcarries.startsWithAt_eq
      refine .inr ⟨cs, hcs, Source.startsWithAt_iff.mp hstands, hlongest, src.place (j - 1), ?_, ?_⟩
      · rw [hlen]
        exact Source.positionOf_eq_place (by omega)
      · rw [hfinds.found, Source.leaf, hcarries.between_eq]

/-- On the second line a plus sign is a special symbol of its own, but a number is taken. -/
theorem takesLongest_sign :
    ∃ u t lx' m n,
      map Token.leaf specialSymbol (Source.mk #['\n', '+', '1'] (by decide)) ⟨1, 0, 1⟩ =
        .found u ∧
      (startingAt (Source.mk #['\n', '+', '1'] (by decide)) ⟨1, 0, 1⟩).next =
        (.ok (some (.number t)), lx') ∧
      (Spanned.span u).length = .ok m ∧ (Spanned.span t).length = .ok n ∧ m = 1 ∧ n = 2 ∧
      m ≤ n := by
  have hsymbol : map Token.leaf specialSymbol (Source.mk #['\n', '+', '1'] (by decide)) ⟨1, 0, 1⟩ =
      .found (.leaf ⟨.specialSymbol, "+", ⟨1, 0, 1⟩, ⟨1, 0, 1⟩⟩) := rfl
  obtain ⟨number, after, hnumber⟩ : ∃ number after,
      (startingAt (Source.mk #['\n', '+', '1'] (by decide)) ⟨1, 0, 1⟩).next =
        (.ok (some (.number number)), after) ∧ (Spanned.span number).length = .ok 2 :=
    ⟨_, _, rfl, rfl⟩
  obtain ⟨t, lx', m, n, hnext, hm, hn, hle⟩ :=
    (takesLongest (Source.mk #['\n', '+', '1'] (by decide)) 1 ⟨1, 0, 1⟩ rfl).longest
      (startingAt (Source.mk #['\n', '+', '1'] (by decide)) ⟨1, 0, 1⟩) rfl rfl rfl _ (by simp) _
      hsymbol
  obtain ⟨ht, rfl⟩ := Prod.mk.inj (hnext.symm.trans hnumber.1)
  obtain rfl := Option.some.inj (Except.ok.inj ht)
  obtain rfl : m = 1 := Except.ok.inj (hm.symm.trans rfl)
  obtain rfl : n = 2 := Except.ok.inj (hn.symm.trans hnumber.2)
  exact ⟨_, number, lx', 1, 2, hsymbol, hnumber.1, hm, hn, rfl, rfl, hle⟩

end Lexer

end Reckon
