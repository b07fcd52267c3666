import Reckon.Proofs.Comment.Cut
import Reckon.Proofs.Grammar.Cut
import Reckon.Proofs.Lexer.Behind
import Reckon.Proofs.Lexer.Munch

/-! Tokens by themselves. The text of a token, taken out of the text around it, is read as this one
token again. Nothing in front of a token is looked at, and nothing behind it is needed to find it:
what the token was found by finds it in its own text, too. It must not be forestalled there by
something that failed in the whole text. Of what is tried before the special symbols, only comments
could do that, since a comment may fail because of what follows, such as a comment inside it that is
never closed. But the text of a special symbol is too short to be a comment, unless it is the two
slashes that begin a line comment. -/

namespace Reckon

/-- The special symbol of two slashes. By itself it is a line comment. -/
def Token.IsSlashes (t : Token) : Prop :=
  ∃ l, t = .leaf l ∧ l.kind = .specialSymbol ∧ l.text = "//"

/-- The text that the token stands on, read as a text of its own from where it begins, is one token,
which is the same except that it begins at the origin. -/
def Token.StandsAlone (src : Source) (t : Token) : Prop :=
  ∃ text own alone, src.textOf (Spanned.span t) = .ok text ∧ Source.ofString? text = some own ∧
    lex own 0 = .ok [alone] ∧ Spanned.first alone = .origin ∧ t = alone.behind (Spanned.first t)

theorem Source.ofString?_ofList (src : Source) :
    ofString? (String.ofList src.chars.toList) = some src := by
  simp [ofString?, src.size_lt]

namespace Grammar

open Matcher

variable {own src : Source} {i : Nat}

/-- No special symbol is a comment but the two slashes. -/
theorem misses_comment_of_symbol (h : own.chars.toList ∈ symbolSpellings)
    (hne : own.chars.toList ≠ ['/', '/']) : Misses comment own 0 := by
  rcases comment_cases (Nat.zero_le own.length) with
    habsent | ⟨kind, nested, last, ho, hbody, -⟩
  · exact habsent
  exfalso
  have hopener : kind.opener <+: own.chars.toList :=
    Source.startsWithAt_iff.mp (startsWithAt_of_openerAt ho)
  by_cases hkind : kind = .line
  · subst hkind
    have hslashes : ∀ cs ∈ symbolSpellings, CommentKind.line.opener <+: cs → cs = ['/', '/'] := by
      decide
    exact hne (hslashes _ h hopener)
  · -- Between brackets a closing sequence must follow, for which there is no room.
    have hroom := hbody.lt_length hkind
    have hshort : ∀ cs ∈ symbolSpellings, kind.opener <+: cs → cs.length ≤ kind.opener.length := by
      cases kind with
      | line => exact absurd rfl hkind
      | round => decide
      | curly => decide
    have hlen := hshort _ h hopener
    rw [Array.length_toList] at hlen
    rw [Source.length] at hroom
    omega

end Grammar

namespace Lexer

open Matcher Grammar

variable {own src : Source} {i j : Nat}

/-- A token that ends before the cut is found in the beginning of the text. -/
def Keeps (p : Matcher Token) : Prop :=
  ∀ ⦃own src : Source⦄ ⦃i j : Nat⦄ ⦃t : Token⦄, own.Begins src → j ≤ own.length →
    p src (src.place i) = .found t → Stands src i j t → p own (own.place i) = .found t

theorem keeps_map {α : Type} [Spanned α] [Leafed α] [Solid α] {p : Matcher α} (hp : p.Kept)
    (f : α → Token) (hfirst : ∀ x, Spanned.first (f x) = Spanned.first x)
    (hlast : ∀ x, Spanned.last (f x) = Spanned.last x) : Keeps (map f p) := by
  intro own src i j t h hj ht hs
  have hlt := hs.lt
  have hle := hs.le
  obtain ⟨a, ha, rfl⟩ := exists_of_map ht
  rcases hp.faithful.misses_or_finds (show i ≤ src.length by omega) with hmiss | ⟨k, b, hb⟩
  · rw [hmiss] at ha
    cases ha
  · obtain rfl := Attempt.found.inj (hb.found.symm.trans ha)
    obtain ⟨hlt, hle, hf, hl⟩ := hb.tiles.stands hb.lt
    obtain rfl := hs.stop_eq ⟨hlt, hle, (hfirst b).trans hf, (hlast b).trans hl⟩
    exact map_of_found (hp.finds h hj hb).found f

theorem keeps_comment : Keeps (map Token.comment comment) := by
  intro own src i j t h hj ht hs
  obtain ⟨c, hc, rfl⟩ := exists_of_map ht
  exact map_of_found (comment_of_begins h hc ⟨hs.lt, hs.le, hs.first, hs.last⟩ hj) _

/-- Whatever is tried keeps what it finds before the cut. -/
theorem keeps_of_mem : ∀ p ∈ attempts ++ [map Token.leaf specialSymbol], Keeps p := by
  simp only [attempts, List.cons_append, List.nil_append, List.forall_mem_cons]
  exact ⟨keeps_map kept_whiteSpace _ (fun _ => rfl) fun _ => rfl,
    keeps_map kept_number _ (fun _ => rfl) fun _ => rfl,
    keeps_map kept_identifier _ (fun _ => rfl) fun _ => rfl,
    keeps_comment,
    keeps_map kept_stringLiteral _ (fun _ => rfl) fun _ => rfl,
    keeps_map kept_specialSymbol _ (fun _ => rfl) fun _ => rfl,
    List.forall_mem_nil _⟩

/-- A text that a special symbol takes up as a whole is spelled like one. -/
theorem spelling_of_symbol (h : own.Begins src) {t : Token}
    (ht : map Token.leaf specialSymbol src (src.place 0) = .found t)
    (hs : Stands src 0 own.length t) :
    own.chars.toList ∈ symbolSpellings ∧ (own.chars.toList = ['/', '/'] → t.IsSlashes) := by
  obtain ⟨l, hl, rfl⟩ := exists_of_map ht
  rcases specialSymbol_longest (Nat.zero_le src.length) with
    ⟨hmiss, -⟩ | ⟨cs, hcs, j, hcarries, -, hfinds⟩
  · rw [hmiss] at hl
    cases hl
  obtain rfl := Attempt.found.inj (hfinds.found.symm.trans hl)
  obtain ⟨hlt, hle, hf, hl⟩ := hfinds.tiles.stands hfinds.lt
  obtain rfl := hs.stop_eq ⟨hlt, hle, hf, hl⟩
  have hall : own.chars.toList = cs := by
    rw [← own.carries_all.between_eq]
    exact (h.carries_of_le (Nat.le_refl _) hcarries).between_eq
  refine ⟨hall ▸ hcs, fun hslashes => ⟨_, rfl, rfl, ?_⟩⟩
  rw [Source.leaf, hcarries.between_eq, ← hall, hslashes]

/-- Where a text begins with a special symbol, nothing that is tried before is found in the symbol
alone. -/
theorem attempts_miss_symbol (h : own.Begins src) (hmiss : ∀ p ∈ attempts, p.Misses src 0)
    (hsymbol : own.chars.toList ∈ symbolSpellings) (hne : own.chars.toList ≠ ['/', '/']) :
    ∀ p ∈ attempts, p.Misses own 0 := by
  have hkept : ∀ {α : Type} [Spanned α] [Leafed α] {p : Matcher α} (f : α → Token), p.Kept →
      (map f p).Misses src 0 → (map f p).Misses own 0 :=
    fun f hp hno => (hp.misses h (Nat.zero_le _) (misses_of_misses_map hno)).map f
  simp only [attempts, List.forall_mem_cons] at hmiss ⊢
  obtain ⟨hspace, hnumber, hname, -, hstring, -⟩ := hmiss
  exact ⟨hkept _ kept_whiteSpace hspace, hkept _ kept_number hnumber, hkept _ kept_identifier hname,
    (misses_comment_of_symbol hsymbol hne).map _, hkept _ kept_stringLiteral hstring,
    List.forall_mem_nil _⟩

/-- A token that a text begins with is found in its own text. -/
theorem anyToken_alone (h : own.Begins src) {t : Token}
    (ht : anyToken src (src.place 0) = .found t) (hs : Stands src 0 own.length t)
    (hne : ¬t.IsSlashes) : anyToken own (own.place 0) = .found t := by
  have hfound : ∀ p ∈ attempts ++ [map Token.leaf specialSymbol],
      p src (src.place 0) = .found t → p own (own.place 0) = .found t :=
    fun p hp hpt => keeps_of_mem p hp h (Nat.le_refl _) hpt hs
  rw [anyToken_eq_firstOf, firstOf_append] at ht
  cases hattempt : firstOf attempts src (src.place 0) with
  | found u =>
    rw [hattempt] at ht
    obtain rfl := Attempt.found.inj ht
    obtain ⟨p, hp, hpt⟩ := exists_of_firstOf hattempt
    exact anyToken_of_attempt (Nat.zero_le _) hp (hfound p (List.mem_append_left _ hp) hpt)
  | absent =>
    rw [hattempt] at ht
    replace ht : firstOf [map Token.leaf specialSymbol] src (src.place 0) = .found t := ht
    obtain ⟨p, hp, hpt⟩ := exists_of_firstOf ht
    obtain rfl := List.mem_singleton.mp hp
    obtain ⟨hspelling, hslashes⟩ := spelling_of_symbol h hpt hs
    have hmiss := attempts_miss_symbol h (misses_of_misses_firstOf hattempt) hspelling
      (mt hslashes hne)
    have hsymbol := hfound _ (List.mem_append_right _ hp) hpt
    rw [anyToken_eq_firstOf, firstOf_append, misses_firstOf hmiss]
    exact firstOf_of_found hsymbol
  | fault cause =>
    rw [hattempt] at ht
    cases ht

theorem standsAlone_of_found {t : Token} (ht : anyToken src (src.place i) = .found t)
    (hs : Stands src i j t) (hne : ¬t.IsSlashes) : t.StandsAlone src := by
  have hlt := hs.lt
  have hle := hs.le
  -- What stands in front of the token is taken away first, and then what stands behind it.
  obtain ⟨after, hends⟩ := Source.exists_ends (show i ≤ src.length by omega)
  rcases forward_anyToken hends (Nat.zero_le after.length) with
    ⟨-, hmiss⟩ | ⟨n, alone, halone, hstands, hmoved, hstands'⟩
  · rw [Nat.add_zero] at hmiss
    rw [hmiss] at ht
    cases ht
  rw [Nat.add_zero] at hmoved hstands'
  obtain rfl := Attempt.found.inj (hmoved.symm.trans ht)
  obtain rfl := hs.stop_eq hstands'
  obtain ⟨own, hchars, hbegins⟩ := Source.exists_begins hstands.le
  have hlen : own.length = n := by
    rw [Source.length, ← Array.length_toList, hchars, Source.length_between hstands.le,
      Nat.sub_zero]
  subst hlen
  have hnot : ¬alone.IsSlashes := by
    rintro ⟨l, rfl, hkind, htext⟩
    exact hne ⟨_, rfl, hkind, htext⟩
  have hown := anyToken_alone hbegins halone hstands hnot
  have hstandsOwn := hbegins.stands (Nat.le_refl _) hstands
  have hrun : Run own 0 own.length [alone] :=
    ⟨tiles_of_found hown hstandsOwn, anyToken_length own⟩
  have hbetween := hends.between_eq 0 own.length
  rw [Nat.add_zero] at hbetween
  refine ⟨String.ofList own.chars.toList, own, alone, ?_, own.ofString?_ofList, lex_of_run hrun,
    ?_, ?_⟩
  · rw [hs.textOf, hbetween, hchars]
  · rw [hstandsOwn.first, Source.place_zero]
  · rw [hs.first]

end Lexer

/-- Each token of a text but a special symbol of two slashes is the only token of its own text,
where it begins at the origin. -/
theorem lex_standsAlone (src : Source) (k : Nat) :
    ∃ tokens, lex src k = .ok tokens ∧ ∀ t ∈ tokens, ¬t.IsSlashes → t.StandsAlone src := by
  by_cases hk : k ≤ src.length
  · obtain ⟨j, tokens, hrun⟩ := Lexer.exists_run hk
    refine ⟨tokens, Lexer.lex_of_run hrun, fun t ht hne => ?_⟩
    have hfound := hrun.tiles.forall_mem t ht
    obtain ⟨a, b, -, -, hs⟩ := hrun.tiles.exists_stands t ht
    rw [Token.IsFound, hs.first] at hfound
    exact Lexer.standsAlone_of_found hfound hs hne
  · refine ⟨[], ?_, List.forall_mem_nil _⟩
    rw [lex, if_pos (by omega)]

/-- A string literal over two lines, behind a letter on the second line. -/
theorem lex_standsAlone_string :
    ∃ literal, lex (Source.mk #['\n', 'x', '\'', '\n', '\''] (by decide)) 1 =
        .ok [.leaf ⟨.identifier, "x", ⟨1, 0, 1⟩, ⟨1, 0, 1⟩⟩, .string literal] ∧
      Spanned.span literal = ⟨⟨1, 1, 2⟩, ⟨2, 0, 4⟩⟩ ∧ ¬(Token.string literal).IsSlashes ∧
      (Token.string literal).StandsAlone
        (Source.mk #['\n', 'x', '\'', '\n', '\''] (by decide)) := by
  have hread : lex (Source.mk #['\n', 'x', '\'', '\n', '\''] (by decide)) 1 =
      .ok [.leaf ⟨.identifier, "x", ⟨1, 0, 1⟩, ⟨1, 0, 1⟩⟩,
        .string ⟨.quoted ⟨⟨.singleQuote, "'", ⟨1, 1, 2⟩, ⟨1, 1, 2⟩⟩,
          some ⟨.stringBody, "\n", ⟨1, 2, 3⟩, ⟨1, 2, 3⟩⟩,
          ⟨.singleQuote, "'", ⟨2, 0, 4⟩, ⟨2, 0, 4⟩⟩⟩, []⟩] := rfl
  obtain ⟨tokens, hlex, halone⟩ :=
    lex_standsAlone (Source.mk #['\n', 'x', '\'', '\n', '\''] (by decide)) 1
  obtain rfl := Except.ok.inj (hread.symm.trans hlex)
  have hne : ∀ literal, ¬(Token.string literal).IsSlashes := by
    rintro literal ⟨l, ⟨⟩, -⟩
  exact ⟨_, hread, rfl, hne _, halone _ (List.mem_cons_of_mem _ List.mem_cons_self) (hne _)⟩

/-- Before a comment that is never closed two slashes are a special symbol, but not alone. -/
example :
    ∃ symbol rest comment,
      lex (Source.mk #['/', '/', '{'] (by decide)) 0 = .ok (.leaf symbol :: rest) ∧
        symbol.text = "//" ∧
        lex (Source.mk #['/', '/'] (by decide)) 0 = .ok [.comment comment] :=
  ⟨_, _, _, rfl, rfl, rfl⟩

end Reckon
