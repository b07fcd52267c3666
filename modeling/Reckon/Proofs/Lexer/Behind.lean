import Reckon.Proofs.Comment.Behind
import Reckon.Proofs.Grammar.Behind
import Reckon.Proofs.Lexer.Found
import Reckon.Proofs.Lexer.Kinds

/-! Reading looks only forward. A lexer that is started behind a text in front gives out the tokens
that it gives out without it, with their positions moved: by as many characters and lines as stand
in front, and on the first line by the columns in front. Each kind of token is found alike in both
texts, so a step is, and a run is step after step. -/

namespace Reckon

namespace Lexer

open Matcher Grammar

variable {src whole : Source} {o i j : Nat}

/-- Behind a text in front a token is found if it is without it, and it is the same one, moved. -/
def Forward (p : Matcher Token) : Prop :=
  ∀ ⦃src whole : Source⦄ ⦃o i : Nat⦄, src.Ends whole o → i ≤ src.length →
    (p.Misses src i ∧ p.Misses whole (o + i)) ∨
      ∃ j t, p src (src.place i) = .found t ∧ Stands src i j t ∧
        p whole (whole.place (o + i)) = .found (t.behind (whole.place o)) ∧
        Stands whole (o + i) (o + j) (t.behind (whole.place o))

theorem forward_map {α : Type} [Spanned α] [Leafed α] [Solid α] [Movable α] {p : Matcher α}
    (hp : p.Forward) (f : α → Token) (hfirst : ∀ x, Spanned.first (f x) = Spanned.first x)
    (hlast : ∀ x, Spanned.last (f x) = Spanned.last x)
    (hf : ∀ x base, f (Movable.behind x base) = (f x).behind base) : Forward (map f p) := by
  intro src whole o i h hi
  rcases hp h hi with ⟨hmiss, hmiss'⟩ | ⟨j, t, hfinds, hfinds'⟩
  · exact .inl ⟨hmiss.map f, hmiss'.map f⟩
  have hs := hfinds.tiles.stands (hfinds.tiles.lt_of_ne_nil (Solid.leaves_ne_nil t))
  have hs' := hfinds'.tiles.stands (hfinds'.tiles.lt_of_ne_nil (Solid.leaves_ne_nil _))
  refine .inr ⟨j, f t, map_of_found hfinds.found f, ?_, ?_, ?_⟩
  · exact ⟨hs.lt, hs.le, (hfirst t).trans hs.first, (hlast t).trans hs.last⟩
  · rw [← hf]
    exact map_of_found hfinds'.found f
  · rw [← hf]
    exact ⟨hs'.lt, hs'.le, (hfirst _).trans hs'.first, (hlast _).trans hs'.last⟩

theorem forward_comment : Forward (map Token.comment comment) := by
  intro src whole o i h hi
  rcases comment_behind h hi with ⟨habsent, habsent'⟩ | ⟨j, c, hfound, hs, hfound'⟩
  · have hmiss : Misses comment src i := habsent
    have hmiss' : Misses comment whole (o + i) := habsent'
    exact .inl ⟨hmiss.map _, hmiss'.map _⟩
  · have hs' : Stands whole (o + i) (o + j) (Token.comment (c.behind (whole.place o))) := by
      obtain ⟨kind, nested, first, last⟩ := c
      exact h.stands hs rfl rfl
    exact .inr ⟨j, .comment c, map_of_found (p := comment) hfound _,
      ⟨hs.lt, hs.le, hs.first, hs.last⟩, map_of_found (p := comment) hfound' _, hs'⟩

theorem Forward.firstOf {ps : List (Matcher Token)} (hps : ∀ p ∈ ps, Forward p) :
    Forward (Matcher.firstOf ps) := by
  intro src whole o i h hi
  induction ps with
  | nil => exact .inl ⟨rfl, rfl⟩
  | cons p ps ih =>
    obtain ⟨hp, hps⟩ := List.forall_mem_cons.mp hps
    rcases hp h hi with ⟨hmiss, hmiss'⟩ | ⟨j, t, hfound, hs, hfound', hs'⟩
    · rcases ih hps with ⟨hrest, hrest'⟩ | ⟨j, t, hfound, hs, hfound', hs'⟩
      · exact .inl ⟨hmiss.firstOf_eq.trans hrest, hmiss'.firstOf_eq.trans hrest'⟩
      · exact .inr ⟨j, t, hmiss.firstOf_eq.trans hfound, hs, hmiss'.firstOf_eq.trans hfound', hs'⟩
    · exact .inr ⟨j, t, firstOf_of_found hfound, hs, firstOf_of_found hfound', hs'⟩

/-- A step looks only forward. -/
theorem forward_anyToken : Forward anyToken := by
  have hkinds : ∀ p ∈ attempts ++ [map Token.leaf specialSymbol], Forward p := by
    simp only [attempts, List.cons_append, List.nil_append, List.forall_mem_cons]
    exact ⟨forward_map forward_whiteSpace _ (fun _ => rfl) (fun _ => rfl) fun _ _ => rfl,
      forward_map forward_number _ (fun _ => rfl) (fun _ => rfl) fun _ _ => rfl,
      forward_map forward_identifier _ (fun _ => rfl) (fun _ => rfl) fun _ _ => rfl,
      forward_comment,
      forward_map forward_stringLiteral _ (fun _ => rfl) (fun _ => rfl) fun _ _ => rfl,
      forward_map forward_specialSymbol _ (fun _ => rfl) (fun _ => rfl) fun _ _ => rfl,
      List.forall_mem_nil _⟩
  have hany : anyToken = Matcher.firstOf (attempts ++ [map Token.leaf specialSymbol]) := by
    funext src here
    exact anyToken_eq_firstOf src here
  rw [hany]
  exact .firstOf hkinds

/-- So does a run. -/
theorem Run.behind (h : src.Ends whole o) {ts : List Token} (hrun : Run src i j ts) :
    Run whole (o + i) (o + j) (ts.map (·.behind (whole.place o))) := by
  obtain ⟨htiles, hstuck⟩ := hrun
  have hlen := h.length_eq
  refine ⟨?_, ?_⟩
  · clear hstuck
    induction htiles with
    | nil hi => exact .nil (by omega)
    | @cons i m j t ts hs ht _ ih =>
      have hlt := hs.lt
      have hle := hs.le
      rw [Token.IsFound, hs.first] at ht
      rcases forward_anyToken h (show i ≤ src.length by omega) with
        ⟨hmiss, -⟩ | ⟨m', t', hfound, hs', hmoved, hstands⟩
      · rw [hmiss] at ht
        cases ht
      · obtain rfl := Attempt.found.inj (hfound.symm.trans ht)
        obtain rfl := hs.stop_eq hs'
        refine .cons hstands ?_ ih
        rw [Token.IsFound, hstands.first]
        exact hmoved
  · rcases forward_anyToken h htiles.le_length with ⟨-, hmiss⟩ | ⟨k, t, hfound, -⟩
    · exact hmiss
    · rw [hstuck] at hfound
      cases hfound

/-- A lexer that is started where a run begins gives out its tokens. -/
theorem lex_of_run {ts : List Token} (hrun : Run src i j ts) : lex src i = .ok ts := by
  have hi := hrun.tiles.start_le
  have hle := hrun.tiles.le_length
  rw [lex]
  split
  · rename_i hend
    have hnil : ts = [] := by
      by_contra hne
      have hlt := hrun.tiles.lt_of_ne_nil hne
      omega
    rw [hnil]
  · have hsrc : (startingAt src (src.place i)).source = src := rfl
    have hfuel : j - i < src.length - (src.place i).offset + 1 := by
      rw [Source.offset_place hi]
      omega
    obtain ⟨lx, hts, -⟩ := nextTokens_of_run hrun hsrc rfl rfl hfuel
    rw [Source.positionOf_eq_place hi]
    exact congrArg Prod.fst hts

end Lexer

/-- The tokens of a text from where it begins are, moved, those of a text that ends with it from
there on. -/
theorem lex_behind (src whole : Source) (before : List Char)
    (h : whole.chars.toList = before ++ src.chars.toList) :
    ∃ base tokens, whole.positionOf before.length = .ok base ∧
      base.line = before.count '\n' ∧ base.offset = before.length ∧ lex src 0 = .ok tokens ∧
      lex whole before.length = .ok (tokens.map (·.behind base)) := by
  have hends := Source.ends_of_append h
  have hlen := hends.length_eq
  have hle : before.length ≤ whole.length := by omega
  obtain ⟨j, ts, hrun⟩ := Lexer.exists_run (Nat.zero_le src.length)
  have hline : (whole.place before.length).line = before.count '\n' := by
    have hbefore : whole.between 0 before.length = before := by
      rw [Source.between, Source.rest, h, List.drop_zero, Nat.sub_zero, List.take_left']
      rfl
    rw [Source.place, Position.line_after, hbefore]
    exact Nat.zero_add _
  exact ⟨whole.place before.length, ts, Source.positionOf_eq_place hle, hline,
    Source.offset_place hle, Lexer.lex_of_run hrun, Lexer.lex_of_run (hrun.behind hends)⟩

/-- A comment over two lines and a number, behind one line and a letter. -/
theorem lex_behind_comment :
    ∃ c n, lex (Source.mk #['{', '\n', '}', '-', '1'] (by decide)) 0 = .ok [.comment c, .number n] ∧
      lex (Source.mk #['\n', 'x', '{', '\n', '}', '-', '1'] (by decide)) 2 =
        .ok [.comment (c.behind ⟨1, 1, 2⟩), .number (n.behind ⟨1, 1, 2⟩)] ∧
      Spanned.span (c.behind ⟨1, 1, 2⟩) = ⟨⟨1, 1, 2⟩, ⟨2, 0, 4⟩⟩ := by
  obtain ⟨base, tokens, hbase, -, -, hlex, hwhole⟩ :=
    lex_behind (Source.mk #['{', '\n', '}', '-', '1'] (by decide))
      (Source.mk #['\n', 'x', '{', '\n', '}', '-', '1'] (by decide)) ['\n', 'x'] rfl
  have hread : lex (Source.mk #['{', '\n', '}', '-', '1'] (by decide)) 0 =
      .ok [.comment (.node .curly [] ⟨0, 0, 0⟩ ⟨1, 0, 2⟩),
        .number ⟨some ⟨.sign, "-", ⟨1, 1, 3⟩, ⟨1, 1, 3⟩⟩,
          .whole (.decimal ⟨.decimalDigits, "1", ⟨1, 2, 4⟩, ⟨1, 2, 4⟩⟩)⟩] := rfl
  obtain rfl : ⟨1, 1, 2⟩ = base := Except.ok.inj hbase
  obtain rfl := Except.ok.inj (hlex.symm.trans hread)
  exact ⟨_, _, hread, hwhole, rfl⟩

end Reckon
