import Reckon.Proofs.Comment.Local
import Reckon.Proofs.Grammar.Word
import Reckon.Proofs.Lexer.Tiling

/-! Which tokens a lexer finds. A run finds one token after another, each where the one before it
ends, until it stands where no token is found. From every offset of a text there is one run, and a
lexer that is started there gives out its tokens. Where the text is known, it is told at each place
from the characters there which alternatives fail and which one is the first to succeed. -/

namespace Reckon

/-- A lexer that stands where the token begins finds it. -/
def Token.IsFound (src : Source) (t : Token) : Prop :=
  Lexer.anyToken src (Spanned.first t) = .found t

namespace Lexer

open Matcher Grammar

variable {src : Source} {i j : Nat}

theorem tiles_of_found {t : Token} (ht : anyToken src (src.place i) = .found t)
    (hs : Stands src i j t) : Tiles src (Token.IsFound src) i j [t] := by
  refine .singleton hs ?_
  rw [Token.IsFound, hs.first]
  exact ht

/-- The tokens that are found one after another from offset `i` on, and the offset where no further
token is found. -/
structure Run (src : Source) (i j : Nat) (ts : List Token) : Prop where
  tiles : Tiles src (Token.IsFound src) i j ts
  stuck : anyToken src (src.place j) = .absent

/-- At every offset a token is found that stands there, or none is. -/
theorem anyToken_cases (hi : i ≤ src.length) :
    anyToken src (src.place i) = .absent ∨
      ∃ t j, anyToken src (src.place i) = .found t ∧ Stands src i j t := by
  have hany := holds_anyToken hi
  cases ht : anyToken src (src.place i) with
  | fault cause =>
    rw [ht] at hany
    exact hany.elim
  | absent => exact .inl rfl
  | found t =>
    rw [ht] at hany
    obtain ⟨j, hs, -⟩ := hany
    exact .inr ⟨t, j, rfl, hs⟩

/-- At the end of the text no token is found. -/
theorem anyToken_length (src : Source) : anyToken src (src.place src.length) = .absent := by
  rcases anyToken_cases (Nat.le_refl src.length) with habsent | ⟨t, j, -, hs⟩
  · exact habsent
  · exact absurd hs.le (Nat.not_le_of_lt hs.lt)

/-- Every token takes up text, so the tokens come to an end. -/
theorem exists_run (hi : i ≤ src.length) : ∃ j ts, Run src i j ts := by
  induction hn : src.length - i using Nat.strongRecOn generalizing i with
  | ind n ih =>
    rcases anyToken_cases hi with habsent | ⟨t, m, ht, hs⟩
    · exact ⟨i, [], .nil hi, habsent⟩
    · have hlt := hs.lt
      have hle := hs.le
      obtain ⟨j, ts, htiles, hstuck⟩ := ih (src.length - m) (by omega) hle rfl
      exact ⟨j, t :: ts, (tiles_of_found ht hs).append htiles, hstuck⟩

/-- A lexer that is started where a run begins gives out the tokens of the run and ends where it
does. -/
theorem nextTokens_of_run {ts : List Token} (h : Run src i j ts) {lx : Lexer}
    (hsrc : lx.source = src) (hpos : lx.position = src.place i) (hrun : lx.stopped = false)
    {fuel : Nat} (hf : j - i < fuel) :
    ∃ lx', nextTokens fuel lx = (.ok ts, lx') ∧ lx'.source = src ∧ lx'.position = src.place j := by
  obtain ⟨h, hstuck⟩ := h
  induction h generalizing lx fuel with
  | @nil i hi =>
    obtain ⟨n, rfl⟩ : ∃ n, fuel = n + 1 := ⟨fuel - 1, by omega⟩
    by_cases hend : lx.stopped ∨ lx.isExhausted
    · refine ⟨lx, ?_, hsrc, hpos⟩
      rw [nextTokens, next_of_ended hend]
    · rw [← hpos, ← hsrc] at hstuck
      refine ⟨{ lx with stopped := true }, ?_, hsrc, hpos⟩
      rw [nextTokens, next_of_absent hend hstuck]
  | @cons i m j t ts hs ht hts ih =>
    obtain ⟨n, rfl⟩ : ∃ n, fuel = n + 1 := ⟨fuel - 1, by omega⟩
    have hlt := hs.lt
    have hle := hs.le
    have hmj := hts.le
    have hex : ¬(lx.stopped = true ∨ lx.isExhausted = true) := by
      rw [hrun, isExhausted, hsrc, hpos, Source.offset_place (by omega)]
      simp only [Bool.false_eq_true, false_or, decide_eq_true_eq]
      omega
    have hfound : anyToken lx.source lx.position = .found t := by
      rw [hsrc, hpos, ← hs.first]
      exact ht
    obtain ⟨lx', hnext, hsrc', hpos', hrun'⟩ : ∃ lx', lx.next = (.ok (some t), lx') ∧
        lx'.source = src ∧ lx'.position = src.place m ∧ lx'.stopped = false := by
      subst hsrc
      exact ⟨_, next_of_found hex hfound hs, rfl, rfl, hrun⟩
    obtain ⟨final, hrest, hfinal⟩ := ih hsrc' hpos' hrun' (show j - m < n by omega) hstuck
    refine ⟨final, ?_, hfinal⟩
    rw [nextTokens, hnext]
    simp only [hrest]

/-- What a lexer gives out from the beginning of a text on is a run. -/
theorem run_of_remaining {tokens : List Token} {lx : Lexer}
    (h : (start src).remaining = (.ok tokens, lx)) :
    ∃ j, Run src 0 j tokens ∧ lx.source = src ∧ lx.position = src.place j := by
  obtain ⟨j, ts, hrun⟩ := exists_run (Nat.zero_le src.length)
  have hle := hrun.tiles.le_length
  have hstart : (start src).position = src.place 0 := src.place_zero.symm
  obtain ⟨lx', hts, hsrc, hpos⟩ := nextTokens_of_run hrun rfl hstart rfl
    (show j - 0 < src.length - 0 + 1 by omega)
  obtain ⟨htokens, rfl⟩ := Prod.mk.inj (hts.symm.trans h)
  obtain rfl := Except.ok.inj htokens
  exact ⟨j, hrun, hsrc, hpos⟩

/-- A lexer that finds tokens up to the end of the text ends there. -/
theorem nextTokens_of_tiles {ts : List Token} (h : Tiles src (Token.IsFound src) i j ts)
    (hj : j = src.length) {lx : Lexer} (hsrc : lx.source = src) (hpos : lx.position = src.place i)
    (hrun : lx.stopped = false) {fuel : Nat} (hf : j - i < fuel) :
    ∃ lx', nextTokens fuel lx = (.ok ts, lx') ∧ lx'.source = src ∧ lx'.position = src.place j := by
  subst hj
  exact nextTokens_of_run ⟨h, anyToken_length src⟩ hsrc hpos hrun hf

theorem tiles_whiteSpace {cs : List Char} (h : src.Carries i j cs) (hne : cs ≠ [])
    (hcs : ∀ c ∈ cs, isWhiteSpace c = true) (hstop : ∀ c ∈ src.charAt j, isWhiteSpace c = false) :
    Tiles src (Token.IsFound src) i j [.leaf (src.leaf .whiteSpace i j)] := by
  have hfinds : whiteSpace.Finds src i j _ := finds_run .whiteSpace h hne hcs hstop
  have hs := hfinds.tiles.stands (h.lt hne)
  exact tiles_of_found (firstOf_of_found (map_of_found hfinds.found _)) ⟨hs.lt, hs.le, rfl, rfl⟩

/-- Where no white space stands the other tokens are tried. -/
theorem anyToken_eq_solidToken (hi : i ≤ src.length)
    (h : ∀ c ∈ src.charAt i, isWhiteSpace c = false) :
    anyToken src (src.place i) = solidToken src (src.place i) := by
  have hmiss : whiteSpace.Misses src i := misses_run .whiteSpace hi h
  rw [anyToken, (hmiss.map Token.leaf).firstOf_eq, firstOf]
  cases solidToken src (src.place i) <;> rfl

theorem tiles_number {n : Number} (hij : i < j) (h : number.Finds src i j n)
    (hws : ∀ c ∈ src.charAt i, isWhiteSpace c = false) :
    Tiles src (Token.IsFound src) i j [.number n] := by
  have hs := h.tiles.stands hij
  refine tiles_of_found ?_ ⟨hs.lt, hs.le, hs.first, hs.last⟩
  rw [anyToken_eq_solidToken h.tiles.start_le hws]
  exact firstOf_of_found (map_of_found h.found _)

theorem tiles_identifier {l : Leaf} (hij : i < j) (h : identifier.Finds src i j l)
    (hws : ∀ c ∈ src.charAt i, isWhiteSpace c = false) (hnumber : number.Misses src i) :
    Tiles src (Token.IsFound src) i j [.leaf l] := by
  have hs := h.tiles.stands hij
  refine tiles_of_found ?_ ⟨hs.lt, hs.le, hs.first, hs.last⟩
  rw [anyToken_eq_solidToken h.tiles.start_le hws, solidToken,
    (hnumber.map Token.number).firstOf_eq]
  exact firstOf_of_found (map_of_found h.found _)

theorem tiles_comment {c : Comment} (h : comment src (src.place i) = .found c)
    (hs : Stands src i j c) (hws : ∀ c ∈ src.charAt i, isWhiteSpace c = false)
    (hnumber : number.Misses src i) (hname : identifier.Misses src i) :
    Tiles src (Token.IsFound src) i j [.comment c] := by
  have hlt := hs.lt
  have hle := hs.le
  refine tiles_of_found ?_ ⟨hs.lt, hs.le, hs.first, hs.last⟩
  rw [anyToken_eq_solidToken (by omega) hws, solidToken, (hnumber.map Token.number).firstOf_eq,
    (hname.map Token.leaf).firstOf_eq]
  exact firstOf_of_found (map_of_found (p := comment) h _)

theorem tiles_specialSymbol {l : Leaf} (hij : i < j) (h : specialSymbol.Finds src i j l)
    (hws : ∀ c ∈ src.charAt i, isWhiteSpace c = false) (hnumber : number.Misses src i)
    (hname : identifier.Misses src i) (hcomment : Misses comment src i)
    (hstring : stringLiteral.Misses src i) : Tiles src (Token.IsFound src) i j [.leaf l] := by
  have hs := h.tiles.stands hij
  refine tiles_of_found ?_ ⟨hs.lt, hs.le, hs.first, hs.last⟩
  rw [anyToken_eq_solidToken h.tiles.start_le hws, solidToken,
    (hnumber.map Token.number).firstOf_eq, (hname.map Token.leaf).firstOf_eq,
    (hcomment.map Token.comment).firstOf_eq, (hstring.map Token.string).firstOf_eq]
  exact firstOf_of_found (map_of_found h.found _)

end Lexer

end Reckon
