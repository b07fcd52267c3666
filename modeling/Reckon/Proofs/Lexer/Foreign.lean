import Reckon.Proofs.Lexer.Found
import Reckon.Proofs.Lexer.Kinds

/-! Foreign characters: those that no token begins with. A lexer stops nowhere else. A digit begins
a number, a letter or an underscore begins an identifier, and the other characters of the language
are special symbols of their own, so whatever else fails at one of them, something is found there.
-/

namespace Reckon

/-- A character that no token begins with. -/
structure IsForeign (c : Char) : Prop where
  whiteSpace : isWhiteSpace c = false
  letter : isAlphabetic c = false
  underscore : c ≠ '_'
  digit : isDecimalDigit c = false
  symbol : c ∉ Grammar.singleSymbols

namespace Grammar

open Matcher

variable {src : Source} {i : Nat} {c : Char}

/-- A digit is a number, with whatever of a fraction and a scale follows it. -/
theorem exists_finds_number (h : src.charAt i = some c) (hc : isDecimalDigit c = true) :
    ∃ j n, number.Finds src i j n := by
  obtain ⟨k, whole, hwhole⟩ := exists_finds_run .decimalDigits h hc
  obtain ⟨m, f, hfraction⟩ := faithful_fraction.exists_finds_perhaps hwhole.tiles.le_length
  obtain ⟨j, s, hscale⟩ := faithful_scale.exists_finds_perhaps hfraction.tiles.le_length
  have hreal : unsignedReal.Finds src i j (realOrWhole whole f s) :=
    Finds.seq3 hwhole hfraction hscale (leaves_realOrWhole whole f s)
  have hi : i ≤ src.length := hwhole.tiles.start_le
  have hsign : sign.Misses src i := by
    apply misses_sign hi
    rintro d hd
    obtain rfl := Option.some.inj (h.symm.trans hd)
    constructor <;> rintro rfl <;> exact absurd hc (by decide)
  exact ⟨j, _, Finds.seq2 (hsign.perhaps hi) hreal.firstOf_head rfl⟩

/-- A letter or an underscore is an identifier, with the letters, underscores and digits behind it.
-/
theorem exists_finds_identifier (h : src.charAt i = some c) (hc : isNameStart c = true) :
    ∃ j l, identifier.Finds src i j l := by
  obtain ⟨j, cs, hname, hcarries, hstop⟩ := exists_carries_name h hc
  exact ⟨j, _, finds_identifier hname hcarries hstop⟩

theorem not_misses_specialSymbol (h : src.charAt i = some c) (hc : c ∈ singleSymbols) :
    ¬specialSymbol.Misses src i := by
  intro hmiss
  have hmem : char .specialSymbol c ∈
      doubleSymbols.map (symbol .specialSymbol) ++ singleSymbols.map (char .specialSymbol) :=
    List.mem_append_right _ (List.mem_map_of_mem hc)
  have hchar := finds_char .specialSymbol (Source.carries_singleton h)
  exact hchar.not_misses (misses_of_misses_firstOf hmiss _ hmem)

end Grammar

namespace Lexer

open Matcher Grammar

/-- Where no token is found the text ends or a foreign character stands. -/
theorem isForeign_of_absent {src : Source} {i : Nat} {c : Char}
    (h : anyToken src (src.place i) = .absent) (hc : src.charAt i = some c) : IsForeign c := by
  rw [anyToken_eq_firstOf] at h
  have hany := misses_of_misses_firstOf h
  have hws : (map Token.leaf whiteSpace).Misses src i := hany _ (by simp [attempts])
  have hnumber : (map Token.number number).Misses src i := hany _ (by simp [attempts])
  have hname : (map Token.leaf identifier).Misses src i := hany _ (by simp [attempts])
  have hsymbol : (map Token.leaf specialSymbol).Misses src i := hany _ (by simp)
  replace hws := misses_of_misses_map hws
  replace hnumber := misses_of_misses_map hnumber
  replace hname := misses_of_misses_map hname
  replace hsymbol := misses_of_misses_map hsymbol
  have hstart : ¬isNameStart c = true := by
    intro hs
    obtain ⟨j, l, hfinds⟩ := exists_finds_identifier hc hs
    exact hfinds.not_misses hname
  rw [isNameStart, Bool.or_eq_true, not_or] at hstart
  refine ⟨?_, ?_, ?_, ?_, ?_⟩
  · rw [← Bool.not_eq_true]
    intro hw
    obtain ⟨j, l, hfinds⟩ := exists_finds_run .whiteSpace hc hw
    exact hfinds.not_misses hws
  · simpa using hstart.1
  · simpa using hstart.2
  · rw [← Bool.not_eq_true]
    intro hd
    obtain ⟨j, n, hfinds⟩ := exists_finds_number hc hd
    exact hfinds.not_misses hnumber
  · exact fun hs => not_misses_specialSymbol hc hs hsymbol

end Lexer

end Reckon
