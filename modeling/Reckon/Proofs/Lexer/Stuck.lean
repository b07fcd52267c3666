import Reckon.Proofs.Lexer.Foreign
import Reckon.Proofs.Lexer.Munch

/-! Where a lexer comes to its end. Whatever is begun and not finished, a comment, a string literal
or a number, its first character is a special symbol of its own or a number of its own, so something
is found there all the same. And nothing that is tried begins with a foreign character. So the only
thing that stops a lexer before the end of the text is a foreign character where it stands. -/

namespace Reckon

instance : DecidablePred IsForeign := fun c =>
  decidable_of_iff (isWhiteSpace c = false ∧ isAlphabetic c = false ∧ c ≠ '_' ∧
    isDecimalDigit c = false ∧ c ∉ Grammar.singleSymbols)
    ⟨fun ⟨hw, hl, hu, hd, hs⟩ => ⟨hw, hl, hu, hd, hs⟩,
      fun ⟨hw, hl, hu, hd, hs⟩ => ⟨hw, hl, hu, hd, hs⟩⟩

namespace IsForeign

open Grammar

variable {c : Char}

/-- A foreign character is none of those that some of the special symbols begin with. -/
theorem contains_eq_false (h : IsForeign c) {symbols : List Char} (hs : symbols ⊆ singleSymbols) :
    symbols.contains c = false := by
  rw [← Bool.not_eq_true, List.contains_iff_mem]
  exact fun hc => h.symbol (hs hc)

theorem isNameStart_eq_false (h : IsForeign c) : isNameStart c = false := by
  rw [isNameStart, h.letter, Bool.false_or]
  exact beq_eq_false_iff_ne.mpr h.underscore

theorem beginsNumber_eq_false (h : IsForeign c) : beginsNumber c = false := by
  rw [beginsNumber, startsNumber, h.digit, h.contains_eq_false (by decide),
    h.contains_eq_false (by decide)]
  rfl

end IsForeign

namespace Grammar

open Matcher

/-- Special symbols of two characters begin with a special symbol of one. -/
theorem beginsWith_specialSymbol : specialSymbol.BeginsWith singleSymbols.contains := by
  intro src i hi h
  rcases specialSymbol_longest hi with ⟨hmiss, -⟩ | ⟨cs, hcs, j, hcarries, -, -⟩
  · exact hmiss
  have hheads : ∀ cs ∈ symbolSpellings, cs.head?.any singleSymbols.contains = true := by decide
  obtain ⟨c, hhead, hc⟩ := (Option.any_eq_true _ _).mp (hheads cs hcs)
  obtain ⟨rest, rfl⟩ := List.head?_eq_some_iff.mp hhead
  rw [h c hcarries.charAt_eq] at hc
  cases hc

end Grammar

namespace Lexer

open Matcher Grammar

variable {src : Source} {i k : Nat} {tokens : List Token} {lx : Lexer}

/-- Nothing that is tried begins with a foreign character. -/
theorem absent_of_isForeign {c : Char} (hc : src.charAt i = some c) (h : IsForeign c) :
    anyToken src (src.place i) = .absent := by
  have hcarries := Source.carries_singleton hc
  have hi := hcarries.start_le
  have hbegins : ∀ b ∈ beginnings, b.1 c = false := by
    simp only [beginnings, List.forall_mem_cons]
    exact ⟨h.whiteSpace, h.beginsNumber_eq_false, h.isNameStart_eq_false,
      h.contains_eq_false (by decide), h.contains_eq_false (by decide), List.forall_mem_nil _⟩
  have hattempts : ∀ p ∈ attempts, p.Misses src i := by
    intro p hp
    obtain ⟨b, hb, rfl⟩ : ∃ b ∈ beginnings, b.2 = p := List.mem_map.mp hp
    exact beginsWith_of_mem b hb src i hi (hcarries.forall_charAt (hbegins b hb))
  have hsymbol : specialSymbol.Misses src i :=
    beginsWith_specialSymbol src i hi (hcarries.forall_charAt (h.contains_eq_false fun _ => id))
  rw [anyToken_eq_firstOf]
  exact misses_firstOf (List.forall_mem_append.mpr
    ⟨hattempts, List.forall_mem_singleton.mpr (hsymbol.map Token.leaf)⟩)

/-- No token is found exactly where the text ends or a foreign character stands. -/
theorem anyToken_eq_absent_iff (hi : i ≤ src.length) :
    anyToken src (src.place i) = .absent ↔ ∀ c ∈ src.charAt i, IsForeign c := by
  constructor
  · intro habsent c hc
    exact isForeign_of_absent habsent hc
  · intro hforeign
    cases hc : src.charAt i with
    | none =>
      obtain rfl : i = src.length := Nat.le_antisymm hi (Source.charAt_eq_none_iff.mp hc)
      exact anyToken_length src
    | some c => exact absent_of_isForeign hc (hforeign c hc)

/-- A lexer that was started at offset `k` and has given out `tokens`; if it was stopped then where
the text ends or before a foreign character. -/
structure IsUnderWay (src : Source) (k : Nat) (tokens : List Token) (lx : Lexer) : Prop extends
    HasRead src k tokens lx where
  stopped : lx.stopped = true → ∀ c ∈ lx.currentChar, IsForeign c

namespace IsUnderWay

theorem start (hk : k ≤ src.length) : IsUnderWay src k [] (startingAt src (src.place k)) where
  toHasRead := hasRead_start hk
  stopped := nofun

/-- A call finds a token unless the text ends or a foreign character stands there. -/
theorem next (h : IsUnderWay src k tokens lx) :
    ∃ answer lx', lx.next = (.ok answer, lx') ∧ IsUnderWay src k (tokens ++ answer.toList) lx' ∧
      (answer = none ↔ ∀ c ∈ lx.currentChar, IsForeign c) ∧
      (answer = none → lx'.position = lx.position) := by
  obtain ⟨hread, hstopped⟩ := h
  by_cases hend : lx.stopped ∨ lx.isExhausted
  · have hforeign : ∀ c ∈ lx.currentChar, IsForeign c := by
      rcases hend with hstop | hex
      · exact hstopped hstop
      · simp [currentChar_eq_none_iff.mpr hex]
    refine ⟨none, lx, next_of_ended hend, ?_, iff_of_true rfl hforeign, fun _ => rfl⟩
    rw [Option.toList_none, List.append_nil]
    exact ⟨hread, hstopped⟩
  have hi := hread.tiles.le_length
  have hfound := anyToken_cases hi
  have habsent := anyToken_eq_absent_iff hi
  rw [← hread.position, ← hread.source] at hfound habsent
  rcases hread.next with ⟨t, lx', hnext, hread', -⟩ | ⟨lx', hnext, hread', ⟨hpos, -⟩, -⟩
  · have ht := anyToken_of_next hnext
    rcases hfound with hno | ⟨u, j, hu, hs⟩
    · rw [hno] at ht
      cases ht
    have hsome := Option.some_ne_none t
    refine ⟨some t, lx', hnext, ⟨hread', fun hstop => ?_⟩, iff_of_false hsome ?_,
      fun hno => absurd hno hsome⟩
    · obtain ⟨-, rfl⟩ := Prod.mk.inj (hnext.symm.trans (next_of_found hend hu hs))
      exact absurd (.inl hstop) hend
    · rw [currentChar, ← habsent, ht]
      intro hno
      cases hno
  · have hforeign : ∀ c ∈ lx.currentChar, IsForeign c := by
      rcases hfound with hno | ⟨u, j, hu, hs⟩
      · exact habsent.mp hno
      · cases hnext.symm.trans (next_of_found hend hu hs)
    refine ⟨none, lx', hnext, ?_, iff_of_true rfl hforeign, fun _ => hpos⟩
    rw [Option.toList_none, List.append_nil]
    refine ⟨hread', fun _ => ?_⟩
    rwa [currentChar, hread'.source, hpos, ← hread.source]

/-- However often it is called, a lexer stays on such a way. -/
theorem nexts (h : IsUnderWay src k tokens lx) (n : Nat) :
    ∃ answers lx' more, lx.nexts n = (.ok answers, lx') ∧ IsUnderWay src k more lx' := by
  induction n generalizing tokens lx with
  | zero => exact ⟨[], lx, tokens, rfl, h⟩
  | succ n ih =>
    obtain ⟨answer, lx', hnext, hway, -⟩ := h.next
    obtain ⟨answers, final, more, hcalls, hway'⟩ := ih hway
    refine ⟨answer :: answers, final, more, ?_, hway'⟩
    rw [Lexer.nexts, hnext]
    simp only [hcalls]

end IsUnderWay

/-- All tokens from an offset on, and the text they stand on: it reaches to the end or to a foreign
character. -/
theorem exists_remaining_of_le (hk : k ≤ src.length) :
    ∃ tokens lx, (startingAt src (src.place k)).remaining = (.ok tokens, lx) ∧
      HasRead src k tokens lx ∧ ∀ c ∈ lx.currentChar, IsForeign c := by
  have hfuel := Nat.lt_succ_self (src.length - (src.place k).offset)
  obtain ⟨tokens, lx, htokens, hread, -⟩ := (hasRead_start hk).nextTokens hfuel
  refine ⟨tokens, lx, htokens, hread, ?_⟩
  -- The run from here on tells what is not found where it ends.
  obtain ⟨j, ts, hrun⟩ := exists_run hk
  have hj := hrun.tiles.le_length
  have hlen : j - k < src.length - (src.place k).offset + 1 := by
    rw [Source.offset_place hk]
    omega
  have hstart : (startingAt src (src.place k)).source = src := rfl
  obtain ⟨lx', hts, hsrc, hpos⟩ := nextTokens_of_run hrun hstart rfl rfl hlen
  obtain ⟨-, rfl⟩ := Prod.mk.inj (hts.symm.trans htokens)
  rw [currentChar, hsrc, hpos, Source.offset_place hj]
  exact (anyToken_eq_absent_iff hj).mp hrun.stuck

/-- From every position of a text on, a lexer gives out a token at each call until the text ends or
it stands before a foreign character, and there it stays. A text without foreign characters is read
to its end, whatever is begun in it and not finished. -/
theorem stops_iff_isForeign (src : Source) (k : Nat) (hk : k ≤ src.length) :
    ∃ here, src.positionOf k = .ok here ∧
      (∀ n, ∃ answers lx, (startingAt src here).nexts n = (.ok answers, lx) ∧
        ∃ answer lx', lx.next = (.ok answer, lx') ∧
          (answer = none ↔ ∀ c ∈ lx.currentChar, IsForeign c) ∧
          (answer = none → lx'.position = lx.position)) ∧
      ∃ tokens lx, (startingAt src here).remaining = (.ok tokens, lx) ∧ TilesFrom src k tokens lx ∧
        (lx.isExhausted = true ∨ ∃ c, lx.currentChar = some c ∧ IsForeign c) ∧
        ((∀ c ∈ src.rest k, ¬IsForeign c) → lx.position.offset = src.length) := by
  refine ⟨src.place k, Source.positionOf_eq_place hk, fun n => ?_, ?_⟩
  · obtain ⟨answers, lx, more, hcalls, hway⟩ := (IsUnderWay.start hk).nexts n
    obtain ⟨answer, lx', hnext, -, hiff, hstays⟩ := hway.next
    exact ⟨answers, lx, hcalls, answer, lx', hnext, hiff, hstays⟩
  · obtain ⟨tokens, lx, htokens, hread, hforeign⟩ := exists_remaining_of_le hk
    refine ⟨tokens, lx, htokens, hread.tilesFrom, ?_, fun hnone => ?_⟩
    · cases hc : lx.currentChar with
      | none => exact .inl (currentChar_eq_none_iff.mp hc)
      | some c => exact .inr ⟨c, rfl, hforeign c hc⟩
    · cases hc : lx.currentChar with
      | none =>
        rw [currentChar, hread.source, Source.charAt_eq_none_iff] at hc
        exact Nat.le_antisymm hread.tiles.le_length hc
      | some c =>
        have hmem : c ∈ src.rest k := by
          have hk' := hread.tiles.le
          rw [currentChar, hread.source, ← Nat.add_sub_of_le hk', Source.charAt_eq_getElem?,
            ← List.getElem?_drop] at hc
          exact List.mem_of_getElem? hc
        exact absurd (hforeign c hc) (hnone c hmem)

/-- A comment, a string literal, a base and a scale that are begun and not finished, read from the
second character on. -/
theorem stops_iff_isForeign_unfinished :
    ∃ src here tokens lx,
      src = Source.mk #['!', '{', '\'', '$', '.', '1', 'e', '-'] (by decide) ∧
      src.positionOf 1 = .ok here ∧ (startingAt src here).remaining = (.ok tokens, lx) ∧
      TilesFrom src 1 tokens lx ∧ lx.position.offset = 8 := by
  have hown : ((Source.mk #['!', '{', '\'', '$', '.', '1', 'e', '-'] (by decide)).rest 1).all
      (fun c => !decide (IsForeign c)) = true := by decide +kernel
  obtain ⟨here, hhere, -, tokens, lx, hremaining, htiles, -, hwhole⟩ := stops_iff_isForeign
    (Source.mk #['!', '{', '\'', '$', '.', '1', 'e', '-'] (by decide)) 1 (by decide)
  refine ⟨_, here, tokens, lx, rfl, hhere, hremaining, htiles, hwhole fun c hc => ?_⟩
  simpa using List.all_eq_true.mp hown c hc

end Lexer

end Reckon
