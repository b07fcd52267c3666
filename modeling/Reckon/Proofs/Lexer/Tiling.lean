import Reckon.Proofs.Grammar.Faithful
import Reckon.Proofs.Lexer.Kinds

/-! What a lexer gives out, call after call. The tokens tile the text from where the lexer was
started to where it stands, and the leaves of each token tile the token. Every call that finds a
token brings the lexer nearer to the end of the text; after the first call that finds none, nothing
changes any more. No call is aborted. -/

namespace Reckon

/-- The leaves of the token, unless it is a comment, tile the text the token stands on. -/
def Token.IsTiled (src : Source) (t : Token) : Prop :=
  (∀ c, t ≠ .comment c) → Tiles src (Leaf.IsCopy src) (Spanned.first t).offset
    ((Spanned.last t).offset + 1) t.leaves

namespace Lexer

open Matcher Grammar

/-- A token that takes its place and its leaves from what a faithful matcher finds. -/
theorem holds_map {α : Type} [Spanned α] [Leafed α] [Solid α] {p : Matcher α} (hp : p.Faithful)
    (f : α → Token) (hfirst : ∀ x, Spanned.first (f x) = Spanned.first x)
    (hlast : ∀ x, Spanned.last (f x) = Spanned.last x)
    (hleaves : ∀ x, (f x).leaves = Leafed.leaves x) {src : Source} {i : Nat} (hi : i ≤ src.length) :
    (map f p src (src.place i)).Holds fun t => ∃ j, Stands src i j t ∧ t.IsTiled src := by
  apply (hp src i hi).bind
  rintro x ⟨j, hx⟩
  have hs := hx.stands (hx.lt_of_ne_nil (Solid.leaves_ne_nil x))
  obtain ⟨hlt, hle, hf, hl⟩ := hs
  refine ⟨j, ⟨hlt, hle, (hfirst x).trans hf, (hlast x).trans hl⟩, fun _ => ?_⟩
  rw [hfirst, hlast, hleaves, hf, hl, Source.offset_place hi, Source.offset_place (by omega),
    show j - 1 + 1 = j by omega]
  exact hx

theorem holds_anyToken {src : Source} {i : Nat} (hi : i ≤ src.length) :
    (anyToken src (src.place i)).Holds fun t => ∃ j, Stands src i j t ∧ t.IsTiled src := by
  have hcomment : (map Token.comment comment src (src.place i)).Holds fun t =>
      ∃ j, Stands src i j t ∧ t.IsTiled src := by
    apply (holds_comment hi).bind
    rintro c ⟨j, hlt, hle, hfirst, hlast⟩
    exact ⟨j, ⟨hlt, hle, hfirst, hlast⟩, fun hne => absurd rfl (hne c)⟩
  apply holds_firstOf
  intro p hp
  simp only [List.mem_cons, List.not_mem_nil, or_false] at hp
  rcases hp with rfl | rfl
  · exact holds_map faithful_whiteSpace _ (fun _ => rfl) (fun _ => rfl) (fun _ => rfl) hi
  apply holds_firstOf
  intro p hp
  simp only [List.mem_cons, List.not_mem_nil, or_false] at hp
  rcases hp with rfl | rfl | rfl | rfl | rfl
  · exact holds_map faithful_number _ (fun _ => rfl) (fun _ => rfl) (fun _ => rfl) hi
  · exact holds_map faithful_identifier _ (fun _ => rfl) (fun _ => rfl) (fun _ => rfl) hi
  · exact hcomment
  · exact holds_map faithful_stringLiteral _ (fun _ => rfl) (fun _ => rfl) (fun _ => rfl) hi
  · exact holds_map faithful_specialSymbol _ (fun _ => rfl) (fun _ => rfl) (fun _ => rfl) hi

/-- A lexer that was started at offset `k` and has given out `tokens`. -/
structure HasRead (src : Source) (k : Nat) (tokens : List Token) (lx : Lexer) : Prop where
  source : lx.source = src
  tiles : Tiles src (Token.IsTiled src) k lx.position.offset tokens
  position : lx.position = src.place lx.position.offset
  counts : lx.counts = ⟨tokens.length, tokens.countP Token.isWhiteSpace, lx.position.offset - k⟩

theorem hasRead_start {src : Source} {k : Nat} (hk : k ≤ src.length) :
    HasRead src k [] (startingAt src (src.place k)) where
  source := rfl
  tiles := by
    simp only [startingAt, Source.offset_place hk]
    exact .nil hk
  position := by simp only [startingAt, Source.offset_place hk]
  counts := by
    simp only [startingAt, Source.offset_place hk, Nat.sub_self]
    rfl

/-- A lexer that was stopped or has reached the end gives out nothing and stays as it is. -/
theorem next_of_ended {lx : Lexer} (h : lx.stopped ∨ lx.isExhausted) :
    lx.next = (.ok none, lx) := by
  rw [next, if_pos h]

theorem next_of_absent {lx : Lexer} (hgoing : ¬(lx.stopped ∨ lx.isExhausted))
    (ht : anyToken lx.source lx.position = .absent) :
    lx.next = (.ok none, { lx with stopped := true }) := by
  rw [next_eq_anyToken hgoing, ht]

/-- A token that stands somewhere in the text is given out and moved past. -/
theorem next_of_found {lx : Lexer} {i j : Nat} {t : Token} (hgoing : ¬(lx.stopped ∨ lx.isExhausted))
    (ht : anyToken lx.source lx.position = .found t) (hs : Stands lx.source i j t) :
    lx.next =
      (.ok (some t), { lx with
        position := lx.source.place j
        counts := ⟨lx.counts.tokens + 1, lx.counts.whiteSpace + [t].countP Token.isWhiteSpace,
          lx.counts.chars + (j - i)⟩ }) := by
  have hresume := hs.resume_eq rfl
  have hlen := hs.length_span
  rw [next_eq_anyToken hgoing, ht]
  simp only [take, noting, hresume, hlen]

/-- A call moves past a token that stands where the lexer stands, or stops the lexer for good. -/
theorem HasRead.next {src : Source} {k : Nat} {tokens : List Token} {lx : Lexer}
    (h : HasRead src k tokens lx) :
    (∃ t lx', lx.next = (.ok (some t), lx') ∧ HasRead src k (tokens ++ [t]) lx' ∧
      lx.position.offset < lx'.position.offset) ∨
    (∃ lx', lx.next = (.ok none, lx') ∧ HasRead src k tokens lx' ∧
      (lx'.position = lx.position ∧ lx'.counts = lx.counts) ∧
      (lx'.stopped ∨ lx'.isExhausted)) := by
  obtain ⟨hsrc, htiles, hpos, hcounts⟩ := h
  by_cases hend : lx.stopped ∨ lx.isExhausted
  · exact .inr ⟨lx, next_of_ended hend, ⟨hsrc, htiles, hpos, hcounts⟩, ⟨rfl, rfl⟩, hend⟩
  have hany := holds_anyToken htiles.le_length
  rw [← hpos, ← hsrc] at hany
  cases ht : anyToken lx.source lx.position with
  | fault cause =>
    rw [ht] at hany
    exact hany.elim
  | absent =>
    exact .inr ⟨_, next_of_absent hend ht, ⟨hsrc, htiles, hpos, hcounts⟩, ⟨rfl, rfl⟩, .inl rfl⟩
  | found t =>
    rw [ht] at hany
    obtain ⟨j, hs, htiled⟩ := hany
    have hlt := hs.lt
    have hle := hs.le
    have hk := htiles.le
    refine .inl ⟨t, _, next_of_found hend ht hs, ⟨hsrc, ?_, ?_, ?_⟩, ?_⟩
    · rw [hsrc] at hs htiled
      simp only [hsrc, Source.offset_place hs.le]
      exact htiles.append (.singleton hs htiled)
    · simp only [hsrc, Source.offset_place (hsrc ▸ hle)]
    · simp only [hcounts, Source.offset_place hle, List.length_append, List.countP_append,
        List.length_singleton, LexerCounts.mk.injEq, true_and]
      omega
    · simp only [Source.offset_place hle]
      exact hlt

/-- From any point of its run on, a lexer gives out all its other tokens, if they may be as many as
there are characters left. -/
theorem HasRead.nextTokens {src : Source} {k fuel : Nat} {tokens : List Token} {lx : Lexer}
    (h : HasRead src k tokens lx) (hf : src.length - lx.position.offset < fuel) :
    ∃ more lx', lx.nextTokens fuel = (.ok more, lx') ∧ HasRead src k (tokens ++ more) lx' ∧
      ∀ t ∈ more, t.IsOfKind := by
  induction fuel generalizing tokens lx with
  | zero => omega
  | succ fuel ih =>
    rw [Lexer.nextTokens]
    rcases h.next with ⟨t, lx', hnext, hread, hlt⟩ | ⟨lx', hnext, hread, -, -⟩
    · have hle := hread.tiles.le_length
      obtain ⟨more, final, hrest, hread', hkinds⟩ := ih hread (by omega)
      refine ⟨t :: more, final, ?_, ?_, ?_⟩
      · rw [hnext]
        simp only [hrest]
      · rw [List.append_cons]
        exact hread'
      · exact List.forall_mem_cons.mpr ⟨isOfKind_of_anyToken (anyToken_of_next hnext), hkinds⟩
    · refine ⟨[], lx', ?_, ?_, List.forall_mem_nil _⟩
      · rw [hnext]
      · rw [List.append_nil]
        exact hread

/-- The tokens of a text tile it up to where the lexer stops. -/
theorem exists_remaining (src : Source) :
    ∃ tokens lx, (start src).remaining = (.ok tokens, lx) ∧ HasRead src 0 tokens lx ∧
      ∀ t ∈ tokens, t.IsOfKind := by
  have hstart : HasRead src 0 [] (start src) := by
    have h := hasRead_start (Nat.zero_le src.length)
    rwa [Source.place_zero] at h
  have hfuel := Nat.lt_succ_self (src.length - (start src).position.offset)
  exact hstart.nextTokens hfuel

/-- What there is to say about the tokens that a lexer started at offset `k` has given out, and
about where it stands and what it has counted. -/
structure TilesFrom (src : Source) (k : Nat) (tokens : List Token) (lx : Lexer) : Prop where
  row : InARow src k tokens
  leaves : ∀ t ∈ tokens, (∀ c, t ≠ .comment c) → InARow src (Spanned.first t).offset t.leaves ∧
    t.leaves.getLast?.map Leaf.last = some (Spanned.last t)
  leafText : ∀ t ∈ tokens, ∀ l ∈ t.leaves, src.textOf (Spanned.span l) = .ok l.text
  text : ∃ texts, tokens.mapM (fun t => src.textOf (Spanned.span t)) = .ok texts ∧
    String.join texts = String.ofList (src.between k lx.position.offset)
  bounds : k ≤ lx.position.offset ∧ lx.position.offset ≤ src.length
  position : src.positionOf lx.position.offset = .ok lx.position
  counts : lx.counts = ⟨tokens.length, tokens.countP Token.isWhiteSpace, lx.position.offset - k⟩

theorem HasRead.tilesFrom {src : Source} {k : Nat} {tokens : List Token} {lx : Lexer}
    (h : HasRead src k tokens lx) : TilesFrom src k tokens lx := by
  obtain ⟨-, htiles, hpos, hcounts⟩ := h
  have htiled := htiles.forall_mem
  have hrow := htiles.inARow fun _ _ => rfl
  refine ⟨hrow, ?_, ?_, htiles.join_texts, ⟨htiles.le, htiles.le_length⟩, ?_, hcounts⟩
  · intro t ht hcomment
    have hleaves := htiled t ht hcomment
    refine ⟨hleaves.inARow fun _ _ => rfl, ?_⟩
    cases hl : t.leaves.getLast? with
    | none =>
      rw [List.getLast?_eq_none_iff.mp hl] at hleaves
      have hnil := hleaves.eq_of_nil
      have hle := (hrow.nonempty t ht).2
      omega
    | some l =>
      have hplace := hleaves.last_of_getLast? hl
      have hlast := hrow.last t ht
      have hin := hleaves.le_length
      rw [Source.positionOf_eq_place (by omega)] at hlast
      exact congrArg some (hplace.trans (Except.ok.inj hlast))
  · intro t ht l hl
    by_cases hcomment : ∀ c, t ≠ .comment c
    · exact (htiled t ht hcomment).forall_mem l hl
    · obtain ⟨c, rfl⟩ : ∃ c, t = .comment c := by simpa using hcomment
      cases hl
  · rw [hpos, Source.offset_place htiles.le_length]
    exact Source.positionOf_eq_place htiles.le_length

/-- The answers to `n` calls one after another, and the lexer after them. A fault ends the run. -/
def nexts : Nat → Lexer → Except Fault (List (Option Token)) × Lexer
  | 0, lx => (.ok [], lx)
  | n + 1, lx =>
    match lx.next with
    | (.error cause, lx) => (.error cause, lx)
    | (.ok answer, lx) =>
      match nexts n lx with
      | (.error cause, lx) => (.error cause, lx)
      | (.ok answers, lx) => (.ok (answer :: answers), lx)

theorem nexts_of_ended {lx : Lexer} (h : lx.stopped ∨ lx.isExhausted) (n : Nat) :
    lx.nexts n = (.ok (List.replicate n none), lx) := by
  induction n with
  | zero => rfl
  | succ n ih =>
    rw [nexts, next_of_ended h]
    simp only [ih]
    rfl

/-- From any point of its run on, a lexer gives out some more tokens, no more than there are
characters left, and after them nothing. -/
theorem HasRead.nexts {src : Source} {k : Nat} {tokens : List Token} {lx : Lexer}
    (h : HasRead src k tokens lx) :
    ∃ (more : List Token) (final : Lexer), more.length ≤ src.length - lx.position.offset ∧
      ∀ n, ∃ lx', lx.nexts n =
          (.ok ((more.take n).map some ++ List.replicate (n - more.length) none), lx') ∧
        HasRead src k (tokens ++ more.take n) lx' ∧
        (more.length ≤ n → lx'.position = final.position ∧ lx'.counts = final.counts) := by
  induction hm : src.length - lx.position.offset using Nat.strongRecOn generalizing tokens lx with
  | ind m ih =>
    rcases h.next with ⟨t, lx', hnext, hread, hlt⟩ | ⟨lx', hnext, hread, hsame, hend⟩
    · have hle := hread.tiles.le_length
      obtain ⟨more, final, hlen, hrun⟩ := ih _ (by omega) hread rfl
      refine ⟨t :: more, final, ?_, fun n => ?_⟩
      · rw [List.length_cons]
        omega
      cases n with
      | zero =>
        refine ⟨lx, ?_, ?_, ?_⟩
        · simp [Lexer.nexts]
        · rw [List.take_zero, List.append_nil]
          exact h
        · simp
      | succ n =>
        obtain ⟨lx'', hcalls, hread', hfinal⟩ := hrun n
        refine ⟨lx'', ?_, ?_, ?_⟩
        · rw [Lexer.nexts, hnext]
          simp only [hcalls, List.take_succ_cons, List.map_cons, List.cons_append, List.length_cons,
            Nat.add_sub_add_right]
        · rw [List.take_succ_cons, List.append_cons]
          exact hread'
        · rw [List.length_cons]
          exact fun hn => hfinal (by omega)
    · refine ⟨[], lx', Nat.zero_le _, fun n => ?_⟩
      cases n with
      | zero =>
        refine ⟨lx, rfl, ?_, fun _ => ⟨hsame.1.symm, hsame.2.symm⟩⟩
        rw [List.take_nil, List.append_nil]
        exact h
      | succ n =>
        refine ⟨lx', ?_, ?_, fun _ => ⟨rfl, rfl⟩⟩
        · rw [Lexer.nexts, hnext]
          simp only [nexts_of_ended hend n]
          rfl
        · rw [List.take_nil, List.append_nil]
          exact hread

/-- A lexer that is started at an offset of the text gives out tokens that tile the text, no more
than there are characters left, and after them nothing. However often it is called it is not
aborted, and once it gives out nothing it neither moves nor counts any more. -/
theorem nexts_tile (src : Source) (k : Nat) (hk : k ≤ src.length) :
    ∃ (here : Position) (tokens : List Token) (final : Lexer),
      src.positionOf k = .ok here ∧ tokens.length ≤ src.length - k ∧
      ∀ n, ∃ lx, (startingAt src here).nexts n =
          (.ok ((tokens.take n).map some ++ List.replicate (n - tokens.length) none), lx) ∧
        TilesFrom src k (tokens.take n) lx ∧
        (tokens.length ≤ n → lx.position = final.position ∧ lx.counts = final.counts) := by
  obtain ⟨tokens, final, hlen, hrun⟩ := (hasRead_start hk).nexts
  simp only [startingAt, Source.offset_place hk] at hlen
  refine ⟨src.place k, tokens, final, Source.positionOf_eq_place hk, hlen, fun n => ?_⟩
  obtain ⟨lx, hcalls, hread, hfinal⟩ := hrun n
  exact ⟨lx, hcalls, hread.tilesFrom, hfinal⟩

/-- The second line of a text, read from the newline before it on. -/
theorem nexts_tile_second_line :
    ∃ (here : Position) (tokens : List Token) (final : Lexer),
      (Source.mk #['a', '\n', '1'] (by decide)).positionOf 1 = .ok here ∧ tokens.length ≤ 2 ∧
      ∀ n, ∃ lx, (startingAt (Source.mk #['a', '\n', '1'] (by decide)) here).nexts n =
          (.ok ((tokens.take n).map some ++ List.replicate (n - tokens.length) none), lx) ∧
        TilesFrom (Source.mk #['a', '\n', '1'] (by decide)) 1 (tokens.take n) lx ∧
        (tokens.length ≤ n → lx.position = final.position ∧ lx.counts = final.counts) :=
  nexts_tile (Source.mk #['a', '\n', '1'] (by decide)) 1 (by decide)

end Lexer

end Reckon
