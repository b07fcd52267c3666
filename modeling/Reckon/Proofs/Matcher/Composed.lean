import Reckon.Matcher.Pattern
import Reckon.Proofs.Grammar.Faithful
import Reckon.Proofs.Matcher.Exact

/-! Matchers composed from the matchers of leaves. As long as every merged token is made of its parts
they read the text exactly, by induction on how they are composed: at each position they end without
being aborted, and what they find begins there, ends before the place where reading goes on, and
holds the text in between. Patterns describe such matchers.

This asks something of options too. The token of an option is one more made of a part, and where the
part is a placeholder it is not merged from it, since an option that holds something is never empty.
A matcher with an option over what may be missing already moves on past a character it has not
read. -/

namespace Reckon

open Piece

namespace Matcher

/-- Matchers composed from those of leaves. All tokens are merged from those they are made of, that
of an option included. -/
inductive Composed : {α : Type} → [Spanned α] → [Worded α] → Matcher α → Prop
  | char (kind : LeafKind) (c : Char) : Composed (Matcher.char kind c)
  | symbol (kind : LeafKind) (s : Symbol) : Composed (Matcher.symbol kind s)
  | run (kind : LeafKind) (test : Char → Bool) : Composed (Matcher.run kind test)
  | automaton (kind : LeafKind) {a : Automaton} (h : a.InRange) :
    Composed (Matcher.automaton kind a)
  | firstOf {α : Type} [Spanned α] [Worded α] {ps : List (Matcher α)} (h : ∀ p ∈ ps, Composed p) :
    Composed (Matcher.firstOf ps)
  | map {α β : Type} [Spanned α] [Worded α] [Spanned β] [Worded β] {p : Matcher α} {f : α → β}
    (hp : Composed p) (hf : ∀ a, p.CanFind a → IsMerged (.of (f a)) [.of a]) :
    Composed (Matcher.map f p)
  | seq2 {α β γ : Type} [Spanned α] [Worded α] [Spanned β] [Worded β] [Spanned γ] [Worded γ]
    {p : Matcher α} {q : Matcher β} {f : α → β → γ} (hp : Composed p) (hq : Composed q)
    (hf : ∀ a b, p.CanFind a → q.CanFind b → IsMerged (.of (f a b)) [.of a, .of b]) :
    Composed (Matcher.seq2 f p q)
  | seq3 {α β γ δ : Type} [Spanned α] [Worded α] [Spanned β] [Worded β] [Spanned γ] [Worded γ]
    [Spanned δ] [Worded δ] {p : Matcher α} {q : Matcher β} {r : Matcher γ} {f : α → β → γ → δ}
    (hp : Composed p) (hq : Composed q) (hr : Composed r)
    (hf : ∀ a b c, p.CanFind a → q.CanFind b → r.CanFind c →
      IsMerged (.of (f a b c)) [.of a, .of b, .of c]) :
    Composed (Matcher.seq3 f p q r)
  | seq4 {α β γ δ ε : Type} [Spanned α] [Worded α] [Spanned β] [Worded β] [Spanned γ] [Worded γ]
    [Spanned δ] [Worded δ] [Spanned ε] [Worded ε] {p : Matcher α} {q : Matcher β} {r : Matcher γ}
    {s : Matcher δ} {f : α → β → γ → δ → ε} (hp : Composed p) (hq : Composed q) (hr : Composed r)
    (hs : Composed s)
    (hf : ∀ a b c d, p.CanFind a → q.CanFind b → r.CanFind c → s.CanFind d →
      IsMerged (.of (f a b c d)) [.of a, .of b, .of c, .of d]) :
    Composed (Matcher.seq4 f p q r s)
  | perhaps {α : Type} [Spanned α] [Worded α] {p : Matcher α} (hp : Composed p)
    (hf : ∀ a, p.CanFind a → IsMerged (.of (Perhaps.present a)) [.of a]) :
    Composed (Matcher.perhaps p)
  | map_perhaps {α β : Type} [Spanned α] [Worded α] [Spanned β] [Worded β] {p : Matcher α}
    {f : Perhaps α → β} (hp : Composed p)
    (hpresent : ∀ a, p.CanFind a → IsMerged (.of (f (.present a))) [.of a])
    (hmissing : ∀ here, IsMerged (.of (f (.missing here))) []) :
    Composed (Matcher.map f (Matcher.perhaps p))
  | many {α β : Type} [Spanned α] [Worded α] [Spanned β] [Worded β] {p : Matcher α}
    {f : α → List α → β} (hp : Composed p)
    (hf : ∀ a as, (∀ t ∈ a :: as, p.CanFind t) →
      IsMerged (.of (f a as)) ((a :: as).map Piece.of)) :
    Composed (Matcher.many f p)

theorem Composed.exact {α : Type} [Spanned α] [Worded α] {p : Matcher α} (h : Composed p) :
    p.Exact := by
  induction h with
  | char kind c => exact .of_faithful (faithful_char kind c)
  | symbol kind s => exact .of_faithful (faithful_symbol kind s)
  | run kind test => exact .of_faithful (faithful_run kind test)
  | automaton kind ha => exact .of_faithful (faithful_automaton kind ha)
  | firstOf _ ih => exact .firstOf ih
  | map _ hf ih => exact ih.map hf
  | seq2 _ _ hf ihp ihq => exact ihp.seq2 ihq hf
  | seq3 _ _ _ hf ihp ihq ihr => exact ihp.seq3 ihq ihr hf
  | seq4 _ _ _ _ hf ihp ihq ihr ihs => exact ihp.seq4 ihq ihr ihs hf
  | perhaps _ hf ih => exact ih.perhaps hf
  | map_perhaps _ hpresent hmissing ih => exact ih.map_perhaps hpresent hmissing
  | many _ hf ih => exact ih.many hf

end Matcher

namespace Pattern

open Matcher

/-- Patterns whose automata have tables without gaps, whose sequences have two, three or four parts,
and that do not judge what they find. -/
inductive Plain : Pattern → Prop
  | char (kind : LeafKind) (c : Char) : Plain (.char kind c)
  | symbol (kind : LeafKind) (s : Symbol) : Plain (.symbol kind s)
  | run (kind : LeafKind) (test : CharTest) : Plain (.run kind test)
  | automaton (kind : LeafKind) {a : Automaton} : a.InRange → Plain (.automaton kind a)
  | identifier : Plain .identifier
  | sign : Plain .sign
  | specialSymbol : Plain .specialSymbol
  | whiteSpace : Plain .whiteSpace
  | firstOf {ps : List Pattern} : (∀ p ∈ ps, Plain p) → Plain (.firstOf ps)
  | seq2 {p q : Pattern} : Plain p → Plain q → Plain (.sequence p [q])
  | seq3 {p q r : Pattern} : Plain p → Plain q → Plain r → Plain (.sequence p [q, r])
  | seq4 {p q r s : Pattern} :
    Plain p → Plain q → Plain r → Plain s → Plain (.sequence p [q, r, s])
  | perhaps {p : Pattern} : Plain p → Plain (.perhaps p)
  | many {p : Pattern} : Plain p → Plain (.many p)
  | join (kind : LeafKind) {p : Pattern} : Plain p → Plain (.join kind p)

theorem matchers_eq_map (ps : List Pattern) : matchers ps = ps.map matcher := by
  induction ps with
  | nil => rfl
  | cons p ps ih => rw [matchers, ih, List.map_cons]

theorem matcher_seq2 (p q : Pattern) :
    (sequence p [q]).matcher =
      Matcher.seq2 (fun a b => Node.group .sequence a [b]) p.matcher q.matcher := by
  funext src here
  simp only [matcher, matchers, chain, Matcher.seq2, bind_assoc, Attempt.pure_eq,
    Attempt.found_bind]

theorem matcher_seq3 (p q r : Pattern) :
    (sequence p [q, r]).matcher =
      Matcher.seq3 (fun a b c => Node.group .sequence a [b, c]) p.matcher q.matcher
        r.matcher := by
  funext src here
  simp only [matcher, matchers, chain, Matcher.seq3, bind_assoc, Attempt.pure_eq,
    Attempt.found_bind]

theorem matcher_seq4 (p q r s : Pattern) :
    (sequence p [q, r, s]).matcher =
      Matcher.seq4 (fun a b c d => Node.group .sequence a [b, c, d]) p.matcher q.matcher r.matcher
        s.matcher := by
  funext src here
  simp only [matcher, matchers, chain, Matcher.seq4, bind_assoc, Attempt.pure_eq,
    Attempt.found_bind]

theorem composed_leaf {p : Matcher Leaf} (hp : Composed p) : Composed (map Node.leaf p) :=
  hp.map fun l _ => Node.isMerged_leaf l

theorem composed_sign : Composed Grammar.sign := by
  apply Composed.firstOf
  simp only [List.forall_mem_cons]
  exact ⟨.char _ _, .char _ _, List.forall_mem_nil _⟩

theorem composed_specialSymbol : Composed Grammar.specialSymbol := by
  apply Composed.firstOf
  refine List.forall_mem_append.mpr ⟨?_, ?_⟩
  · exact List.forall_mem_map.mpr fun s _ => .symbol _ s
  · exact List.forall_mem_map.mpr fun c _ => .char _ c

/-- Plain patterns describe composed matchers. -/
theorem Plain.composed {p : Pattern} (h : p.Plain) : Composed p.matcher := by
  induction h with
  | char kind c => exact composed_leaf (.char kind c)
  | symbol kind s => exact composed_leaf (.symbol kind s)
  | run kind test => exact composed_leaf (.run kind test.accepts)
  | automaton kind ha => exact composed_leaf (.automaton kind ha)
  | identifier => exact composed_leaf (.automaton _ Grammar.inRange_identifierAutomaton)
  | sign => exact composed_leaf composed_sign
  | specialSymbol => exact composed_leaf composed_specialSymbol
  | whiteSpace => exact composed_leaf (.run _ _)
  | firstOf _ ih =>
    rw [matcher, matchers_eq_map]
    exact .firstOf (List.forall_mem_map.mpr ih)
  | seq2 _ _ ihp ihq =>
    rw [matcher_seq2]
    exact .seq2 ihp ihq fun a b _ _ => Node.isMerged_group _ a [b]
  | seq3 _ _ _ ihp ihq ihr =>
    rw [matcher_seq3]
    exact .seq3 ihp ihq ihr fun a b c _ _ _ => Node.isMerged_group _ a [b, c]
  | seq4 _ _ _ _ ihp ihq ihr ihs =>
    rw [matcher_seq4]
    exact .seq4 ihp ihq ihr ihs fun a b c d _ _ _ _ => Node.isMerged_group _ a [b, c, d]
  | perhaps _ ih =>
    exact .map_perhaps ih (fun n _ => .refl _) Node.isMerged_toNode_missing
  | many _ ih => exact .many ih fun n ns _ => Node.isMerged_group _ n ns
  | join kind _ ih => exact ih.map fun n _ => Node.isMerged_join kind n

end Pattern

namespace Matcher

/-- What there is to say about a matcher that is started at a position. -/
structure ReadsAt {α : Type} [Spanned α] [Worded α] (p : Matcher α) (src : Source)
    (here : Position) : Prop where
  /-- It ends, and nothing is aborted. -/
  ends : p src here = .absent ∨ ∃ t, p src here = .found t
  /-- A placeholder holds no text, and reading goes on at the same place. -/
  empty : ∀ t, p src here = .found t → Spanned.isEmpty t = true →
    resume src here t = .ok here ∧ String.join (Worded.texts t) = ""
  /-- Any other token begins where the matcher was started and holds the text from there up to
  where reading goes on, which is right after its last character. -/
  token : ∀ t, p src here = .found t → Spanned.isEmpty t = false →
    Spanned.first t = here ∧ here.offset ≤ (Spanned.last t).offset ∧
      (Spanned.last t).offset < src.length ∧
      src.positionOf (Spanned.last t).offset = .ok (Spanned.last t) ∧
      ∃ next, resume src here t = .ok next ∧
        src.positionOf ((Spanned.last t).offset + 1) = .ok next ∧
        String.join (Worded.texts t) = String.ofList (src.between here.offset next.offset)
  /-- A repetition of it ends: each of its tokens takes up text. -/
  repeated : ∃ ts, collect p src (src.length + 1) here = .ok ts ∧
    (∀ t ∈ ts, Spanned.isEmpty t = false) ∧ ts.length ≤ src.length - here.offset

/-- Every composed matcher reads the text exactly, at every position of every text. -/
theorem Composed.readsAt {α : Type} [Spanned α] [Worded α] {p : Matcher α} (hp : Composed p)
    (src : Source) (i : Nat) (here : Position) (h : src.positionOf i = .ok here) :
    p.ReadsAt src here := by
  obtain ⟨hi, rfl⟩ := Source.eq_place_of_positionOf h
  have hholds := hp.exact src i hi
  have hturn : ∀ t, p src (src.place i) = .found t → ∃ j, InTurn src i j [.of t] := by
    intro t ht
    rwa [ht] at hholds
  refine ⟨?_, ?_, ?_, ?_⟩
  · cases hx : p src (src.place i) with
    | found t => exact .inr ⟨t, rfl⟩
    | absent => exact .inl rfl
    | fault cause =>
      rw [hx] at hholds
      exact hholds.elim
  · intro t ht he
    obtain ⟨j, hj⟩ := hturn t ht
    obtain rfl := hj.eq_of_isEmpty he
    have htexts := hj.join_texts
    rw [Source.between_self] at htexts
    exact ⟨if_pos he, htexts⟩
  · intro t ht hne
    obtain ⟨j, hj⟩ := hturn t ht
    have hs := hj.stands hne
    have hlt := hs.lt
    have hle := hs.le
    rw [hs.last, Source.offset_place hi, Source.offset_place (by omega),
      show j - 1 + 1 = j by omega]
    refine ⟨hs.first, by omega, by omega, Source.positionOf_eq_place (by omega), src.place j,
      hj.resume_eq, Source.positionOf_eq_place hle, ?_⟩
    rw [Source.offset_place hle]
    exact hj.join_texts
  · have hfuel : src.length - i < src.length + 1 := by omega
    obtain ⟨ts, j, hts, -, hall, hlen⟩ := hp.exact.collect hi hfuel
    rw [Source.offset_place hi]
    exact ⟨ts, hts, fun t ht => (hall t ht).2, hlen⟩

/-- Two options, over and over, on the second line: the first of them is missing at first. -/
theorem Composed.readsAt_options :
    ∃ t next,
      (Pattern.many (.sequence (.perhaps (.char .identifier 'a'))
          [.perhaps (.char .identifier 'b')])).matcher
        (Source.mk #['\n', 'b', 'a', 'b', '\n'] (by decide)) ⟨1, 0, 1⟩ = .found t ∧
      resume (Source.mk #['\n', 'b', 'a', 'b', '\n'] (by decide)) ⟨1, 0, 1⟩ t = .ok next ∧
      next = ⟨1, 3, 4⟩ ∧ String.join (Worded.texts t) = "bab" := by
  have hplain : (Pattern.many (.sequence (.perhaps (.char .identifier 'a'))
      [.perhaps (.char .identifier 'b')])).Plain :=
    .many (.seq2 (.perhaps (.char _ _)) (.perhaps (.char _ _)))
  obtain ⟨t, hfound, hne, hlast⟩ : ∃ t,
      (Pattern.many (.sequence (.perhaps (.char .identifier 'a'))
          [.perhaps (.char .identifier 'b')])).matcher
        (Source.mk #['\n', 'b', 'a', 'b', '\n'] (by decide)) ⟨1, 0, 1⟩ = .found t ∧
      Spanned.isEmpty t = false ∧ Spanned.last t = ⟨1, 2, 3⟩ := ⟨_, rfl, rfl, rfl⟩
  have hreads := Composed.readsAt hplain.composed
    (Source.mk #['\n', 'b', 'a', 'b', '\n'] (by decide)) 1 ⟨1, 0, 1⟩ rfl
  obtain ⟨-, -, -, -, next, hresume, hposition, htexts⟩ := hreads.token t hfound hne
  rw [hlast] at hposition
  obtain rfl : ⟨1, 3, 4⟩ = next := Except.ok.inj hposition
  exact ⟨t, _, hfound, hresume, rfl, htexts⟩

/-- An option over an option reads on past a character that it does not hold, and aborts a
repetition where no character is left. -/
theorem Composed.not_readsAt_perhaps :
    Composed (Matcher.perhaps (Matcher.char .specialSymbol 'a')) ∧
      (Source.mk #['b'] (by decide)).positionOf 0 = .ok .origin ∧
      (∃ t, Matcher.perhaps (Matcher.perhaps (Matcher.char .specialSymbol 'a'))
            (Source.mk #['b'] (by decide)) .origin = .found t ∧
          Spanned.isEmpty t = false ∧
          resume (Source.mk #['b'] (by decide)) .origin t = .ok ⟨0, 1, 1⟩ ∧
          String.join (Worded.texts t) = "") ∧
      ¬(Matcher.perhaps (Matcher.perhaps (Matcher.char .specialSymbol 'a'))).ReadsAt
        (Source.mk #['b'] (by decide)) .origin ∧
      ∀ {β : Type} (f : Perhaps (Perhaps Leaf) → List (Perhaps (Perhaps Leaf)) → β),
        Matcher.many f (Matcher.perhaps (Matcher.perhaps (Matcher.char .specialSymbol 'a')))
          .empty .origin = .fault (.beyondText 0 1 0) := by
  have hinner : Composed (Matcher.perhaps (Matcher.char .specialSymbol 'a')) :=
    .perhaps (.char _ _) fun _ _ => isMerged_present_iff.mpr rfl
  refine ⟨hinner, rfl, ⟨_, rfl, rfl, rfl, rfl⟩, fun hreads => ?_, fun f => rfl⟩
  -- What is found counts as text, so it would have to hold the `b` that reading goes on after.
  obtain ⟨-, -, -, -, next, hresume, -, htexts⟩ := hreads.token _ rfl rfl
  obtain rfl : ⟨0, 1, 1⟩ = next := Except.ok.inj hresume
  revert htexts
  decide

end Matcher

end Reckon
