import Reckon.Grammar.Comment
import Reckon.Proofs.Text.Place

/-! How a comment is read to its end. `Body` tells, case by case, the ways in which reading on
inside a comment succeeds; everything about comments that are found is proved by induction on it.
The reading ends at a character of the text that does not lie before the place where it began, so
that each reading of what is left begins further on, and the positions it asks for lie in the text.
-/

namespace Reckon

namespace Source

theorem le_length_of_startsWithAt {src : Source} {i : Nat} {cs : List Char} (hcs : cs ≠ [])
    (h : src.startsWithAt i cs = true) : i + cs.length ≤ src.length := by
  have hlen := (startsWithAt_iff.mp h).length_le
  have hpos := List.length_pos_iff.mpr hcs
  rw [length_rest] at hlen
  omega

/-- Where the text has a sequence, each character is one of the sequence. -/
theorem mem_of_startsWithAt {src : Source} {i k : Nat} {cs : List Char} {c : Char}
    (h : src.startsWithAt i cs = true) (hik : i ≤ k) (hk : k < i + cs.length)
    (hc : src.charAt k = some c) : c ∈ cs := by
  obtain ⟨tail, htail⟩ := startsWithAt_iff.mp h
  rw [← between_of_rest htail.symm]
  exact mem_between_iff.mpr ⟨k, hik, hk, hc⟩

end Source

namespace CommentKind

theorem opener_ne_nil (kind : CommentKind) : kind.opener ≠ [] := by
  cases kind <;> decide

theorem closer_ne_nil (kind : CommentKind) : kind.closer ≠ [] := by
  cases kind <;> decide

theorem opener_length_pos (kind : CommentKind) : 0 < kind.opener.length :=
  List.length_pos_iff.mpr kind.opener_ne_nil

theorem closer_length_pos (kind : CommentKind) : 0 < kind.closer.length :=
  List.length_pos_iff.mpr kind.closer_ne_nil

end CommentKind

namespace Grammar

theorem startsWithAt_of_openerAt {src : Source} {i : Nat} {kind : CommentKind}
    (h : openerAt src i = some kind) : src.startsWithAt i kind.opener = true := by
  simpa using List.find?_some h

theorem le_length_of_openerAt {src : Source} {i : Nat} {kind : CommentKind}
    (h : openerAt src i = some kind) : i + kind.opener.length ≤ src.length :=
  Source.le_length_of_startsWithAt kind.opener_ne_nil (startsWithAt_of_openerAt h)

theorem lt_length_of_openerAt {src : Source} {i : Nat} {kind : CommentKind}
    (h : openerAt src i = some kind) : i < src.length := by
  have hin := le_length_of_openerAt h
  have hop := kind.opener_length_pos
  omega

theorem lt_length_of_closer {src : Source} {i : Nat} {kind : CommentKind}
    (h : src.startsWithAt i kind.closer = true) : i < src.length := by
  have hin := Source.le_length_of_startsWithAt kind.closer_ne_nil h
  have hcl := kind.closer_length_pos
  omega

/-- Inside the comment of form `kind` that begins at `here`, with a comment of form `around` around
it, reading on from an offset finds the nested comments and ends with the last offset. -/
inductive Body (src : Source) :
    CommentKind → Position → Option CommentKind → Nat → List Comment → Nat → Prop
  /-- A line comment inside another comment ends before whatever begins a comment. -/
  | beforeOpener {here : Position} {around : Option CommentKind} {i : Nat} {inner : CommentKind} :
    openerAt src i = some inner → around.isSome = true → Body src .line here around i [] (i - 1)
  /-- A comment is nested. -/
  | nest {kind inner : CommentKind} {here start stop : Position} {around : Option CommentKind}
      {i last final : Nat} {nested others : List Comment} :
    openerAt src i = some inner → ¬(kind = .line ∧ around.isSome = true) →
    moveTo src here i = .ok start →
    Body src inner start (some kind) (i + inner.opener.length) nested last →
    moveTo src start last = .ok stop → Body src kind here around (last + 1) others final →
    Body src kind here around i (.node inner nested start stop :: others) final
  /-- A line comment inside another comment ends before the closing sequence of that comment. -/
  | beforeCloser {here : Position} {around : Option CommentKind} {i : Nat} :
    i < src.length → openerAt src i = none → closedFromOutside src around i = true →
    Body src .line here around i [] (i - 1)
  /-- A line comment ends with its line. -/
  | endOfLine {here : Position} {around : Option CommentKind} {i : Nat} :
    openerAt src i = none → closedFromOutside src around i = false →
    src.startsWithAt i CommentKind.line.closer = true → Body src .line here around i [] i
  /-- A comment between brackets ends with its closing sequence. -/
  | closed {kind : CommentKind} {here : Position} {around : Option CommentKind} {i : Nat} :
    openerAt src i = none → kind ≠ .line → src.startsWithAt i kind.closer = true →
    Body src kind here around i [] (i + kind.closer.length - 1)
  /-- Any other character is part of the comment. -/
  | skip {kind : CommentKind} {here : Position} {around : Option CommentKind} {i final : Nat}
      {nested : List Comment} :
    i < src.length → openerAt src i = none → src.startsWithAt i kind.closer = false →
    closedFromOutside src around i = false → Body src kind here around (i + 1) nested final →
    Body src kind here around i nested final
  /-- A line comment ends with the text. -/
  | endOfText {here : Position} {around : Option CommentKind} {i : Nat} :
    src.length ≤ i → Body src .line here around i [] (src.length - 1)

private theorem exists_of_bind_eq_ok {ε α β : Type} {x : Except ε α} {f : α → Except ε β} {b : β}
    (h : x >>= f = .ok b) : ∃ a, x = .ok a ∧ f a = .ok b := by
  cases x with
  | error e => cases h
  | ok a => exact ⟨a, rfl, h⟩

theorem body_of_commentBody {src : Source} {fuel : Nat} {kind : CommentKind} {here : Position}
    {around : Option CommentKind} {i last : Nat} {nested : List Comment}
    (h : commentBody src fuel kind here around i = .ok (nested, last)) :
    Body src kind here around i nested last := by
  induction fuel generalizing kind here around i nested last with
  | zero => cases h
  | succ fuel ih =>
    rw [commentBody] at h
    split at h
    · rename_i hlt
      split at h
      · rename_i inner ho
        split at h
        · rename_i hline
          obtain ⟨rfl, ha⟩ := hline
          cases h
          exact .beforeOpener ho ha
        · rename_i hline
          obtain ⟨start, hstart, h⟩ := exists_of_bind_eq_ok h
          obtain ⟨⟨inside, last'⟩, hbody, h⟩ := exists_of_bind_eq_ok h
          obtain ⟨stop, hstop, h⟩ := exists_of_bind_eq_ok h
          obtain ⟨⟨others, final⟩, hrest, h⟩ := exists_of_bind_eq_ok h
          cases h
          exact .nest ho hline hstart (ih hbody) hstop (ih hrest)
      · rename_i ho
        split at h
        · rename_i hline
          subst hline
          split at h
          · rename_i hc
            cases h
            exact .beforeCloser hlt ho hc
          · rename_i hc
            rw [Bool.not_eq_true] at hc
            split at h
            · rename_i hnl
              cases h
              exact .endOfLine ho hc hnl
            · rename_i hnl
              rw [Bool.not_eq_true] at hnl
              exact .skip hlt ho hnl hc (ih h)
        · rename_i hline
          split at h
          · rename_i hc
            cases h
            exact .closed ho hline hc
          · rename_i hc
            rw [Bool.not_eq_true] at hc
            split at h
            · cases h
            · rename_i hout
              rw [Bool.not_eq_true] at hout
              exact .skip hlt ho hc hout (ih h)
    · rename_i hle
      split at h
      · rename_i hline
        subst hline
        cases h
        exact .endOfText (by omega)
      · cases h

/-- Reading on from an offset ends at a character of the text that is not before the one in front of
that offset. -/
theorem Body.bounds {src : Source} {kind : CommentKind} {here : Position}
    {around : Option CommentKind} {i last : Nat} {nested : List Comment}
    (h : Body src kind here around i nested last) (hpos : 0 < i) (hi : i ≤ src.length) :
    i ≤ last + 1 ∧ last < src.length := by
  induction h with
  | beforeOpener ho _ => omega
  | @nest kind inner here start stop around i last final nested others ho _ _ hbody _ hrest ihb
      ihr =>
    have hin := le_length_of_openerAt ho
    have hop := inner.opener_length_pos
    obtain ⟨h1, h2⟩ := ihb (by omega) hin
    obtain ⟨h3, h4⟩ := ihr (by omega) (by omega)
    omega
  | beforeCloser hlt _ _ => omega
  | endOfLine _ _ hnl =>
    have hlt := lt_length_of_closer hnl
    omega
  | @closed kind here around i _ _ hc =>
    have hin := Source.le_length_of_startsWithAt (CommentKind.closer_ne_nil _) hc
    have hcl := kind.closer_length_pos
    omega
  | skip hlt _ _ _ _ ih =>
    obtain ⟨h1, h2⟩ := ih (by omega) (by omega)
    omega
  | endOfText hle => omega

/-- As long as more readings are allowed than there are characters left, what succeeds is found. -/
theorem Body.commentBody_eq {src : Source} {kind : CommentKind} {here : Position}
    {around : Option CommentKind} {i last : Nat} {nested : List Comment}
    (h : Body src kind here around i nested last) (hpos : 0 < i) (hi : i ≤ src.length) {fuel : Nat}
    (hf : src.length - i < fuel) :
    commentBody src fuel kind here around i = .ok (nested, last) := by
  obtain ⟨m, rfl⟩ : ∃ m, fuel = m + 1 := ⟨fuel - 1, by omega⟩
  induction h generalizing m with
  | beforeOpener ho ha =>
    rw [commentBody, if_pos (lt_length_of_openerAt ho), ho]
    exact if_pos ⟨rfl, ha⟩
  | @nest kind inner here start stop around i last final nested others ho hline hstart hbody hstop
      hrest ihb ihr =>
    have hlt := lt_length_of_openerAt ho
    have hin := le_length_of_openerAt ho
    have hop := inner.opener_length_pos
    have hb := hbody.bounds (by omega) hin
    obtain ⟨m, rfl⟩ : ∃ n, m = n + 1 := ⟨m - 1, by omega⟩
    have hnested := ihb (by omega) hin m (by omega)
    have hothers := ihr (by omega) (by omega) m (by omega)
    rw [commentBody, if_pos hlt, ho]
    simp only [if_neg hline, hstart, hnested, hstop, hothers, bind, Except.bind, pure, Except.pure]
  | beforeCloser hlt ho hc =>
    rw [commentBody, if_pos hlt, ho]
    simp only [if_true, if_pos hc]
  | endOfLine ho hc hnl =>
    rw [commentBody, if_pos (lt_length_of_closer hnl), ho]
    simp only [if_true, hc, Bool.false_eq_true, if_false, if_pos hnl]
  | closed ho hline hc =>
    rw [commentBody, if_pos (lt_length_of_closer hc), ho]
    simp only [if_neg hline, if_pos hc]
  | @skip kind here around i final nested hlt ho hc hout hrest ih =>
    obtain ⟨m, rfl⟩ : ∃ n, m = n + 1 := ⟨m - 1, by omega⟩
    have hon := ih (by omega) (by omega) m (by omega)
    rw [commentBody, if_pos hlt, ho]
    simp only [hc, hout, Bool.false_eq_true, if_false, hon, ite_self]
  | endOfText hle =>
    rw [commentBody, if_neg (by omega)]
    exact if_pos rfl

theorem moveTo_of_staysInWords {src : Source} {p : Position} {j : Nat} (hp : p.StaysInWords src)
    (ho : p.offset ≤ j) (hj : j ≤ src.length) :
    ∃ q, moveTo src p j = .ok q ∧ q.offset = j ∧ q.StaysInWords src := by
  obtain ⟨q, hq, hoff, hfit⟩ := Source.advance_of_staysInWords hp ho hj
  refine ⟨q, ?_, hoff, hfit⟩
  rw [moveTo, hq]

/-- Where the numbers fit, no reading is aborted: it ends with a comment or without one. -/
theorem commentBody_ne_fault {src : Source} {fuel : Nat} {kind : CommentKind} {here : Position}
    {around : Option CommentKind} {i : Nat} (hp : here.StaysInWords src) (ho : here.offset < i)
    (hi : i ≤ src.length) (hf : src.length - i < fuel) (cause : Fault) :
    commentBody src fuel kind here around i ≠ .error (.fault cause) := by
  induction fuel generalizing kind here around i with
  | zero => omega
  | succ fuel ih =>
    rw [commentBody]
    split
    · rename_i hlt
      split
      · rename_i inner hop
        have hin := le_length_of_openerAt hop
        have hpos := inner.opener_length_pos
        split
        · nofun
        obtain ⟨start, hstart, hso, hsf⟩ :=
          moveTo_of_staysInWords hp (by omega) (by omega : i ≤ src.length)
        simp only [hstart, bind, Except.bind]
        cases hb : commentBody src fuel inner start (some kind) (i + inner.opener.length) with
        | error e =>
          intro h
          cases h
          exact ih hsf (by omega) hin (by omega) hb
        | ok found =>
          obtain ⟨nested, last⟩ := found
          have hbounds := (body_of_commentBody hb).bounds (by omega) hin
          obtain ⟨stop, hstop, -, -⟩ := moveTo_of_staysInWords hsf (j := last) (by omega) (by omega)
          simp only [hstop]
          cases hr : commentBody src fuel kind here around (last + 1) with
          | error e =>
            intro h
            cases h
            exact ih hp (by omega) (by omega) (by omega) hr
          | ok rest => nofun
      · split
        · split
          · nofun
          · split
            · nofun
            · exact ih hp (by omega) (by omega) (by omega)
        · split
          · nofun
          · split
            · nofun
            · exact ih hp (by omega) (by omega) (by omega)
    · split <;> nofun

/-- What is read to its end is found. -/
theorem comment_of_body {src : Source} {i last : Nat} {kind : CommentKind} {nested : List Comment}
    (hi : i ≤ src.length) (ho : openerAt src i = some kind)
    (h : Body src kind (src.place i) none (i + kind.opener.length) nested last) :
    comment src (src.place i) = .found (.node kind nested (src.place i) (src.place last)) := by
  have hin := le_length_of_openerAt ho
  have hpos := kind.opener_length_pos
  have hbounds := h.bounds (by omega) hin
  have hmove : moveTo src (src.place i) last = .ok (src.place last) := by
    rw [moveTo, Source.advance_place (by omega) (Nat.le_of_lt hbounds.2)]
  rw [comment, commentAt, commentWithin, Source.offset_place hi, ho]
  simp only [commentOfKind, Source.offset_place hi, h.commentBody_eq (by omega) hin
    (Nat.lt_succ_self _), bind, Except.bind, hmove]
  rfl

/-- There is no comment at an offset, or there is one that is read to its end. -/
theorem comment_cases {src : Source} {i : Nat} (hi : i ≤ src.length) :
    comment src (src.place i) = .absent ∨
    ∃ kind nested last, openerAt src i = some kind ∧
      Body src kind (src.place i) none (i + kind.opener.length) nested last ∧
      comment src (src.place i) = .found (.node kind nested (src.place i) (src.place last)) := by
  cases ho : openerAt src i with
  | none =>
    left
    rw [comment, commentAt, commentWithin, Source.offset_place hi, ho]
  | some kind =>
    have hin := le_length_of_openerAt ho
    have hpos := kind.opener_length_pos
    cases hb : commentBody src (src.length - (i + kind.opener.length) + 1) kind (src.place i) none
        (i + kind.opener.length) with
    | ok found =>
      have hbody := body_of_commentBody hb
      exact .inr ⟨kind, found.1, found.2, rfl, hbody, comment_of_body hi ho hbody⟩
    | error e =>
      left
      have hoff := Source.offset_place hi
      rw [comment, commentAt, commentWithin, hoff, ho]
      simp only [commentOfKind, hoff, hb, bind, Except.bind]
      cases e with
      | noOpener => rfl
      | cutShort kind here offset => rfl
      | notClosed kind here => rfl
      | fault cause =>
        have hfit := (Source.fitsIn_place hi).staysInWords
        exact absurd hb (commentBody_ne_fault hfit (by omega) hin (Nat.lt_succ_self _) cause)

/-- A comment that is found is read to its end. -/
theorem exists_body_of_comment {src : Source} {i : Nat} (hi : i ≤ src.length) {c : Comment}
    (h : comment src (src.place i) = .found c) :
    ∃ kind nested last, openerAt src i = some kind ∧
      Body src kind (src.place i) none (i + kind.opener.length) nested last ∧
      c = .node kind nested (src.place i) (src.place last) := by
  rcases comment_cases hi with habsent | ⟨kind, nested, last, ho, hbody, hfound⟩
  · rw [habsent] at h
    cases h
  · rw [hfound] at h
    cases h
    exact ⟨kind, nested, last, ho, hbody, rfl⟩

end Grammar

end Reckon
