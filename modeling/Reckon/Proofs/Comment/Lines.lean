import Reckon.Proofs.Comment.Extent
import Reckon.Proofs.Token.Tiles

/-! The lines that a comment goes over. What a comment lends to the comments inside it is its own
closing sequence and no other. Inside a line comment that sequence is the newline, so a comment in
brackets that stands there fails where it meets one. But it meets no newline that is part of a
further comment inside it, and to such a comment it lends its own bracket. A line comment therefore
stays on its line unless a comment two levels further in goes over the end of it. -/

namespace Reckon

namespace Comment

/-- The text of the comment has no newline before its last character. -/
def StaysOnLine (src : Source) (c : Comment) : Prop :=
  ∃ text, src.textOf (Spanned.span c) = .ok text ∧ '\n' ∉ text.toList.dropLast

/-- The text of the comment has a newline. -/
def HoldsNewline (src : Source) (c : Comment) : Prop :=
  ∃ text, src.textOf (Spanned.span c) = .ok text ∧ '\n' ∈ text.toList

variable {src : Source} {i j : Nat} {c : Comment}

theorem holdsNewline_iff (h : Stands src i j c) :
    c.HoldsNewline src ↔ ∃ k, i ≤ k ∧ k < j ∧ src.charAt k = some '\n' := by
  simp only [HoldsNewline, h.textOf, Except.ok.injEq, exists_eq_left', String.toList_ofList,
    Source.mem_between_iff]

theorem staysOnLine_iff (h : Stands src i j c) :
    c.StaysOnLine src ↔ ∀ k, i ≤ k → k + 1 < j → src.charAt k ≠ some '\n' := by
  have hlt := h.lt
  have hle := h.le
  have hdrop : (src.between i j).dropLast = src.between i (j - 1) := by
    rw [List.dropLast_eq_take, Source.length_between hle, Source.between, List.take_take,
      Source.between]
    congr 1
    omega
  simp only [StaysOnLine, h.textOf, Except.ok.injEq, exists_eq_left', String.toList_ofList, hdrop,
    Source.mem_between_iff, not_exists, not_and]
  constructor
  · intro hno k hik hkj
    exact hno k hik (by omega)
  · intro hno k hik hkj
    exact hno k hik (by omega)

end Comment

namespace Grammar

/-- From offset `i` through offset `last` the comment is read, inside a comment of form `around`. -/
structure ReadAt (src : Source) (around : Option CommentKind) (i last : Nat) (c : Comment) :
    Prop where
  opener : openerAt src i = some c.kind
  body : Body src c.kind (src.place i) around (i + c.kind.opener.length) c.nested last
  first : c.first = src.place i
  last : c.last = src.place last

variable {src : Source} {kind : CommentKind} {here : Position} {around : Option CommentKind}
  {i o last : Nat} {nested : List Comment} {c : Comment}

theorem moveTo_place {j : Nat} (hij : i ≤ j) (hj : j ≤ src.length) :
    moveTo src (src.place i) j = .ok (src.place j) := by
  rw [moveTo, Source.advance_place hij hj]

/-- A comment between brackets ends with a character that is yet to be read. -/
theorem Body.le_last (h : Body src kind here around i nested last) (hpos : 0 < i)
    (hi : i ≤ src.length) (hkind : kind ≠ .line) : i ≤ last := by
  induction h with
  | beforeOpener _ _ => exact absurd rfl hkind
  | @nest kind inner here start stop around i last final nested others ho _ _ hbody _ _ _ ihr =>
    have hop := inner.opener_length_pos
    have hbounds := hbody.bounds (by omega) (le_length_of_openerAt ho)
    have hfinal := ihr (by omega) (by omega) hkind
    omega
  | beforeCloser _ _ _ => exact absurd rfl hkind
  | endOfLine _ _ _ => exact absurd rfl hkind
  | @closed kind _ _ _ _ _ _ =>
    have hcl := kind.closer_length_pos
    omega
  | skip hlt _ _ _ _ ih =>
    have hnext := ih (by omega) (by omega) hkind
    omega
  | endOfText _ => exact absurd rfl hkind

/-- A line comment inside another comment holds no comments. -/
theorem Body.nested_eq_nil (h : Body src kind here around i nested last) (hkind : kind = .line)
    (ha : around.isSome = true) : nested = [] := by
  induction h with
  | nest _ hline _ _ _ _ _ _ => exact absurd ⟨hkind, ha⟩ hline
  | skip _ _ _ _ _ ih => exact ih hkind ha
  | _ => rfl

/-- The comments found inside a comment are read in what is left of it. Between brackets the last
character is not one of theirs. -/
theorem Body.readAt (h : Body src kind here around i nested last) (hhere : here = src.place o)
    (ho : o < i) (hi : i ≤ src.length) :
    ∀ c ∈ nested, ∃ j final, ReadAt src (some kind) j final c ∧ i ≤ j ∧ final ≤ last ∧
      (kind ≠ .line → final < last) := by
  induction h with
  | @nest kind inner here start stop around i last final nested others hop _ hstart hbody hstop
      hrest _ ihr =>
    have hin := le_length_of_openerAt hop
    have hlen := inner.opener_length_pos
    have hbounds := hbody.bounds (by omega) hin
    have hfinal := hrest.bounds (by omega) (by omega)
    rw [hhere, moveTo_place (by omega) hi] at hstart
    cases hstart
    rw [moveTo_place (by omega) (by omega)] at hstop
    cases hstop
    intro c hc
    rcases List.mem_cons.mp hc with rfl | hc
    · refine ⟨i, last, ⟨hop, hbody, rfl, rfl⟩, Nat.le_refl i, by omega, fun hkind => ?_⟩
      have hnext := hrest.le_last (by omega) (by omega) hkind
      omega
    · obtain ⟨j, final', hread, hij, hle, hlt⟩ := ihr hhere (by omega) (by omega) c hc
      exact ⟨j, final', hread, by omega, hle, hlt⟩
  | skip hlt _ _ _ _ ih =>
    intro c hc
    obtain ⟨j, final, hread, hij, hle, hlast⟩ := ih hhere (by omega) (by omega) c hc
    exact ⟨j, final, hread, by omega, hle, hlast⟩
  | _ => nofun

/-- A newline that is read belongs to a comment found inside, or it may stand in the comment itself:
that comment does not stand in a line comment, and if it is one it ends there. -/
theorem Body.newline (h : Body src kind here around i nested last) (hhere : here = src.place o)
    (ho : o < i) (hi : i ≤ src.length) {k : Nat} (hik : i ≤ k) (hk : k ≤ last)
    (hc : src.charAt k = some '\n') :
    (∃ c ∈ nested, c.first.offset ≤ k ∧ k ≤ c.last.offset) ∨
      (around ≠ some .line ∧ (kind = .line → k = last)) := by
  have hnewline : src.startsWithAt k CommentKind.line.closer = true := by
    simp [CommentKind.closer, Source.startsWithAt, hc]
  induction h with
  | beforeOpener _ _ => omega
  | @nest kind inner here start stop around i last final nested others hop _ hstart hbody hstop
      hrest _ ihr =>
    have hin := le_length_of_openerAt hop
    have hlen := inner.opener_length_pos
    have hbounds := hbody.bounds (by omega) hin
    by_cases hkl : k ≤ last
    · rw [hhere, moveTo_place (by omega) hi] at hstart
      cases hstart
      rw [moveTo_place (by omega) (by omega)] at hstop
      cases hstop
      refine .inl ⟨_, List.mem_cons_self, ?_, ?_⟩
      · simpa only [Comment.first, Source.offset_place hi] using hik
      · simpa only [Comment.last, Source.offset_place (Nat.le_of_lt hbounds.2)] using hkl
    · rcases ihr hhere (by omega) (by omega) (by omega) hk with ⟨c, hmem, hcovers⟩ | hown
      · exact .inl ⟨c, List.mem_cons_of_mem _ hmem, hcovers⟩
      · exact .inr hown
  | beforeCloser _ _ _ => omega
  | @endOfLine here around i _ hout _ =>
    obtain rfl : i = k := by omega
    refine .inr ⟨?_, fun _ => rfl⟩
    rintro rfl
    rw [closedFromOutside, Option.any_some, hnewline] at hout
    cases hout
  | @closed kind here around i _ hkind hcl =>
    have hmem := Source.mem_of_startsWithAt hcl hik (by omega) hc
    cases kind with
    | line => exact absurd rfl hkind
    | round => exact absurd hmem (by decide)
    | curly => exact absurd hmem (by decide)
  | @skip kind here around i final nested hlt _ hcl hout _ ih =>
    by_cases hik' : i = k
    · subst hik'
      refine .inr ⟨?_, ?_⟩
      · rintro rfl
        rw [closedFromOutside, Option.any_some, hnewline] at hout
        cases hout
      · rintro rfl
        rw [hnewline] at hcl
        cases hcl
    · exact ih hhere (by omega) (by omega) (by omega) hk
  | endOfText hle =>
    rw [Source.charAt_eq_none_iff.mpr (by omega)] at hc
    cases hc

namespace ReadAt

theorem bounds (h : ReadAt src around i last c) :
    i + c.kind.opener.length ≤ last + 1 ∧ last < src.length := by
  have hlen := c.kind.opener_length_pos
  exact h.body.bounds (by omega) (le_length_of_openerAt h.opener)

theorem stands (h : ReadAt src around i last c) : Stands src i (last + 1) c := by
  have hlen := c.kind.opener_length_pos
  have hbounds := h.bounds
  exact ⟨by omega, hbounds.2, h.first, h.last⟩

/-- A comment found inside another one is read inside it. -/
theorem of_mem_nested (h : ReadAt src around i last c) {d : Comment} (hd : d ∈ c.nested) :
    ∃ j final, ReadAt src (some c.kind) j final d ∧ i < j ∧ final ≤ last ∧
      (c.kind ≠ .line → final < last) := by
  have hlen := c.kind.opener_length_pos
  obtain ⟨j, final, hread, hij, hle, hlt⟩ :=
    h.body.readAt rfl (by omega) (le_length_of_openerAt h.opener) d hd
  exact ⟨j, final, hread, by omega, hle, hlt⟩

theorem newline (h : ReadAt src around i last c) {k : Nat} (hik : i ≤ k) (hk : k ≤ last)
    (hc : src.charAt k = some '\n') :
    (∃ d ∈ c.nested, d.first.offset ≤ k ∧ k ≤ d.last.offset) ∨
      (around ≠ some .line ∧ (c.kind = .line → k = last)) := by
  have hlen := c.kind.opener_length_pos
  by_cases hopener : k < i + c.kind.opener.length
  · have hmem := Source.mem_of_startsWithAt (startsWithAt_of_openerAt h.opener) hik hopener hc
    cases hkind : c.kind <;> rw [hkind] at hmem <;> exact absurd hmem (by decide)
  · exact h.body.newline rfl (by omega) (le_length_of_openerAt h.opener) (by omega) hk hc

end ReadAt

theorem readAt_of_comment (hi : i ≤ src.length) (h : comment src (src.place i) = .found c) :
    ∃ last, ReadAt src none i last c := by
  obtain ⟨kind, nested, last, ho, hbody, rfl⟩ := exists_body_of_comment hi h
  exact ⟨last, ho, hbody, rfl, rfl⟩

end Grammar

/-- A line comment stays on its line if and only if no comment inside a comment inside it holds a
newline. -/
theorem Comment.staysOnLine_iff_nested {src : Source} {i : Nat} {here : Position} {c : Comment}
    (hhere : src.positionOf i = .ok here) (hfound : Grammar.comment src here = .found c)
    (hline : c.kind = .line) :
    c.StaysOnLine src ↔
      ∀ outer ∈ c.nested, ∀ inner ∈ outer.nested, ¬inner.HoldsNewline src := by
  obtain ⟨hi, rfl⟩ := Source.eq_place_of_positionOf hhere
  obtain ⟨last, hread⟩ := Grammar.readAt_of_comment hi hfound
  rw [staysOnLine_iff hread.stands]
  constructor
  · intro hstays outer houter inner hinner hnewline
    obtain ⟨io, lo, hro, hio, hlo, -⟩ := hread.of_mem_nested houter
    obtain ⟨ii, li, hri, hii, hli, hlt⟩ := hro.of_mem_nested hinner
    obtain ⟨k, hik, hk, hc⟩ := (holdsNewline_iff hri.stands).mp hnewline
    have hbracket : outer.kind ≠ .line := by
      intro hkind
      rw [hro.body.nested_eq_nil hkind rfl] at hinner
      cases hinner
    have hinside := hlt hbracket
    exact hstays k (by omega) (by omega) hc
  · intro hnested k hik hk hc
    rcases hread.newline hik (by omega) hc with ⟨outer, houter, hfirst, hlast⟩ | ⟨-, hend⟩
    · obtain ⟨io, lo, hro, -, -, -⟩ := hread.of_mem_nested houter
      have hbo := hro.bounds
      rw [hro.first, Source.offset_place (by omega)] at hfirst
      rw [hro.last, Source.offset_place (by omega)] at hlast
      rcases hro.newline hfirst hlast hc with ⟨inner, hinner, hfirst, hlast⟩ | ⟨hno, -⟩
      · obtain ⟨ii, li, hri, -, -, -⟩ := hro.of_mem_nested hinner
        have hbi := hri.bounds
        rw [hri.first, Source.offset_place (by omega)] at hfirst
        rw [hri.last, Source.offset_place (by omega)] at hlast
        exact hnested outer houter inner hinner
          ((holdsNewline_iff hri.stands).mpr ⟨k, hfirst, by omega, hc⟩)
      · rw [hline] at hno
        exact hno rfl
    · have hkl := hend hline
      omega

/-- A comment in brackets inside another one inside a line comment, all on one line. -/
theorem Comment.staysOnLine_brackets :
    (Source.mk #['/', '/', '{', '{', 'a', '}', '}', '\n', 'b'] (by decide)).positionOf 0 =
        .ok .origin ∧
      ∃ c, Grammar.comment (Source.mk #['/', '/', '{', '{', 'a', '}', '}', '\n', 'b'] (by decide))
          .origin = .found c ∧ c.kind = .line ∧
        c.StaysOnLine (Source.mk #['/', '/', '{', '{', 'a', '}', '}', '\n', 'b'] (by decide)) := by
  refine ⟨rfl, _, rfl, rfl, (staysOnLine_iff_nested (i := 0) rfl rfl rfl).mpr ?_⟩
  intro outer houter inner hinner
  obtain rfl := List.mem_singleton.mp houter
  obtain rfl := List.mem_singleton.mp hinner
  rintro ⟨text, htext, hmem⟩
  obtain rfl := Except.ok.inj htext
  revert hmem
  decide

/-- The same with a newline in the innermost comment: the line comment goes on to the next line. -/
theorem Comment.not_staysOnLine_brackets :
    (Source.mk #['/', '/', '{', '{', '\n', '}', '}'] (by decide)).positionOf 0 = .ok .origin ∧
      ∃ c, Grammar.comment (Source.mk #['/', '/', '{', '{', '\n', '}', '}'] (by decide)) .origin =
          .found c ∧ c.kind = .line ∧
        ¬c.StaysOnLine (Source.mk #['/', '/', '{', '{', '\n', '}', '}'] (by decide)) := by
  refine ⟨rfl, _, rfl, rfl, ?_⟩
  rintro ⟨text, htext, hmem⟩
  obtain rfl := Except.ok.inj htext
  revert hmem
  decide

end Reckon
