import Reckon.Proofs.Comment.Local
import Reckon.Proofs.Text.Cut

/-! Comments in a text that is cut off behind them. A comment that ends before the cut is read alike
in the beginning of the text that is left. All that ends it stands there as a whole: a line comment
inside another comment ends before a sequence that it does not take up, but the comment around it
goes on with that sequence and takes it up itself. -/

namespace Reckon.Grammar

variable {own src : Source} {i k : Nat}

theorem openerAt_of_le (h : own.Begins src) {kind : CommentKind} (ho : openerAt src i = some kind)
    (hi : i + kind.opener.length ≤ own.length) : openerAt own i = some kind :=
  openerAt_of_startsWithAt (h.startsWithAt_of_le (startsWithAt_of_openerAt ho) hi)

theorem openerAt_eq_none_of_begins (h : own.Begins src) (ho : openerAt src i = none) :
    openerAt own i = none := by
  cases hown : openerAt own i with
  | none => rfl
  | some kind =>
    have hsrc := openerAt_of_startsWithAt (h.startsWithAt (startsWithAt_of_openerAt hown))
    rw [ho] at hsrc
    cases hsrc

theorem closedFromOutside_eq_false_of_begins (h : own.Begins src) {around : Option CommentKind}
    (hc : closedFromOutside src around i = false) : closedFromOutside own around i = false := by
  cases around with
  | none => rfl
  | some outer => exact h.startsWithAt_eq_false hc

/-- Inside the text a move leads to the same place, whether the text is cut off or not. -/
theorem moveTo_of_begins (h : own.Begins src) (hki : k ≤ i) (hi : i ≤ own.length) :
    moveTo own (src.place k) i = moveTo src (src.place k) i := by
  rw [moveTo, moveTo, Source.advance_place hki (Nat.le_trans hi h.le_length),
    ← h.place_eq (Nat.le_trans hki hi), Source.advance_place hki hi, h.place_eq hi]

/-- Whatever stands at offset `i` and means something to a comment of the form, another comment that
begins or the end of it, stands before the cut. -/
structure Uncut (own src : Source) (i : Nat) (kind : CommentKind) : Prop where
  opener : ∀ inner, openerAt src i = some inner → openerAt own i = some inner
  closer : src.startsWithAt i kind.closer = true → own.startsWithAt i kind.closer = true

/-- What a comment goes on with stands before the cut if the comment ends there, and if it is a line
comment, what the comment around it goes on with. -/
theorem Body.uncut (h : own.Begins src) {kind : CommentKind} {here : Position}
    {around : Option CommentKind} {last : Nat} {nested : List Comment}
    (hb : Body src kind here around i nested last) (hpos : 0 < i) (hi : i ≤ src.length)
    (hlast : last < own.length)
    (hline : kind = .line → ∀ outer ∈ around, Uncut own src (last + 1) outer) :
    Uncut own src i kind := by
  have hopen : ∀ inner, openerAt src i = some inner → openerAt own i = some inner →
      Uncut own src i kind := by
    intro inner ho hown
    refine ⟨fun inner' ho' => ?_, fun hc => ?_⟩
    · rw [hown, ← ho, ho']
    · rw [openerAt_of_closer hc] at ho
      cases ho
  have hclose : openerAt src i = none →
      (src.startsWithAt i kind.closer = true → i + kind.closer.length ≤ own.length) →
      Uncut own src i kind := by
    intro ho hc
    refine ⟨fun inner ho' => ?_, fun hs => h.startsWithAt_of_le hs (hc hs)⟩
    rw [ho] at ho'
    cases ho'
  cases hb with
  | beforeOpener ho ha =>
    obtain ⟨outer, rfl⟩ := Option.isSome_iff_exists.mp ha
    have houter := hline rfl outer rfl
    rw [Nat.sub_add_cancel hpos] at houter
    exact hopen _ ho (houter.opener _ ho)
  | nest ho _ _ hbody _ hrest =>
    have hin := le_length_of_openerAt ho
    have hbody := hbody.bounds (by omega) hin
    have hrest := hrest.bounds (by omega) (by omega)
    exact hopen _ ho (openerAt_of_le h ho (by omega))
  | beforeCloser hlt ho hc =>
    refine hclose ho fun _ => ?_
    cases around with
    | none => cases hc
    | some outer =>
      have houter := hline rfl outer rfl
      rw [Nat.sub_add_cancel hpos] at houter
      exact lt_length_of_closer (houter.closer hc)
  | endOfLine ho _ _ => exact hclose ho fun _ => hlast
  | closed ho _ _ => exact hclose ho fun _ => by omega
  | skip _ ho hc _ _ =>
    refine hclose ho fun hs => ?_
    rw [hc] at hs
    cases hs
  | endOfText hend =>
    refine ⟨fun inner ho => ?_, fun hc => ?_⟩
    · have hlt := lt_length_of_openerAt ho
      omega
    · have hlt := lt_length_of_closer hc
      omega

/-- What ends before the cut is read alike in the beginning of the text. -/
theorem Body.cut (h : own.Begins src) {kind : CommentKind} {here : Position}
    {around : Option CommentKind} {last : Nat} {nested : List Comment}
    (hb : Body src kind here around i nested last) (hpos : 0 < i) (hi : i ≤ src.length)
    (hlast : last < own.length)
    (hline : kind = .line → ∀ outer ∈ around, Uncut own src (last + 1) outer)
    (hhere : here = src.place k) (hki : k ≤ i) : Body own kind here around i nested last := by
  have hle := h.le_length
  induction hb generalizing k with
  | @beforeOpener here around i inner ho ha =>
    obtain ⟨outer, rfl⟩ := Option.isSome_iff_exists.mp ha
    have houter := hline rfl outer rfl
    rw [Nat.sub_add_cancel hpos] at houter
    exact .beforeOpener (houter.opener _ ho) ha
  | @nest kind inner here start stop around i last final nested others ho hin hstart hbody hstop
      hrest ihb ihr =>
    subst hhere
    have hend := le_length_of_openerAt ho
    have hop := inner.opener_length_pos
    have hb := hbody.bounds (by omega) hend
    have hr := hrest.bounds (by omega) (by omega)
    -- What is nested ends before the comment around it goes on, which is before the cut.
    have huncut : Uncut own src (last + 1) kind :=
      hrest.uncut h (by omega) (by omega) hlast hline
    have hplace : moveTo src (src.place k) i = .ok (src.place i) := by
      rw [moveTo, Source.advance_place hki hi]
    obtain rfl := Except.ok.inj (hplace.symm.trans hstart)
    have hnested := ihb (by omega) hend (by omega) (fun _ outer houter => by
      obtain rfl := Option.some.inj houter
      exact huncut) rfl (by omega)
    have hothers := ihr (by omega) (by omega) hlast hline rfl (by omega)
    rw [← moveTo_of_begins h hki (by omega)] at hstart
    rw [← moveTo_of_begins h (by omega) (by omega)] at hstop
    exact .nest (openerAt_of_le h ho (by omega)) hin hstart hnested hstop hothers
  | @beforeCloser here around i hlt ho hc =>
    cases around with
    | none => cases hc
    | some outer =>
      have houter := hline rfl outer rfl
      rw [Nat.sub_add_cancel hpos] at houter
      have hown := houter.closer hc
      exact .beforeCloser (lt_length_of_closer hown) (openerAt_eq_none_of_begins h ho) hown
  | endOfLine ho hc hnl =>
    exact .endOfLine (openerAt_eq_none_of_begins h ho) (closedFromOutside_eq_false_of_begins h hc)
      (h.startsWithAt_of_le hnl hlast)
  | closed ho hkind hc =>
    exact .closed (openerAt_eq_none_of_begins h ho) hkind (h.startsWithAt_of_le hc (by omega))
  | skip hlt ho hc hout hrest ih =>
    have hr := hrest.bounds (by omega) hlt
    exact .skip (by omega) (openerAt_eq_none_of_begins h ho) (h.startsWithAt_eq_false hc)
      (closedFromOutside_eq_false_of_begins h hout)
      (ih (by omega) hlt hlast hline hhere (by omega))
  | endOfText hend =>
    -- The text ends before the cut, so there is nothing to cut off.
    have hlen : src.length = own.length := by omega
    rw [hlen] at hend ⊢
    exact .endOfText hend

/-- A comment that ends before the cut is found in the beginning of the text. -/
theorem comment_of_begins (h : own.Begins src) {j : Nat} {c : Comment}
    (hc : comment src (src.place i) = .found c) (hs : Stands src i j c) (hj : j ≤ own.length) :
    comment own (own.place i) = .found c := by
  have hlt := hs.lt
  have hle := hs.le
  obtain ⟨kind, nested, last, ho, hbody, rfl⟩ := exists_body_of_comment (by omega) hc
  have hpos := kind.opener_length_pos
  have hend := le_length_of_openerAt ho
  have hbounds := hbody.bounds (by omega) hend
  obtain rfl : j = last + 1 := hs.stop_eq ⟨by omega, hbounds.2, rfl, rfl⟩
  have hown := hbody.cut h (by omega) hend hj (fun _ => nofun) rfl (Nat.le_add_right _ _)
  rw [← h.place_eq (show i ≤ own.length by omega)] at hown ⊢
  rw [← h.place_eq (show last ≤ own.length by omega)]
  exact comment_of_body (by omega) (openerAt_of_le h ho (by omega)) hown

end Reckon.Grammar
