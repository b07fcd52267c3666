import Reckon.Proofs.Comment.Extent
import Reckon.Proofs.Token.Tiles

/-! Comments wherever they stand. A text that is a comment between brackets as a whole is a comment
of the same extent in every text that contains it: the reading looks at no character behind the
closing sequence. A line comment has no such place of its own, since it may end with the text. -/

namespace Reckon

/-- The text `src` stands in the text `src'` from offset `o` on. -/
structure Source.Inside (src src' : Source) (o : Nat) : Prop where
  le : o + src.length ≤ src'.length
  charAt_eq : ∀ i < src.length, src'.charAt (o + i) = src.charAt i

theorem Source.charAt_eq_head? {src : Source} {i : Nat} {cs : List Char} (hne : cs ≠ [])
    (h : src.startsWithAt i cs = true) : src.charAt i = cs.head? := by
  obtain ⟨c, rest, rfl⟩ := List.exists_cons_of_ne_nil hne
  rw [Source.startsWithAt, Bool.and_eq_true, beq_iff_eq] at h
  exact h.1

theorem Source.inside_of_carries {src src' : Source} {o j : Nat}
    (h : src'.Carries o j src.chars.toList) : src.Inside src' o ∧ j = o + src.length := by
  have hlen := h.length_eq
  have hsize : src.chars.toList.length = src.length := Array.length_toList
  have hle := h.le_length
  refine ⟨⟨by omega, fun i hi => ?_⟩, by omega⟩
  have hdrop : src'.chars.toList[o + i]? = (src'.rest o)[i]? := by rw [rest, List.getElem?_drop]
  rw [charAt_eq_getElem?, charAt_eq_getElem?, hdrop, h.rest_eq,
    List.getElem?_append_left (by omega)]

namespace Source.Inside

variable {src src' : Source} {o i : Nat} {cs : List Char}

theorem startsWithAt_eq (h : src.Inside src' o) (hi : i + cs.length ≤ src.length) :
    src'.startsWithAt (o + i) cs = src.startsWithAt i cs := by
  induction cs generalizing i with
  | nil => rfl
  | cons c cs ih =>
    rw [List.length_cons] at hi
    have htail := ih (i := i + 1) (by omega)
    rw [startsWithAt, startsWithAt, h.charAt_eq i (by omega), ← htail, Nat.add_assoc]

end Source.Inside

theorem CommentKind.length_opener_le (kind : CommentKind) : kind.opener.length ≤ 2 := by
  cases kind <;> decide

theorem CommentKind.length_closer_le (kind : CommentKind) : kind.closer.length ≤ 2 := by
  cases kind <;> decide

namespace Grammar

variable {src src' : Source} {o i : Nat}

/-- The opening sequences begin with different characters. -/
theorem openerAt_of_startsWithAt {kind : CommentKind}
    (h : src.startsWithAt i kind.opener = true) : openerAt src i = some kind := by
  have hhead := Source.charAt_eq_head? kind.opener_ne_nil h
  cases ho : openerAt src i with
  | none =>
    rw [openerAt, List.find?_eq_none] at ho
    exact absurd h (ho kind (by cases kind <;> decide))
  | some other =>
    have hother := Source.charAt_eq_head? other.opener_ne_nil (startsWithAt_of_openerAt ho)
    rw [hhead] at hother
    revert hother
    cases kind <;> cases other <;> decide

/-- No comment begins where a comment may end. -/
theorem openerAt_of_closer {kind : CommentKind} (h : src.startsWithAt i kind.closer = true) :
    openerAt src i = none := by
  have hhead := Source.charAt_eq_head? kind.closer_ne_nil h
  cases ho : openerAt src i with
  | none => rfl
  | some other =>
    have hother := Source.charAt_eq_head? other.opener_ne_nil (startsWithAt_of_openerAt ho)
    rw [hhead] at hother
    revert hother
    cases kind <;> cases other <;> decide

/-- Whether a comment begins is told by two characters. -/
theorem openerAt_inside (hin : src.Inside src' o) (hi : i + 1 < src.length) :
    openerAt src' (o + i) = openerAt src i := by
  have hsame : ∀ kind : CommentKind,
      src'.startsWithAt (o + i) kind.opener = src.startsWithAt i kind.opener := by
    intro kind
    have hlen := kind.length_opener_le
    exact hin.startsWithAt_eq (by omega)
  rw [openerAt, openerAt]
  congr
  funext kind
  exact hsame kind

theorem closer_inside (hin : src.Inside src' o) (hi : i + 1 < src.length) (kind : CommentKind) :
    src'.startsWithAt (o + i) kind.closer = src.startsWithAt i kind.closer := by
  have hlen := kind.length_closer_le
  exact hin.startsWithAt_eq (by omega)

theorem closedFromOutside_inside (hin : src.Inside src' o) (hi : i + 1 < src.length)
    (around : Option CommentKind) :
    closedFromOutside src' around (o + i) = closedFromOutside src around i := by
  cases around with
  | none => rfl
  | some kind => exact closer_inside hin hi kind

/-- What begins or ends a comment inside the text does so in every text around it. -/
theorem startsWithAt_inside {cs : List Char} (hin : src.Inside src' o) (hne : cs ≠ [])
    (h : src.startsWithAt i cs = true) : src'.startsWithAt (o + i) cs = true := by
  rw [hin.startsWithAt_eq (Source.le_length_of_startsWithAt hne h)]
  exact h

/-- Between brackets there is more to read until the closing sequence. -/
theorem Body.lt_length {kind : CommentKind} {here : Position} {around : Option CommentKind}
    {last : Nat} {nested : List Comment} (h : Body src kind here around i nested last)
    (hkind : kind ≠ .line) : i < src.length := by
  cases h with
  | beforeOpener ho _ => exact lt_length_of_openerAt ho
  | nest ho _ _ _ _ _ => exact lt_length_of_openerAt ho
  | beforeCloser hlt _ _ => exact hlt
  | endOfLine _ _ hnl => exact lt_length_of_closer hnl
  | closed _ _ hc => exact lt_length_of_closer hc
  | skip hlt _ _ _ _ => exact hlt
  | endOfText _ => exact absurd rfl hkind

/-- So there is in a line comment that ends before the text does. -/
theorem Body.lt_length_of_last {kind : CommentKind} {here : Position} {around : Option CommentKind}
    {last : Nat} {nested : List Comment} (h : Body src kind here around i nested last)
    (hpos : 0 < i) (hi : i ≤ src.length) (hline : kind = .line → last + 1 < src.length) :
    i < src.length := by
  by_cases hkind : kind = .line
  · have hlast := hline hkind
    have hbounds := h.bounds hpos hi
    omega
  · exact h.lt_length hkind

/-- The reading of a comment that ends inside a text goes on alike in every text around it. A line
comment must end before the text does. -/
theorem Body.inside (hin : src.Inside src' o) {kind : CommentKind} {here : Position}
    {around : Option CommentKind} {last : Nat} {nested : List Comment}
    (h : Body src kind here around i nested last) (hpos : 0 < i) (hi : i ≤ src.length)
    (hline : kind = .line → last + 1 < src.length) {here' : Position} (hfit : here'.StaysInWords src')
    (ho : here'.offset ≤ o + i) :
    ∃ nested', Body src' kind here' around (o + i) nested' (o + last) := by
  have hle := hin.le
  induction h generalizing here' with
  | @beforeOpener here around i inner hop hsome =>
    have hopener := startsWithAt_inside hin inner.opener_ne_nil (startsWithAt_of_openerAt hop)
    refine ⟨[], ?_⟩
    rw [show o + (i - 1) = o + i - 1 by omega]
    exact .beforeOpener (openerAt_of_startsWithAt hopener) hsome
  | @nest kind inner here start stop around i last final nested others hop hnest hstart hbody hstop
      hrest ihb ihr =>
    have hopener := startsWithAt_inside hin inner.opener_ne_nil (startsWithAt_of_openerAt hop)
    have hlen := le_length_of_openerAt hop
    have hop1 := inner.opener_length_pos
    have hbounds := hbody.bounds (by omega) hlen
    -- A nested line comment is followed by the rest of the comment around it, so it ends before the
    -- text does.
    have hinner := hrest.lt_length_of_last (by omega) (by omega) hline
    obtain ⟨start', hstart', hso, hsf⟩ := moveTo_of_staysInWords hfit ho (by omega)
    obtain ⟨nested', hnested'⟩ := ihb (by omega) hlen (fun _ => hinner) hsf (by omega)
    obtain ⟨stop', hstop', -, -⟩ := moveTo_of_staysInWords hsf (show start'.offset ≤ o + last by omega)
      (by omega)
    obtain ⟨others', hothers'⟩ := ihr (by omega) (by omega) hline hfit (by omega)
    rw [← Nat.add_assoc] at hnested' hothers'
    exact ⟨_, .nest (openerAt_of_startsWithAt hopener) hnest hstart' hnested' hstop' hothers'⟩
  | @beforeCloser here around i hlt hop hc =>
    obtain ⟨outer, rfl, hcloser⟩ : ∃ outer, around = some outer ∧
        src.startsWithAt i outer.closer = true := by
      cases around with
      | none => cases hc
      | some outer => exact ⟨outer, rfl, hc⟩
    have hcloser' := startsWithAt_inside hin outer.closer_ne_nil hcloser
    refine ⟨[], ?_⟩
    rw [show o + (i - 1) = o + i - 1 by omega]
    exact .beforeCloser (by omega) (openerAt_of_closer hcloser') hcloser'
  | @endOfLine here around i hop hc hnl =>
    have hlt := hline rfl
    have hnl' := startsWithAt_inside hin CommentKind.line.closer_ne_nil hnl
    refine ⟨[], .endOfLine (openerAt_of_closer hnl') ?_ hnl'⟩
    rw [closedFromOutside_inside hin hlt]
    exact hc
  | @closed kind here around i hop hkind hc =>
    have hc' := startsWithAt_inside hin kind.closer_ne_nil hc
    have hlen := kind.closer_length_pos
    refine ⟨[], ?_⟩
    rw [show o + (i + kind.closer.length - 1) = o + i + kind.closer.length - 1 by omega]
    exact .closed (openerAt_of_closer hc') hkind hc'
  | @skip kind here around i final nested hlt hop hc hout hrest ih =>
    have hnext := hrest.lt_length_of_last (by omega) hlt hline
    obtain ⟨nested', hrest'⟩ := ih (by omega) (by omega) hline hfit (by omega)
    refine ⟨nested', .skip (by omega) ?_ ?_ ?_ hrest'⟩
    · rw [openerAt_inside hin hnext]
      exact hop
    · rw [closer_inside hin hnext]
      exact hc
    · rw [closedFromOutside_inside hin hnext]
      exact hout
  | @endOfText here around i hend =>
    have hlt := hline rfl
    omega

/-- A comment between brackets that makes up a whole text is found wherever the text stands. -/
theorem comment_inside (hin : src.Inside src' o) {c : Comment}
    (hc : comment src .origin = .found c) (hkind : c.kind ≠ .line)
    (hlen : c.last.offset + 1 = src.length) :
    ∃ c', comment src' (src'.place o) = .found c' ∧ Stands src' o (o + src.length) c' := by
  rw [← src.place_zero] at hc
  obtain ⟨kind, nested, last, ho, hbody, rfl⟩ := exists_body_of_comment (Nat.zero_le _) hc
  rw [Nat.zero_add] at hbody
  have hle := hin.le
  have hopen := kind.opener_length_pos
  have hend := le_length_of_openerAt ho
  have hbounds := hbody.bounds hopen (by omega)
  have hlast : last + 1 = src.length := by
    have hoff := src.offset_place (Nat.le_of_lt hbounds.2)
    change (src.place last).offset + 1 = src.length at hlen
    omega
  have hopener := startsWithAt_inside hin kind.opener_ne_nil (startsWithAt_of_openerAt ho)
  have hfit := (src'.fitsIn_place (i := o) (by omega)).staysInWords
  have hoff := src'.offset_place (i := o) (by omega)
  obtain ⟨nested', hbody'⟩ := hbody.inside hin hopen (by omega) (fun h => absurd h hkind) hfit
    (by omega)
  refine ⟨_, comment_of_body (by omega) (openerAt_of_startsWithAt hopener) hbody', ?_⟩
  refine ⟨by omega, hle, rfl, ?_⟩
  change src'.place (o + last) = src'.place (o + src.length - 1)
  congr 1
  omega

end Grammar

end Reckon
