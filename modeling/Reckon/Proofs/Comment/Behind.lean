import Reckon.Proofs.Comment.Extent
import Reckon.Proofs.Token.Behind

/-! Comments of a text that stands behind another one. A comment is read forward from where it
begins, and so are the comments nested in it. Behind a text in front the same comments are found, at
the same distances, and where there is none there is none there, too. -/

namespace Reckon

/-- What reading the rest of a comment leads to in a text and in a text that ends with it. -/
inductive Comment.BodyBehind (base : Position) :
    Except Comment.Refusal (List Comment × Nat) → Except Comment.Refusal (List Comment × Nat) → Prop
  | found (nested : List Comment) (last : Nat) :
    BodyBehind base (.ok (nested, last)) (.ok (behindAll nested base, base.offset + last))
  | refused (e e' : Comment.Refusal) : BodyBehind base (.error e) (.error e')

namespace Comment.BodyBehind

variable {base : Position} {x x' : Except Refusal (List Comment × Nat)}

theorem nil {last n : Nat} (h : n = base.offset + last) :
    BodyBehind base (.ok ([], last)) (.ok ([], n)) := by
  subst h
  exact .found [] last

theorem of_ok {nested : List Comment} {last : Nat} (h : BodyBehind base (.ok (nested, last)) x') :
    x' = .ok (behindAll nested base, base.offset + last) := by
  cases h
  rfl

theorem exists_of_ok {found : List Comment × Nat} (h : BodyBehind base x (.ok found)) :
    ∃ nested last, x = .ok (nested, last) := by
  cases h with
  | found nested last => exact ⟨nested, last, rfl⟩

theorem bind {f f' : List Comment × Nat → Except Refusal (List Comment × Nat)}
    (h : BodyBehind base x x')
    (hf : ∀ nested last, x = .ok (nested, last) →
      BodyBehind base (f (nested, last)) (f' (behindAll nested base, base.offset + last))) :
    BodyBehind base (x >>= f) (x' >>= f') := by
  cases h with
  | found nested last => exact hf nested last rfl
  | refused e e' => exact .refused e e'

end Comment.BodyBehind

namespace Grammar

open Comment

variable {src whole : Source} {o i k : Nat}

theorem openerAt_behind (h : src.Ends whole o) (i : Nat) :
    openerAt whole (o + i) = openerAt src i := by
  simp only [openerAt, h.startsWithAt_eq]

theorem closedFromOutside_behind (h : src.Ends whole o) (around : Option CommentKind) (i : Nat) :
    closedFromOutside whole around (o + i) = closedFromOutside src around i := by
  simp only [closedFromOutside, h.startsWithAt_eq]

/-- Inside the text a move succeeds, and reading goes on from the place it leads to. -/
theorem moveTo_place_bind {α : Type} (hki : k ≤ i) (hi : i ≤ src.length)
    (f : Position → Except Refusal α) : moveTo src (src.place k) i >>= f = f (src.place i) := by
  rw [moveTo, Source.advance_place hki hi]
  rfl

/-- The rest of a comment is read alike behind a text in front. The induction is on the number of
further readings allowed, which is the same for both. -/
theorem commentBody_behind (h : src.Ends whole o) (fuel : Nat) (kind : CommentKind)
    (around : Option CommentKind) (hki : k < i) (hi : i ≤ src.length) :
    BodyBehind (whole.place o) (commentBody src fuel kind (src.place k) around i)
      (commentBody whole fuel kind (whole.place (o + k)) around (o + i)) := by
  have hlen := h.length_eq
  have hbase : (whole.place o).offset = o := Source.offset_place (by omega)
  induction fuel generalizing kind around k i with
  | zero => exact .refused _ _
  | succ fuel ih =>
    rw [commentBody, commentBody, openerAt_behind h, closedFromOutside_behind h,
      h.startsWithAt_eq]
    by_cases hlt : i < src.length
    · rw [if_pos hlt, if_pos (show o + i < whole.length by omega)]
      have hskip := ih kind around (show k < i + 1 by omega) hlt
      cases ho : openerAt src i with
      | some inner =>
        -- A line comment inside another comment ends before an opener. Any other comment reads what
        -- is opened and goes on behind it, so there are two readings to be compared.
        by_cases hline : kind = .line ∧ around.isSome = true
        · simp only [if_pos hline]
          exact .nil (by omega)
        have hend := le_length_of_openerAt ho
        have hpos := inner.opener_length_pos
        have hnested := ih inner (some kind) (show i < i + inner.opener.length by omega) hend
        simp only [if_neg hline]
        rw [moveTo_place_bind (Nat.le_of_lt hki) hi, moveTo_place_bind (by omega) (by omega),
          Nat.add_assoc]
        refine hnested.bind fun nested last hbody => ?_
        have hbounds := (body_of_commentBody hbody).bounds (by omega) hend
        have hothers := ih kind around (show k < last + 1 by omega) (by omega)
        simp only [hbase]
        rw [moveTo_place_bind (by omega) (Nat.le_of_lt hbounds.2),
          moveTo_place_bind (by omega) (by omega)]
        refine hothers.bind fun others final _ => ?_
        rw [h.place_eq i, h.place_eq last]
        exact .found (.node inner nested (src.place i) (src.place last) :: others) final
      | none =>
        have hclose := kind.closer_length_pos
        simp only
        split
        · split
          · exact .nil (by omega)
          · split
            · exact .nil (by omega)
            · exact hskip
        · split
          · exact .nil (by omega)
          · split
            · exact .refused _ _
            · exact hskip
    · rw [if_neg hlt, if_neg (show ¬o + i < whole.length by omega)]
      split
      · exact .nil (by omega)
      · exact .refused _ _

/-- The same comments are found behind a text in front. -/
theorem comment_behind (h : src.Ends whole o) (hi : i ≤ src.length) :
    (comment src (src.place i) = .absent ∧ comment whole (whole.place (o + i)) = .absent) ∨
      ∃ j c, comment src (src.place i) = .found c ∧ Stands src i j c ∧
        comment whole (whole.place (o + i)) = .found (c.behind (whole.place o)) := by
  have hlen := h.length_eq
  have hbase : (whole.place o).offset = o := Source.offset_place (by omega)
  have hbehind : ∀ kind, openerAt src i = some kind →
      BodyBehind (whole.place o)
        (commentBody src (src.length - i) kind (src.place i) none (i + kind.opener.length))
        (commentBody whole (src.length - i) kind (whole.place (o + i)) none
          (o + i + kind.opener.length)) := by
    intro kind ho
    have hpos := kind.opener_length_pos
    have hbody := commentBody_behind h (src.length - i) kind none
      (show i < i + kind.opener.length by omega) (le_length_of_openerAt ho)
    rwa [← Nat.add_assoc] at hbody
  rcases comment_cases hi with habsent | ⟨kind, nested, last, ho, hbody, hfound⟩
  · rcases comment_cases (show o + i ≤ whole.length by omega) with
      habsent' | ⟨kind, nested, last, ho, hbody, -⟩
    · exact .inl ⟨habsent, habsent'⟩
    · -- What closes a comment behind the text in front closes it without that text, too.
      rw [openerAt_behind h] at ho
      have hpos := kind.opener_length_pos
      have hend := le_length_of_openerAt ho
      have hread := hbehind kind ho
      rw [hbody.commentBody_eq (by omega) (by omega) (by omega)] at hread
      obtain ⟨nested, last, hread⟩ := hread.exists_of_ok
      rw [comment_of_body hi ho (body_of_commentBody hread)] at habsent
      cases habsent
  · have hpos := kind.opener_length_pos
    have hend := le_length_of_openerAt ho
    have hbounds := hbody.bounds (by omega) hend
    have hread := hbehind kind ho
    rw [hbody.commentBody_eq (by omega) hend (by omega)] at hread
    have hread' := body_of_commentBody hread.of_ok
    have hfound' := comment_of_body (show o + i ≤ whole.length by omega)
      ((openerAt_behind h i).trans ho) hread'
    rw [hbase, h.place_eq i, h.place_eq last] at hfound'
    refine .inr ⟨last + 1, _, hfound, ⟨by omega, hbounds.2, rfl, rfl⟩, ?_⟩
    rw [h.place_eq i]
    exact hfound'

end Grammar

end Reckon
