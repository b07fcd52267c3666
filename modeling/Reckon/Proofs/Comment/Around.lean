import Reckon.Proofs.Comment.Nesting

/-! What a comment around another one can do to it. A comment between brackets looks for its own
closing sequence, and what is nested in it is lent that one and no other. The comment around it is
asked in one case only, and there the answer is that there is no comment. So it can be refused for
where it stands, but it is never read otherwise than it is where nothing is around it. None of this
holds for a line comment, which the comment around it ends. -/

namespace Reckon

/-- From offset `i` on, a comment of form `outer` around the one that begins at `here` leaves what is
read `alone` as it is, or its closing sequence cuts the reading short. -/
def Comment.LeftOrCut {α : Type} (src : Source) (outer kind : CommentKind) (here : Position)
    (i : Nat) (within alone : Except Comment.Refusal α) : Prop :=
  within = alone ∨
    ∃ k, i ≤ k ∧ outer.closer <+: src.rest k ∧ within = .error (.cutShort kind here k)

namespace Comment.LeftOrCut

variable {α β : Type} {src : Source} {outer kind : CommentKind} {here : Position} {i j : Nat}
  {within alone : Except Comment.Refusal α}

theorem refl (alone : Except Comment.Refusal α) :
    LeftOrCut src outer kind here i alone alone :=
  .inl rfl

theorem of_le (h : LeftOrCut src outer kind here j within alone) (hij : i ≤ j) :
    LeftOrCut src outer kind here i within alone := by
  rcases h with heq | ⟨k, hjk, hcloser, hcut⟩
  · exact .inl heq
  · exact .inr ⟨k, by omega, hcloser, hcut⟩

/-- What is done with the result is not done when there is none. -/
theorem bind (h : LeftOrCut src outer kind here i within alone)
    (f : α → Except Comment.Refusal β) :
    LeftOrCut src outer kind here i (within >>= f) (alone >>= f) := by
  rcases h with rfl | ⟨k, hik, hcloser, rfl⟩
  · exact refl _
  · exact .inr ⟨k, hik, hcloser, rfl⟩

/-- What is done before, and does not ask for the comment around, may give no result. -/
theorem bind_right {x : Except Comment.Refusal β} {f g : β → Except Comment.Refusal α}
    (h : ∀ b, x = .ok b → LeftOrCut src outer kind here i (f b) (g b)) :
    LeftOrCut src outer kind here i (x >>= f) (x >>= g) := by
  cases x with
  | error refusal => exact refl _
  | ok b => exact h b rfl

end Comment.LeftOrCut

namespace Grammar

variable {src : Source} {kind outer : CommentKind} {here : Position} {around : Option CommentKind}
  {i last fuel : Nat} {nested : List Comment} {c : Comment}

/-- What is read to its end between brackets is read alike with no comment around it. -/
theorem Body.alone (h : Body src kind here around i nested last) (hkind : kind ≠ .line) :
    Body src kind here none i nested last := by
  induction h with
  | beforeOpener _ _ => exact absurd rfl hkind
  | nest ho _ hstart hbody hstop _ _ ihr =>
    exact .nest ho (fun hline => hkind hline.1) hstart hbody hstop (ihr hkind)
  | beforeCloser _ _ _ => exact absurd rfl hkind
  | endOfLine _ _ _ => exact absurd rfl hkind
  | closed ho _ hcloser => exact .closed ho hkind hcloser
  | skip hlt ho hcloser _ _ ih => exact .skip hlt ho hcloser rfl (ih hkind)
  | endOfText _ => exact absurd rfl hkind

theorem ReadAt.comment_eq (h : ReadAt src around i last c) (hkind : c.kind ≠ .line) :
    comment src c.first = .found c := by
  have hin := le_length_of_openerAt h.opener
  have hfound := comment_of_body (by omega) h.opener (h.body.alone hkind)
  rw [← h.first, ← h.last] at hfound
  obtain ⟨kind, nested, first, last⟩ := c
  exact hfound

/-- Reading on between brackets, the comment around is asked at each character that begins no
comment and no closing sequence, and not by the comments nested there. -/
theorem leftOrCut_commentBody (hkind : kind ≠ .line) (hpos : 0 < i) :
    Comment.LeftOrCut src outer kind here i (commentBody src fuel kind here (some outer) i)
      (commentBody src fuel kind here none i) := by
  induction fuel generalizing i with
  | zero => exact .refl _
  | succ fuel ih =>
    rw [commentBody, commentBody]
    by_cases hlt : i < src.length
    · rw [if_pos hlt, if_pos hlt]
      cases ho : openerAt src i with
      | some inner =>
        have hin := le_length_of_openerAt ho
        simp only [hkind, false_and, if_false]
        refine .bind_right fun start _ => .bind_right fun found hbody => ?_
        obtain ⟨nested, last⟩ := found
        have hbounds := (body_of_commentBody hbody).bounds (by omega) hin
        refine .bind_right fun stop _ => ?_
        exact ((ih (by omega)).of_le (by omega)).bind _
      | none =>
        simp only [if_neg hkind]
        by_cases hcloser : src.startsWithAt i kind.closer = true
        · rw [if_pos hcloser, if_pos hcloser]
          exact .refl _
        · rw [if_neg hcloser, if_neg hcloser]
          have halone : ¬closedFromOutside src none i = true := Bool.false_ne_true
          rw [if_neg halone]
          by_cases hout : closedFromOutside src (some outer) i = true
          · rw [if_pos hout]
            exact .inr ⟨i, Nat.le_refl i, Source.startsWithAt_iff.mp hout, rfl⟩
          · rw [if_neg hout]
            exact (ih (by omega)).of_le (Nat.le_succ i)
    · rw [if_neg hlt, if_neg hlt]
      exact .refl _

theorem leftOrCut_commentOfKind (hkind : kind ≠ .line) :
    Comment.LeftOrCut src outer kind here (here.offset + kind.opener.length)
      (commentOfKind src kind here (some outer)) (commentOfKind src kind here none) :=
  (leftOrCut_commentBody hkind (Nat.add_pos_right _ kind.opener_length_pos)).bind _

end Grammar

/-- A comment between brackets that is found inside others is found alike when it is read by itself.
Wherever it is read, a comment around it leaves it as it is or cuts it short. -/
theorem Comment.brackets_around (src : Source) :
    (∀ {i : Nat} {here : Position} {c : Comment}, src.positionOf i = .ok here →
      Grammar.comment src here = .found c → ∀ {around : Option CommentKind} {d : Comment},
        c.Occurs around d → d.kind ≠ .line → Grammar.comment src d.first = .found d) ∧
    ∀ kind : CommentKind, kind ≠ .line → ∀ (here : Position) (outer : CommentKind),
      LeftOrCut src outer kind here (here.offset + kind.opener.length)
        (Grammar.commentOfKind src kind here (some outer))
        (Grammar.commentOfKind src kind here none) := by
  constructor
  · intro i here c hhere hfound around d hd hkind
    obtain ⟨hi, rfl⟩ := Source.eq_place_of_positionOf hhere
    obtain ⟨last, hread⟩ := Grammar.readAt_of_comment hi hfound
    obtain ⟨j, final, hd⟩ := hread.of_occurs hd
    exact hd.comment_eq hkind
  · intro kind hkind here outer
    exact Grammar.leftOrCut_commentOfKind hkind

/-- A comment two levels inside a line comment. -/
theorem Comment.brackets_around_nested :
    (Source.mk #['/', '/', '{', '(', '*', 'a', '*', ')', '}', '\n', 'b'] (by decide)).positionOf 0 =
        .ok .origin ∧
      ∃ c outer d, Grammar.comment
          (Source.mk #['/', '/', '{', '(', '*', 'a', '*', ')', '}', '\n', 'b'] (by decide)) .origin =
            .found c ∧ outer ∈ c.nested ∧ d ∈ outer.nested ∧ d.kind ≠ .line ∧
        Grammar.comment
          (Source.mk #['/', '/', '{', '(', '*', 'a', '*', ')', '}', '\n', 'b'] (by decide)) d.first =
            .found d := by
  refine ⟨rfl, _, _, _, rfl, List.mem_cons_self, List.mem_cons_self, nofun, ?_⟩
  exact (brackets_around _).1 (i := 0) rfl rfl
    (.nested (.nested .root List.mem_cons_self) List.mem_cons_self) nofun

/-- A line comment is found otherwise: by itself it goes on behind the bracket that ends it here. -/
example :
    ∃ c d e, Grammar.comment (Source.mk #['{', '/', '/', 'a', '}', 'b'] (by decide)) .origin =
        .found c ∧ d ∈ c.nested ∧
      Grammar.comment (Source.mk #['{', '/', '/', 'a', '}', 'b'] (by decide)) d.first = .found e ∧
      d.last.offset < e.last.offset :=
  ⟨_, _, _, rfl, List.mem_cons_self, rfl, by decide⟩

end Reckon
