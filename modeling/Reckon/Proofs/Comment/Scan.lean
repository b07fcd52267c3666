import Reckon.Proofs.Comment.Extent

/-! Reading a comment in one pass. A machine goes through the text once, from the first character
after an opening sequence on, and keeps the comments that are open on a stack. The innermost one and
the one around it decide what a character means: it opens a further comment, ends the innermost one,
lets the whole comment fail, or is passed over. The machine finds the same comments as the recursive
reading does, and it fails for the same reasons. -/

namespace Reckon

namespace Scan

open Grammar

/-- A comment that is open: its form, where it begins, and the comments found inside it so far. -/
structure OpenComment where
  kind : CommentKind
  first : Position
  nested : List Comment

/-- The innermost open comment, the comments around it from the inside out, and the offset that was
reached. -/
structure State where
  inner : OpenComment
  around : List OpenComment
  offset : Nat

inductive Outcome where
  | goOn (s : State)
  | answer (result : Except Comment.Refusal Comment)

/-- Ends the innermost comment with the character at `last`. The comment around it goes on at
`next`; if there is none, the comment that ended is the answer. -/
def close (src : Source) (s : State) (last next : Nat) : Outcome :=
  match moveTo src s.inner.first last with
  | .error cause => .answer (.error cause)
  | .ok stop =>
    let found := Comment.node s.inner.kind s.inner.nested s.inner.first stop
    match s.around with
    | [] => .answer (.ok found)
    | outer :: around => .goOn ⟨{ outer with nested := outer.nested ++ [found] }, around, next⟩

/-- Opens a comment inside the innermost one and passes over its opening sequence. -/
def push (src : Source) (s : State) (kind : CommentKind) : Outcome :=
  match moveTo src s.inner.first s.offset with
  | .error cause => .answer (.error cause)
  | .ok here => .goOn ⟨⟨kind, here, []⟩, s.inner :: s.around, s.offset + kind.opener.length⟩

/-- What to do at a character that begins no comment. -/
def pass (src : Source) (s : State) : Outcome :=
  match s.inner.kind, s.around with
  | .line, outer :: _ =>
    if src.startsWithAt s.offset outer.kind.closer then close src s (s.offset - 1) s.offset
    else if src.charAt s.offset = some '\n' then close src s s.offset (s.offset + 1)
    else .goOn { s with offset := s.offset + 1 }
  | .line, [] =>
    if src.charAt s.offset = some '\n' then close src s s.offset (s.offset + 1)
    else .goOn { s with offset := s.offset + 1 }
  | kind, around =>
    if src.startsWithAt s.offset kind.closer then
      close src s (s.offset + kind.closer.length - 1) (s.offset + kind.closer.length)
    else if around.head?.any fun outer => src.startsWithAt s.offset outer.kind.closer then
      .answer (.error (.cutShort kind s.inner.first s.offset))
    else .goOn { s with offset := s.offset + 1 }

/-- One move of the machine. At the end of the text a line comment ends and any other comment is not
closed. -/
def move (src : Source) (s : State) : Outcome :=
  if s.offset < src.length then
    match openerAt src s.offset with
    | some kind =>
      if s.inner.kind = .line ∧ s.around ≠ [] then close src s (s.offset - 1) s.offset
      else push src s kind
    | none => pass src s
  else if s.inner.kind = .line then close src s (src.length - 1) src.length
  else .answer (.error (.notClosed s.inner.kind s.inner.first))

/-- What is left to do: each character may open a comment, and each open comment may end. -/
def State.work (src : Source) (s : State) : Nat := 2 * (src.length - s.offset) + s.around.length

theorem work_of_close {src : Source} {s s' : State} {last next : Nat}
    (hn : src.length - next ≤ src.length - s.offset)
    (h : close src s last next = .goOn s') : s'.work src < s.work src := by
  unfold close at h
  split at h
  · cases h
  · split at h
    · cases h
    · rename_i ha
      cases h
      simp only [State.work, ha, List.length_cons]
      omega

theorem work_of_skip {src : Source} {s s' : State} (hlt : s.offset < src.length)
    (h : Outcome.goOn { s with offset := s.offset + 1 } = .goOn s') : s'.work src < s.work src := by
  cases h
  simp only [State.work]
  omega

/-- Every move leaves less to do. -/
theorem work_of_move {src : Source} {s s' : State} (h : move src s = .goOn s') :
    s'.work src < s.work src := by
  unfold move at h
  split at h
  · rename_i hlt
    split at h
    · rename_i kind ho
      split at h
      · exact work_of_close (by omega) h
      · unfold push at h
        split at h
        · cases h
        · cases h
          have hop := kind.opener_length_pos
          simp only [State.work, List.length_cons]
          omega
    · unfold pass at h
      split at h
      · split at h
        · exact work_of_close (by omega) h
        · split at h
          · exact work_of_close (by omega) h
          · exact work_of_skip hlt h
      · split at h
        · exact work_of_close (by omega) h
        · exact work_of_skip hlt h
      · split at h
        · exact work_of_close (by omega) h
        · split at h
          · cases h
          · exact work_of_skip hlt h
  · split at h
    · exact work_of_close (by omega) h
    · cases h

/-- Moves until there is an answer. -/
def run (src : Source) (s : State) : Except Comment.Refusal Comment :=
  match _h : move src s with
  | .answer result => result
  | .goOn s' => run src s'
termination_by s.work src
decreasing_by exact work_of_move _h

/-- The comment that begins at `here`, or why there is none. -/
def commentAt (src : Source) (here : Position) : Except Comment.Refusal Comment :=
  match openerAt src here.offset with
  | none => .error .noOpener
  | some kind => run src ⟨⟨kind, here, []⟩, [], here.offset + kind.opener.length⟩

def comment (src : Source) (here : Position) : Attempt Comment :=
  match commentAt src here with
  | .ok found => .found found
  | .error (.fault cause) => .fault cause
  | .error _ => .absent

/-- Goes on from what a move leads to. -/
def follow (src : Source) : Outcome → Except Comment.Refusal Comment
  | .answer result => result
  | .goOn s => run src s

theorem run_eq_follow (src : Source) (s : State) : run src s = follow src (move src s) := by
  rw [run]
  split <;> rename_i h <;> rw [h] <;> rfl

/-- The machine with further comments found inside the innermost one. -/
def State.found (s : State) (nested : List Comment) : State :=
  { s with inner := { s.inner with nested := s.inner.nested ++ nested } }

theorem State.found_nil (s : State) : s.found [] = s := by
  simp [State.found]

/-- Goes on when the innermost comment was found to hold some comments and to end at an offset. -/
def finish (src : Source) (s : State) (found : List Comment × Nat) :
    Except Comment.Refusal Comment :=
  follow src (close src (s.found found.1) found.2 (found.2 + 1))

/-- The innermost comment ends and nothing more was found in it. -/
theorem follow_close {src : Source} {s : State} {last next : Nat} (hn : next = last + 1) :
    follow src (close src s last next) = finish src s ([], last) := by
  rw [finish, State.found_nil, hn]

def State.outside (s : State) : Option CommentKind := s.around.head?.map OpenComment.kind

theorem outside_isSome (s : State) : s.outside.isSome = true ↔ s.around ≠ [] := by
  rw [State.outside]
  cases s.around <;> simp

theorem startsWithAt_newline (src : Source) (i : Nat) :
    src.startsWithAt i CommentKind.line.closer = true ↔ src.charAt i = some '\n' := by
  simp [CommentKind.closer, Source.startsWithAt]

/-- A character that begins no comment means the same to the machine and to the recursive reading,
if both go on alike after it. -/
theorem follow_pass {src : Source} {s : State} {on : Except Comment.Refusal (List Comment × Nat)}
    (hpos : 0 < s.offset) (hon : run src { s with offset := s.offset + 1 } = on >>= finish src s) :
    follow src (pass src s) =
      (if s.inner.kind = .line then
        if closedFromOutside src s.outside s.offset then .ok ([], s.offset - 1)
        else if src.startsWithAt s.offset s.inner.kind.closer then .ok ([], s.offset)
        else on
      else
        if src.startsWithAt s.offset s.inner.kind.closer then
          .ok ([], s.offset + s.inner.kind.closer.length - 1)
        else if closedFromOutside src s.outside s.offset then
          .error (.cutShort s.inner.kind s.inner.first s.offset)
        else on) >>= finish src s := by
  have hcl := s.inner.kind.closer_length_pos
  unfold pass
  split
  · rename_i outer around hk ha
    rw [if_pos hk, hk, State.outside, ha]
    simp only [startsWithAt_newline, closedFromOutside, List.head?_cons, Option.map_some,
      Option.any_some]
    split
    · exact follow_close (by omega)
    · split
      · exact follow_close rfl
      · rw [← ha]
        exact hon
  · rename_i hk ha
    rw [if_pos hk, hk, State.outside, ha]
    simp only [startsWithAt_newline, closedFromOutside, List.head?_nil, Option.map_none,
      Option.any_none, Bool.false_eq_true, if_false]
    split
    · exact follow_close rfl
    · rw [← ha]
      exact hon
  · rename_i kind around h1 h2
    have hk : s.inner.kind ≠ .line := by
      intro hk
      cases ha : s.around with
      | nil => exact h2 hk ha
      | cons outer around => exact h1 outer around hk ha
    rw [if_neg hk]
    split
    · exact follow_close (by omega)
    · simp only [closedFromOutside, State.outside, Option.any_map]
      split
      · rfl
      · exact hon

/-- What begins a comment means the same to the machine and to the recursive reading, if the comment
inside and what is left of the one around it are read alike. -/
theorem follow_push {src : Source} {s : State} {kind : CommentKind} {fuel : Nat}
    (ho : openerAt src s.offset = some kind)
    (hon : ∀ s' : State, s.offset < s'.offset → s'.offset ≤ src.length → run src s' =
      commentBody src fuel s'.inner.kind s'.inner.first s'.outside s'.offset >>= finish src s') :
    follow src (push src s kind) = (do
      let start ← moveTo src s.inner.first s.offset
      let (nested, last) ←
        commentBody src fuel kind start (some s.inner.kind) (s.offset + kind.opener.length)
      let stop ← moveTo src start last
      let (others, last) ← commentBody src fuel s.inner.kind s.inner.first s.outside (last + 1)
      return (.node kind nested start stop :: others, last)) >>= finish src s := by
  have hin := le_length_of_openerAt ho
  have hop := kind.opener_length_pos
  rw [push]
  cases moveTo src s.inner.first s.offset with
  | error cause => rfl
  | ok start =>
    have hinner := hon ⟨⟨kind, start, []⟩, s.inner :: s.around, s.offset + kind.opener.length⟩
      (by simp only; omega) hin
    simp only [follow, State.outside, List.head?_cons, Option.map_some, bind, Except.bind]
      at hinner ⊢
    rw [hinner]
    cases hb : commentBody src fuel kind start (some s.inner.kind)
      (s.offset + kind.opener.length) with
    | error cause => rfl
    | ok found =>
      obtain ⟨nested, last⟩ := found
      have hbounds := (body_of_commentBody hb).bounds (by omega) hin
      simp only [finish, close, State.found, List.nil_append]
      cases moveTo src start last with
      | error cause => rfl
      | ok stop =>
        have houter := hon ⟨{ s.inner with
          nested := s.inner.nested ++ [.node kind nested start stop] }, s.around, last + 1⟩
          (by simp only; omega) (by simp only; omega)
        simp only [follow, State.outside, bind, Except.bind] at houter ⊢
        rw [houter]
        cases commentBody src fuel s.inner.kind s.inner.first
          (s.around.head?.map OpenComment.kind) (last + 1) with
        | error cause => rfl
        | ok rest =>
          simp only [finish, close, State.found, List.append_assoc, List.singleton_append, pure,
            Except.pure]
          rfl

/-- From any state on, the machine does to the innermost comment what reading on inside it does,
ends it there, and goes on with the comment around it. -/
theorem run_eq_commentBody {src : Source} {fuel : Nat} {s : State} (hpos : 0 < s.offset)
    (hi : s.offset ≤ src.length) (hf : src.length - s.offset < fuel) :
    run src s =
      commentBody src fuel s.inner.kind s.inner.first s.outside s.offset >>= finish src s := by
  induction fuel generalizing s with
  | zero => omega
  | succ fuel ih =>
    have hon : ∀ s' : State, s.offset < s'.offset → s'.offset ≤ src.length → run src s' =
        commentBody src fuel s'.inner.kind s'.inner.first s'.outside s'.offset >>= finish src s' :=
      fun s' hlt hle => ih (by omega) hle (by omega)
    rw [run_eq_follow, move, commentBody]
    by_cases hlt : s.offset < src.length
    · rw [if_pos hlt, if_pos hlt]
      cases ho : openerAt src s.offset with
      | some kind =>
        simp only [outside_isSome]
        by_cases hline : s.inner.kind = .line ∧ s.around ≠ []
        · rw [if_pos hline, if_pos hline]
          exact follow_close (by omega)
        · rw [if_neg hline, if_neg hline]
          exact follow_push ho hon
      | none =>
        have hskip := hon { s with offset := s.offset + 1 } (Nat.lt_succ_self _) hlt
        exact follow_pass hpos hskip
    · rw [if_neg hlt, if_neg hlt]
      by_cases hline : s.inner.kind = .line
      · rw [if_pos hline, if_pos hline]
        exact follow_close (by omega)
      · rw [if_neg hline, if_neg hline]
        rfl

end Scan

/-- Reading comments by recursion and reading them in one pass with a stack find the same trees and
refuse for the same reasons. -/
theorem comment_eq_scan (src : Source) (here : Position) :
    Grammar.commentAt src here = Scan.commentAt src here ∧
      Grammar.comment src here = Scan.comment src here := by
  have hat : Grammar.commentAt src here = Scan.commentAt src here := by
    rw [Grammar.commentAt, Grammar.commentWithin, Scan.commentAt]
    cases ho : Grammar.openerAt src here.offset with
    | none => rfl
    | some kind =>
      have hin := Grammar.le_length_of_openerAt ho
      have hop := kind.opener_length_pos
      simp only [Grammar.commentOfKind]
      rw [Scan.run_eq_commentBody (s := ⟨⟨kind, here, []⟩, [], here.offset + kind.opener.length⟩)
        (by simp only; omega) hin (Nat.lt_succ_self _)]
      simp only [Scan.State.outside, List.head?_nil, Option.map_none, bind, Except.bind]
      cases Grammar.commentBody src (src.length - (here.offset + kind.opener.length) + 1) kind here
        none (here.offset + kind.opener.length) with
      | error cause => rfl
      | ok found =>
        simp only [Scan.finish, Scan.close, Scan.State.found, List.nil_append]
        cases Grammar.moveTo src here found.2 with
        | error cause => rfl
        | ok stop => rfl
  refine ⟨hat, ?_⟩
  cases hscan : Scan.commentAt src here with
  | ok found => simp only [Grammar.comment, Scan.comment, hat, hscan]
  | error refusal => cases refusal <;> simp only [Grammar.comment, Scan.comment, hat, hscan]

end Reckon
