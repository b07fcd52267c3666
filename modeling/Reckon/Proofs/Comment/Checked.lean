import Reckon.Proofs.Comment.Nesting

/-! Reading comments with every step checked. Offsets are machine words, so each sum is checked to
be one and each difference not to be negative, and after a comment inside another one the reading
has to go on behind the place where that comment began. None of the checks ever fails, and the
readings are never nested deeper than twice the number of characters that are left. What carries
this is where a comment ends, at least one character behind its first and inside the text. -/

namespace Reckon

namespace Checked

open Grammar

def sum (a b : Nat) : Except Comment.Refusal Nat :=
  if a + b < wordLimit then .ok (a + b) else .error (.fault .outOfWord)

def difference (a b : Nat) : Except Comment.Refusal Nat :=
  if b ≤ a then .ok (a - b) else .error (.fault .outOfWord)

theorem sum_of_le {src : Source} {a b : Nat} (h : a + b ≤ src.length) : sum a b = .ok (a + b) :=
  if_pos (Nat.lt_of_le_of_lt h src.size_lt)

theorem difference_of_le {a b : Nat} (h : b ≤ a) : difference a b = .ok (a - b) :=
  if_pos h

mutual

/-- The comment that begins at `here`, given the form of the comment around it. -/
def commentWithin (src : Source) : (fuel : Nat) → Position → Option CommentKind →
    Except Comment.Refusal Comment
  | 0, _, _ => .error (.fault .endless)
  | fuel + 1, here, around =>
    match openerAt src here.offset with
    | none => .error .noOpener
    | some kind => do
      let i ← sum here.offset kind.opener.length
      let (nested, last) ← commentBody src fuel kind here around i
      let stop ← moveTo src here last
      return .node kind nested here stop

/-- Reads on inside the comment of form `kind` that begins at `here`, from offset `i`. -/
def commentBody (src : Source) : (fuel : Nat) → CommentKind → Position → Option CommentKind → Nat →
    Except Comment.Refusal (List Comment × Nat)
  | 0, _, _, _, _ => .error (.fault .endless)
  | fuel + 1, kind, here, around, i =>
    if i < src.length then
      match openerAt src i with
      | some _ =>
        if kind = .line ∧ around.isSome then do
          let last ← difference i 1
          return ([], last)
        else do
          let start ← moveTo src here i
          let child ← commentWithin src fuel start (some kind)
          let next ← sum child.last.offset 1
          if next ≤ start.offset then .error (.fault .endless)
          else do
            let (others, last) ← commentBody src fuel kind here around next
            return (child :: others, last)
      | none =>
        if kind = .line then
          if closedFromOutside src around i then do
            let last ← difference i 1
            return ([], last)
          else if src.startsWithAt i kind.closer then .ok ([], i)
          else do
            let next ← sum i 1
            commentBody src fuel kind here around next
        else
          if src.startsWithAt i kind.closer then do
            let stop ← sum i kind.closer.length
            let last ← difference stop 1
            return ([], last)
          else if closedFromOutside src around i then .error (.cutShort kind here i)
          else do
            let next ← sum i 1
            commentBody src fuel kind here around next
    else if kind = .line then do
      let last ← difference src.length 1
      return ([], last)
    else .error (.notClosed kind here)

end

variable {src : Source} {kind inner : CommentKind} {here : Position} {around : Option CommentKind}
  {i fuel n : Nat}

theorem commentWithin_of_openerAt (ho : openerAt src here.offset = some kind) :
    commentWithin src (fuel + 1) here around =
      (do
        let (nested, last) ←
          commentBody src fuel kind here around (here.offset + kind.opener.length)
        let stop ← moveTo src here last
        return .node kind nested here stop) := by
  rw [commentWithin, ho]
  simp only [sum_of_le (le_length_of_openerAt ho), bind, Except.bind]

/-- A character that begins no comment means the same with checks, if both readings go on alike
behind it. -/
theorem commentBody_eq_of_none (hpos : 0 < i) (hlt : i < src.length) (ho : openerAt src i = none)
    (hon : commentBody src fuel kind here around (i + 1) =
      Grammar.commentBody src n kind here around (i + 1)) :
    commentBody src (fuel + 1) kind here around i =
      Grammar.commentBody src (n + 1) kind here around i := by
  have hback : difference i 1 = .ok (i - 1) := difference_of_le hpos
  have hnext : sum i 1 = .ok (i + 1) := sum_of_le hlt
  rw [commentBody, Grammar.commentBody, if_pos hlt, if_pos hlt, ho]
  by_cases hcloser : src.startsWithAt i kind.closer = true
  · have hin := Source.le_length_of_startsWithAt kind.closer_ne_nil hcloser
    have hlast : difference (i + kind.closer.length) 1 = .ok (i + kind.closer.length - 1) :=
      difference_of_le (by omega)
    simp only [if_pos hcloser, hback, sum_of_le hin, hlast, bind, Except.bind, pure, Except.pure]
  · simp only [if_neg hcloser, hback, hnext, hon, bind, Except.bind, pure, Except.pure]

/-- So does an opening sequence, if both readings go on alike inside the comment that begins there
and behind it. Where that comment ends is what the checks ask for. -/
theorem commentBody_eq_of_openerAt (hp : here.StaysInWords src) (hlt : here.offset < i)
    (ho : openerAt src i = some inner)
    (hinside : ∀ start : Position, start.StaysInWords src → start.offset = i →
      commentBody src fuel inner start (some kind) (i + inner.opener.length) =
        Grammar.commentBody src n inner start (some kind) (i + inner.opener.length))
    (hbehind : ∀ j, i < j → j ≤ src.length →
      commentBody src (fuel + 1) kind here around j =
        Grammar.commentBody src n kind here around j) :
    commentBody src (fuel + 2) kind here around i =
      Grammar.commentBody src (n + 1) kind here around i := by
  have hi := lt_length_of_openerAt ho
  have hback : difference i 1 = .ok (i - 1) := difference_of_le (by omega)
  rw [commentBody, Grammar.commentBody, if_pos hi, if_pos hi, ho]
  by_cases hline : kind = .line ∧ around.isSome
  · simp only [if_pos hline, hback]
    rfl
  obtain ⟨start, hstart, rfl, hfit⟩ := moveTo_of_staysInWords hp (Nat.le_of_lt hlt) (Nat.le_of_lt hi)
  simp only [if_neg hline, hstart, commentWithin_of_openerAt ho, hinside start hfit rfl, bind,
    Except.bind]
  cases hbody : Grammar.commentBody src n inner start (some kind)
      (start.offset + inner.opener.length) with
  | error cause => rfl
  | ok found =>
    obtain ⟨nested, last⟩ := found
    have hpos := inner.opener_length_pos
    have hbounds := (body_of_commentBody hbody).bounds (by omega) (le_length_of_openerAt ho)
    obtain ⟨stop, hstop, hlast, -⟩ := moveTo_of_staysInWords hfit (show start.offset ≤ last by omega)
      (Nat.le_of_lt hbounds.2)
    have hresume : sum last 1 = .ok (last + 1) := sum_of_le hbounds.2
    have hprogress : ¬last + 1 ≤ start.offset := by omega
    have hothers := hbehind (last + 1) (by omega) hbounds.2
    simp only [hstop, pure, Except.pure, Comment.last, hlast, hresume, if_neg hprogress, hothers]

/-- Reading on with checks is reading on without them. -/
theorem commentBody_eq (hp : here.StaysInWords src) (ho : here.offset < i) (hi : i ≤ src.length)
    (hf : 2 * (src.length - i) < fuel) (hn : src.length - i < n) :
    commentBody src fuel kind here around i = Grammar.commentBody src n kind here around i := by
  induction fuel using Nat.strongRecOn generalizing kind here around i n with
  | ind fuel ih =>
    obtain ⟨f, rfl⟩ : ∃ f, fuel = f + 1 := ⟨fuel - 1, by omega⟩
    obtain ⟨m, rfl⟩ : ∃ m, n = m + 1 := ⟨n - 1, by omega⟩
    by_cases hlt : i < src.length
    · cases hop : openerAt src i with
      | none =>
        exact commentBody_eq_of_none (by omega) hlt hop
          (ih f (by omega) hp (by omega) hlt (by omega) (by omega))
      | some inner =>
        have hin := le_length_of_openerAt hop
        have hpos := inner.opener_length_pos
        -- One step leads into the comment and one more to what it holds.
        obtain ⟨g, rfl⟩ : ∃ g, f = g + 1 := ⟨f - 1, by omega⟩
        apply commentBody_eq_of_openerAt hp ho hop
        · intro start hfit hstart
          exact ih g (by omega) hfit (by omega) hin (by omega) (by omega)
        · intro j hij hj
          exact ih (g + 1) (by omega) hp (by omega) hj (by omega) (by omega)
    · rw [commentBody, Grammar.commentBody, if_neg hlt, if_neg hlt,
        difference_of_le (show 1 ≤ src.length by omega)]
      rfl

/-- The reading of a comment with checks is the one without them, from every position. -/
theorem commentWithin_eq (hp : here.StaysInWords src)
    (hf : 2 * (src.length - here.offset) < fuel) :
    commentWithin src fuel here around = Grammar.commentWithin src here around := by
  obtain ⟨f, rfl⟩ : ∃ f, fuel = f + 1 := ⟨fuel - 1, by omega⟩
  cases ho : openerAt src here.offset with
  | none => rw [commentWithin, Grammar.commentWithin, ho]
  | some kind =>
    have hin := le_length_of_openerAt ho
    have hpos := kind.opener_length_pos
    rw [commentWithin_of_openerAt ho, Grammar.commentWithin, ho]
    simp only [commentOfKind]
    rw [commentBody_eq hp (by omega) hin (by omega) (Nat.lt_succ_self _)]

end Checked

namespace Grammar

variable {src : Source} {kind : CommentKind} {here : Position} {around : Option CommentKind}
  {i last : Nat} {nested : List Comment} {c d : Comment}

/-- The comment is read to its end from where it begins, whatever line and column it says. -/
structure IsRead (src : Source) (around : Option CommentKind) (c : Comment) : Prop where
  opener : openerAt src c.first.offset = some c.kind
  body : Body src c.kind c.first around (c.first.offset + c.kind.opener.length) c.nested
    c.last.offset

/-- The comments found inside a comment are read inside it. -/
theorem Body.isRead (h : Body src kind here around i nested last) :
    ∀ d ∈ nested, IsRead src (some kind) d := by
  induction h with
  | nest ho _ hstart hbody hstop _ _ ihr =>
    obtain rfl := offset_of_moveTo hstart
    obtain rfl := offset_of_moveTo hstop
    exact List.forall_mem_cons.mpr ⟨⟨ho, hbody⟩, ihr⟩
  | skip _ _ _ _ _ ih => exact ih
  | _ => exact List.forall_mem_nil _

namespace IsRead

/-- An opening sequence is two characters long, or a closing sequence stands behind it. -/
theorem bounds (h : IsRead src around c) :
    c.first.offset + 1 ≤ c.last.offset ∧ c.last.offset < src.length := by
  have hin := le_length_of_openerAt h.opener
  have hlen := c.kind.opener_length_pos
  have hbounds := h.body.bounds (by omega) hin
  refine ⟨?_, hbounds.2⟩
  by_cases hkind : c.kind = .line
  · have htwo : c.kind.opener.length = 2 := by
      rw [hkind]
      rfl
    omega
  · have hcloses := h.body.closes (by omega) hin hkind
    have hcloser := c.kind.closer_length_pos
    omega

theorem of_occurs (h : IsRead src around c) {a : Option CommentKind} (hd : c.Occurs a d) :
    ∃ b, IsRead src b d := by
  induction hd with
  | root => exact ⟨around, h⟩
  | nested _ hmem ih =>
    obtain ⟨b, houter⟩ := ih
    exact ⟨_, houter.body.isRead _ hmem⟩

end IsRead

/-- There is no comment at a position, or there is one that is read from there. -/
theorem commentWithin_cases (hp : here.StaysInWords src) (around : Option CommentKind) :
    (∃ refusal, commentWithin src here around = .error refusal ∧
      ∀ cause, refusal ≠ .fault cause) ∨
    ∃ c, commentWithin src here around = .ok c ∧ c.first = here ∧ IsRead src around c := by
  rw [commentWithin]
  cases ho : openerAt src here.offset with
  | none =>
    refine .inl ⟨.noOpener, rfl, fun cause hfault => ?_⟩
    cases hfault
  | some kind =>
    have hin := le_length_of_openerAt ho
    have hpos := kind.opener_length_pos
    simp only [commentOfKind, bind, Except.bind]
    cases hbody : commentBody src (src.length - (here.offset + kind.opener.length) + 1) kind here
        around (here.offset + kind.opener.length) with
    | error refusal =>
      refine .inl ⟨refusal, rfl, ?_⟩
      rintro cause rfl
      exact commentBody_ne_fault hp (by omega) hin (Nat.lt_succ_self _) cause hbody
    | ok found =>
      obtain ⟨nested, last⟩ := found
      have hread := body_of_commentBody hbody
      have hbounds := hread.bounds (by omega) hin
      obtain ⟨stop, hstop, rfl, -⟩ := moveTo_of_staysInWords hp (show here.offset ≤ last by omega)
        (Nat.le_of_lt hbounds.2)
      simp only [hstop]
      exact .inr ⟨.node kind nested here stop, rfl, rfl, ho, hread⟩

end Grammar

/-- From every position whose numbers stay words, inside of any comment or of none, reading a comment
comes to its end. It is not aborted, no other number leaves the words, and in between it always goes
on behind where it was. A comment that is found begins there, and it and all comments inside it end
inside the text, at least one character behind their first. -/
theorem Checked.commentWithin_safe (src : Source) (here : Position) (around : Option CommentKind)
    (hp : here.StaysInWords src) :
    (∀ fuel, 2 * (src.length - here.offset) < fuel →
      commentWithin src fuel here around = Grammar.commentWithin src here around) ∧
    (∀ cause, Grammar.commentWithin src here around ≠ .error (.fault cause)) ∧
    ∀ c, Grammar.commentWithin src here around = .ok c → c.first = here ∧
      ∀ a d, c.Occurs a d → d.first.offset + 1 ≤ d.last.offset ∧ d.last.offset < src.length := by
  refine ⟨fun fuel hf => commentWithin_eq hp hf, ?_⟩
  rcases Grammar.commentWithin_cases hp around with ⟨refusal, hnone, hno⟩ | ⟨c, hc, hfirst, hread⟩
  · refine ⟨fun cause hfault => hno cause ?_, fun c hc => ?_⟩
    · exact Except.error.inj (hnone.symm.trans hfault)
    · cases hnone.symm.trans hc
  · refine ⟨fun cause hfault => ?_, fun c' hc' => ?_⟩
    · cases hc.symm.trans hfault
    · obtain rfl := Except.ok.inj (hc.symm.trans hc')
      refine ⟨hfirst, fun a d hd => ?_⟩
      obtain ⟨b, hinside⟩ := hread.of_occurs hd
      exact hinside.bounds

/-- A line comment that ends with its opening sequence, in a comment that is itself read inside of
another one, from a position far down a page. -/
theorem Checked.commentWithin_safe_line :
    ∃ src here c, src = Source.mk #['x', '{', '/', '/', '}'] (by decide) ∧ here = ⟨70, 30, 1⟩ ∧
      here.StaysInWords src ∧ 2 * (src.length - here.offset) < 9 ∧
      commentWithin src 9 here (some .round) = .ok c ∧
      Grammar.commentWithin src here (some .round) = .ok c ∧
      c.nested.map (fun d => (d.first.offset, d.last.offset)) = [(2, 3)] ∧ c.first = here ∧
      ∀ a d, c.Occurs a d → d.first.offset + 1 ≤ d.last.offset ∧ d.last.offset < src.length := by
  have hfit : (⟨70, 30, 1⟩ : Position).FitsIn (Source.mk #['x', '{', '/', '/', '}'] (by decide)) :=
    ⟨by decide, by decide⟩
  obtain ⟨hchecked, -, hfound⟩ := commentWithin_safe _ _ (some .round) hfit.staysInWords
  obtain ⟨hfirst, hends⟩ := hfound _ rfl
  exact ⟨_, _, _, rfl, rfl, hfit.staysInWords, by decide, hchecked 9 (by decide), rfl, rfl, hfirst,
    hends⟩

end Reckon
