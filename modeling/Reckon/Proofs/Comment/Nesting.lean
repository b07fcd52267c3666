import Reckon.Proofs.Comment.Lines
import Reckon.Proofs.Comment.Local

/-! Comments in comments. Each comment of a tree is spelled as its form demands, and the comments
nested in it stand behind its opening sequence, one after another and in front of its closing
sequence. What is left of a comment when those nested in it are taken away is its own. There nothing
begins a comment, since it would have been nested, and nothing ends the comment around it, since it
would have been cut short. A line comment that is nested is nothing but its own line. -/

namespace Reckon

namespace Comment

/-- The comment `d` is somewhere in the tree of the comment `c`, and `around` is the form of the
comment right around it. -/
inductive Occurs (c : Comment) : Option CommentKind → Comment → Prop
  | root : c.Occurs none c
  | nested {around : Option CommentKind} {outer d : Comment} :
    c.Occurs around outer → d ∈ outer.nested → c.Occurs (some outer.kind) d

/-- The offset lies in the comment, behind its opening sequence, and in none of the comments nested
in it. -/
structure Owns (c : Comment) (k : Nat) : Prop where
  opened : c.first.offset + c.kind.opener.length ≤ k
  le_last : k ≤ c.last.offset
  not_nested : ∀ d ∈ c.nested, ¬(d.first.offset ≤ k ∧ k ≤ d.last.offset)

/-- The comment is spelled and nested as it should be, where `around` is the form of the comment
around it. -/
structure WellNested (src : Source) (around : Option CommentKind) (c : Comment) : Prop where
  opens : ∃ text, src.textOf (Spanned.span c) = .ok text ∧ c.kind.opener <+: text.toList
  /-- The opening and the closing sequence of a comment between brackets share no character. -/
  closes : c.kind ≠ .line → ∃ body, src.textOf (Spanned.span c) =
    .ok (String.ofList (c.kind.opener ++ body ++ c.kind.closer))
  in_order : c.nested.Pairwise fun d e => d.last.offset < e.first.offset
  behind_opener : ∀ d ∈ c.nested, c.first.offset + c.kind.opener.length ≤ d.first.offset
  within : ∀ d ∈ c.nested, d.last.offset ≤ c.last.offset
  before_closer : c.kind ≠ .line →
    ∀ d ∈ c.nested, d.last.offset + c.kind.closer.length ≤ c.last.offset
  /-- Nothing that begins a comment is passed over. -/
  misses_none : ∀ k, c.Owns k → ∀ kind : CommentKind, ¬kind.opener <+: src.rest k
  /-- What ends the comment around is not passed over in front of the closing sequence. -/
  not_cut_short : c.kind ≠ .line → ∀ outer ∈ around, ∀ k, c.Owns k →
    k + c.kind.closer.length ≤ c.last.offset → ¬outer.closer <+: src.rest k
  line_in_comment : c.kind = .line → around.isSome = true → c.nested = [] ∧ c.StaysOnLine src
  line_in_line : c.kind = .line → around = some .line → ¬c.HoldsNewline src

end Comment

namespace Grammar

variable {src : Source} {kind : CommentKind} {here : Position} {around : Option CommentKind}
  {i j last : Nat} {nested : List Comment} {c : Comment}

theorem offset_of_moveTo {p q : Position} (h : moveTo src p j = .ok q) : q.offset = j := by
  rw [moveTo] at h
  cases hadvance : src.advance p j with
  | error cause =>
    rw [hadvance] at h
    cases h
  | ok r =>
    rw [hadvance] at h
    obtain rfl := Except.ok.inj h
    exact Source.offset_of_advance hadvance

/-- No opening sequence begins with a character of a closing one. -/
theorem openerAt_of_mem_closer {k : Nat} {x : Char} (hx : src.charAt k = some x)
    (hmem : x ∈ kind.closer) : openerAt src k = none := by
  cases ho : openerAt src k with
  | none => rfl
  | some inner =>
    have hhead := Source.charAt_eq_head? inner.opener_ne_nil (startsWithAt_of_openerAt ho)
    rw [hx] at hhead
    have hno : inner.opener.head? ∉ kind.closer.map some := by
      cases inner <;> cases kind <;> simp [CommentKind.opener, CommentKind.closer]
    exact absurd (hhead ▸ List.mem_map_of_mem hmem) hno

/-- A comment between brackets ends with its closing sequence, which is yet to be read. -/
theorem Body.closes (h : Body src kind here around i nested last) (hpos : 0 < i)
    (hi : i ≤ src.length) (hkind : kind ≠ .line) :
    i + kind.closer.length ≤ last + 1 ∧
      src.startsWithAt (last + 1 - kind.closer.length) kind.closer = true := by
  induction h with
  | beforeOpener _ _ => exact absurd rfl hkind
  | nest ho _ _ hbody _ _ _ ihr =>
    have hin := le_length_of_openerAt ho
    have hbounds := hbody.bounds (by omega) hin
    obtain ⟨hle, hcloser⟩ := ihr (by omega) (by omega) hkind
    exact ⟨by omega, hcloser⟩
  | beforeCloser _ _ _ => exact absurd rfl hkind
  | endOfLine _ _ _ => exact absurd rfl hkind
  | @closed kind here around i _ _ hcloser =>
    have hlen := kind.closer_length_pos
    refine ⟨by omega, ?_⟩
    rw [show i + kind.closer.length - 1 + 1 - kind.closer.length = i by omega]
    exact hcloser
  | skip hlt _ _ _ _ ih =>
    obtain ⟨hle, hcloser⟩ := ih (by omega) (by omega) hkind
    exact ⟨by omega, hcloser⟩
  | endOfText _ => exact absurd rfl hkind

/-- The comments found inside stand in what is left of the comment, one after another. -/
theorem Body.in_order (h : Body src kind here around i nested last) (hpos : 0 < i)
    (hi : i ≤ src.length) :
    nested.Pairwise (fun d e => d.last.offset < e.first.offset) ∧
      ∀ d ∈ nested, i ≤ d.first.offset ∧ d.last.offset ≤ last := by
  induction h with
  | nest ho _ hstart hbody hstop hrest _ ihr =>
    have hin := le_length_of_openerAt ho
    have hbounds := hbody.bounds (by omega) hin
    have hfinal := hrest.bounds (by omega) (by omega)
    obtain ⟨hpairwise, hwithin⟩ := ihr (by omega) (by omega)
    have hfirst := offset_of_moveTo hstart
    have hlast := offset_of_moveTo hstop
    refine ⟨List.pairwise_cons.mpr ⟨fun d hd => ?_, hpairwise⟩,
      List.forall_mem_cons.mpr ⟨?_, fun d hd => ?_⟩⟩
    · have hbehind := (hwithin d hd).1
      simp only [Comment.last, hlast]
      omega
    · simp only [Comment.first, Comment.last, hfirst, hlast]
      omega
    · have hbehind := hwithin d hd
      omega
  | skip hlt _ _ _ _ ih =>
    obtain ⟨hpairwise, hwithin⟩ := ih (by omega) (by omega)
    refine ⟨hpairwise, fun d hd => ?_⟩
    have hbehind := hwithin d hd
    omega
  | _ => exact ⟨.nil, List.forall_mem_nil _⟩

/-- Between brackets they stand in front of the closing sequence. -/
theorem Body.before_closer (h : Body src kind here around i nested last) (hpos : 0 < i)
    (hi : i ≤ src.length) (hkind : kind ≠ .line) :
    ∀ d ∈ nested, d.last.offset + kind.closer.length ≤ last := by
  induction h with
  | nest ho _ _ hbody hstop hrest _ ihr =>
    have hin := le_length_of_openerAt ho
    have hbounds := hbody.bounds (by omega) hin
    have hcloses := hrest.closes (by omega) (by omega) hkind
    refine List.forall_mem_cons.mpr ⟨?_, ihr (by omega) (by omega) hkind⟩
    simp only [Comment.last, offset_of_moveTo hstop]
    omega
  | skip hlt _ _ _ _ ih => exact ih (by omega) (by omega) hkind
  | _ => exact List.forall_mem_nil _

/-- What is read belongs to one of the comments found inside, or it neither begins a comment nor
ends the one around, the closing sequence apart. -/
theorem Body.own (h : Body src kind here around i nested last) (hpos : 0 < i)
    (hi : i ≤ src.length) {k : Nat} (hik : i ≤ k) (hk : k ≤ last)
    (hown : ∀ d ∈ nested, ¬(d.first.offset ≤ k ∧ k ≤ d.last.offset)) :
    openerAt src k = none ∧
      (kind ≠ .line → k + kind.closer.length ≤ last → closedFromOutside src around k = false) := by
  induction h with
  | beforeOpener _ _ => omega
  | nest ho _ hstart hbody hstop hrest _ ihr =>
    have hin := le_length_of_openerAt ho
    have hbounds := hbody.bounds (by omega) hin
    obtain ⟨hfirst, hothers⟩ := List.forall_mem_cons.mp hown
    simp only [Comment.first, Comment.last, offset_of_moveTo hstart, offset_of_moveTo hstop]
      at hfirst
    exact ihr (by omega) (by omega) (by omega) hk hothers
  | beforeCloser _ _ _ => omega
  | endOfLine ho _ _ =>
    obtain rfl : _ = k := Nat.le_antisymm hik hk
    exact ⟨ho, fun hkind => absurd rfl hkind⟩
  | @closed kind here around i _ _ hcloser =>
    have hlen := kind.closer_length_pos
    have hin := Source.le_length_of_startsWithAt kind.closer_ne_nil hcloser
    refine ⟨?_, fun _ hbefore => by omega⟩
    cases hx : src.charAt k with
    | none =>
      have hout := Source.charAt_eq_none_iff.mp hx
      omega
    | some x =>
      exact openerAt_of_mem_closer hx (Source.mem_of_startsWithAt hcloser hik (by omega) hx)
  | @skip kind here around i final nested hlt ho _ hout _ ih =>
    by_cases heq : i = k
    · subst heq
      exact ⟨ho, fun _ _ => hout⟩
    · exact ih (by omega) (by omega) (by omega) hk hown
  | endOfText hle => omega

namespace ReadAt

theorem first_offset (h : ReadAt src around i last c) : c.first.offset = i := by
  have hlt := h.stands.lt
  have hle := h.stands.le
  rw [h.first, Source.offset_place (by omega)]

theorem last_offset (h : ReadAt src around i last c) : c.last.offset = last := by
  have hle := h.stands.le
  rw [h.last, Source.offset_place (by omega)]

/-- The text of a comment that is read begins with the opening sequence. -/
theorem between_eq (h : ReadAt src around i last c) :
    src.between i (last + 1) =
      c.kind.opener ++ src.between (i + c.kind.opener.length) (last + 1) := by
  have hbounds := h.bounds
  obtain ⟨tail, htail⟩ := Source.startsWithAt_iff.mp (startsWithAt_of_openerAt h.opener)
  rw [← Source.between_append (Nat.le_add_right i _) hbounds.1, Source.between_of_rest htail.symm]

/-- Between brackets it ends with the closing sequence. -/
theorem between_eq_of_brackets (h : ReadAt src around i last c) (hkind : c.kind ≠ .line) :
    ∃ body, src.between i (last + 1) = c.kind.opener ++ body ++ c.kind.closer := by
  have hlen := c.kind.opener_length_pos
  obtain ⟨hle, hcloser⟩ := h.body.closes (by omega) (le_length_of_openerAt h.opener) hkind
  obtain ⟨tail, htail⟩ := Source.startsWithAt_iff.mp hcloser
  have hend := Source.between_of_rest htail.symm
  rw [show last + 1 - c.kind.closer.length + c.kind.closer.length = last + 1 by omega] at hend
  have hsplit : i + c.kind.opener.length ≤ last + 1 - c.kind.closer.length := by omega
  exact ⟨src.between (i + c.kind.opener.length) (last + 1 - c.kind.closer.length), by
    rw [h.between_eq, ← Source.between_append hsplit (Nat.sub_le _ _), hend, List.append_assoc]⟩

/-- What the comment has of its own neither begins a comment nor ends the one around. -/
theorem own (h : ReadAt src around i last c) {k : Nat} (hk : c.Owns k) :
    openerAt src k = none ∧
      (c.kind ≠ .line → k + c.kind.closer.length ≤ last →
        closedFromOutside src around k = false) := by
  have hlen := c.kind.opener_length_pos
  obtain ⟨hopened, hle, hnested⟩ := hk
  rw [h.first_offset] at hopened
  rw [h.last_offset] at hle
  exact h.body.own (by omega) (le_length_of_openerAt h.opener) hopened hle hnested

/-- A newline ends a line comment inside another comment, which is not a line comment. -/
theorem newline_of_line (h : ReadAt src around i last c) (hkind : c.kind = .line)
    (ha : around.isSome = true) {k : Nat} (hik : i ≤ k) (hk : k ≤ last)
    (hc : src.charAt k = some '\n') : around ≠ some .line ∧ k = last := by
  rcases h.newline hik hk hc with ⟨d, hd, -⟩ | ⟨hno, hend⟩
  · rw [h.body.nested_eq_nil hkind ha] at hd
    cases hd
  · exact ⟨hno, hend hkind⟩

/-- A comment that is read is nested as it should be. -/
theorem wellNested (h : ReadAt src around i last c) : c.WellNested src around := by
  have hlen := c.kind.opener_length_pos
  have hin := le_length_of_openerAt h.opener
  have htext := h.stands.textOf
  obtain ⟨hordered, hwithin⟩ := h.body.in_order (by omega) hin
  constructor
  case opens =>
    refine ⟨_, htext, ?_⟩
    rw [String.toList_ofList, h.between_eq]
    exact List.prefix_append _ _
  case closes =>
    intro hkind
    obtain ⟨body, hbody⟩ := h.between_eq_of_brackets hkind
    exact ⟨body, hbody ▸ htext⟩
  case in_order => exact hordered
  case behind_opener =>
    rw [h.first_offset]
    exact fun d hd => (hwithin d hd).1
  case within =>
    rw [h.last_offset]
    exact fun d hd => (hwithin d hd).2
  case before_closer =>
    rw [h.last_offset]
    exact fun hkind => h.body.before_closer (by omega) hin hkind
  case misses_none =>
    intro k hk kind hprefix
    have hopener := openerAt_of_startsWithAt (Source.startsWithAt_iff.mpr hprefix)
    rw [(h.own hk).1] at hopener
    cases hopener
  case not_cut_short =>
    rw [h.last_offset]
    rintro hkind outer ⟨⟩ k hk hbefore hprefix
    have hcloser : closedFromOutside src (some outer) k = true :=
      Source.startsWithAt_iff.mpr hprefix
    rw [(h.own hk).2 hkind hbefore] at hcloser
    cases hcloser
  case line_in_comment =>
    intro hkind ha
    refine ⟨h.body.nested_eq_nil hkind ha, (Comment.staysOnLine_iff h.stands).mpr ?_⟩
    intro k hik hk hc
    have hend := (h.newline_of_line hkind ha hik (by omega) hc).2
    omega
  case line_in_line =>
    rintro hkind rfl
    rw [Comment.holdsNewline_iff h.stands]
    rintro ⟨k, hik, hk, hc⟩
    exact (h.newline_of_line hkind rfl hik (by omega) hc).1 rfl

/-- Every comment of the tree is read inside the one around it. -/
theorem of_occurs (h : ReadAt src none i last c) {d : Comment} (hd : c.Occurs around d) :
    ∃ j final, ReadAt src around j final d := by
  induction hd with
  | root => exact ⟨i, last, h⟩
  | nested _ hmem ih =>
    obtain ⟨j, final, houter⟩ := ih
    obtain ⟨j', final', hread, -⟩ := houter.of_mem_nested hmem
    exact ⟨j', final', hread⟩

end ReadAt

end Grammar

/-- Where a comment is found, every comment of its tree is spelled and nested as it should be. -/
theorem Comment.wellNested_of_occurs {src : Source} {i : Nat} {here : Position} {c : Comment}
    (hhere : src.positionOf i = .ok here) (hfound : Grammar.comment src here = .found c)
    {around : Option CommentKind} {d : Comment} (hd : c.Occurs around d) :
    d.WellNested src around := by
  obtain ⟨hi, rfl⟩ := Source.eq_place_of_positionOf hhere
  obtain ⟨last, hread⟩ := Grammar.readAt_of_comment hi hfound
  obtain ⟨j, final, hd⟩ := hread.of_occurs hd
  exact hd.wellNested

/-- A comment in a comment in a line comment, which ends with its line. -/
theorem Comment.wellNested_of_occurs_brackets :
    (Source.mk #['/', '/', '{', '(', '*', 'a', '*', ')', '}', '\n', 'b'] (by decide)).positionOf 0 =
        .ok .origin ∧
      ∃ c outer d, Grammar.comment
          (Source.mk #['/', '/', '{', '(', '*', 'a', '*', ')', '}', '\n', 'b'] (by decide)) .origin =
            .found c ∧ outer ∈ c.nested ∧ d ∈ outer.nested ∧ c.Occurs (some outer.kind) d ∧
        d.WellNested
          (Source.mk #['/', '/', '{', '(', '*', 'a', '*', ')', '}', '\n', 'b'] (by decide))
          (some outer.kind) := by
  refine ⟨rfl, _, _, _, rfl, List.mem_cons_self, List.mem_cons_self, ?_, ?_⟩
  · exact .nested (.nested .root List.mem_cons_self) List.mem_cons_self
  · exact wellNested_of_occurs (i := 0) rfl rfl
      (.nested (.nested .root List.mem_cons_self) List.mem_cons_self)

end Reckon
