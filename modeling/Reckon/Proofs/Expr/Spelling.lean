import Reckon.Expr.Spelling
import Reckon.Proofs.Lexer.Tiling

/-! What becomes of a text that is cut into the items of an expression. A string literal is refused
before anything else is, and then a character that stopped the lexer. A text without either loses
nothing but its layout: its items are copies of the text they stand on, and every character that
belongs to none of them belongs to white space or to a comment. -/

namespace Reckon

def Token.isString : Token → Bool
  | .string _ => true
  | _ => false

/-- White space and comments. -/
def Token.isLayout : Token → Bool
  | .comment _ => true
  | t => t.isWhiteSpace

/-- The item holds the text it stands on. -/
def Item.IsCopy (src : Source) (u : Item) : Prop := src.textOf (Spanned.span u) = .ok u.text

/-- The items hold the text from offset `i` up to offset `j`, which consists of `tokens`, without
its layout. They stand on it one before the other, and every character of it belongs either to
exactly one of them or to a token of layout. -/
structure KeepsText (src : Source) (i j : Nat) (tokens : List Token) (items : List Item) :
    Prop where
  stands : ∀ u ∈ items, ∃ a b, i ≤ a ∧ b ≤ j ∧ Stands src a b u
  apart : items.Pairwise fun u v => u.last.offset < v.first.offset
  copies : ∀ u ∈ items, u.IsCopy src
  covers : ∀ k, items.countP (Spanned.covers k) +
    (tokens.filter Token.isLayout).countP (Spanned.covers k) = if i ≤ k ∧ k < j then 1 else 0

namespace KeepsText

variable {src : Source} {i m j : Nat} {ts us : List Token} {is js : List Item}

theorem nil : KeepsText src i i [] [] where
  stands := List.forall_mem_nil _
  apart := .nil
  copies := List.forall_mem_nil _
  covers k := by
    rw [if_neg (by omega)]
    rfl

theorem append (h : KeepsText src i m ts is) (h' : KeepsText src m j us js) (him : i ≤ m)
    (hmj : m ≤ j) : KeepsText src i j (ts ++ us) (is ++ js) where
  stands := by
    intro u hu
    rcases List.mem_append.mp hu with hu | hu
    · obtain ⟨a, b, ha, hb, hs⟩ := h.stands u hu
      exact ⟨a, b, ha, by omega, hs⟩
    · obtain ⟨a, b, ha, hb, hs⟩ := h'.stands u hu
      exact ⟨a, b, by omega, hb, hs⟩
  apart := by
    refine List.pairwise_append.mpr ⟨h.apart, h'.apart, fun u hu v hv => ?_⟩
    obtain ⟨a, b, -, hb, hs⟩ := h.stands u hu
    obtain ⟨a', b', ha', -, hs'⟩ := h'.stands v hv
    exact hs.last_lt_first hs' (by omega)
  copies := List.forall_mem_append.mpr ⟨h.copies, h'.copies⟩
  covers k := by
    have hleft := h.covers k
    have hright := h'.covers k
    rw [List.filter_append, List.countP_append, List.countP_append]
    split_ifs at hleft hright ⊢ <;> omega

/-- A token of layout leaves no item. -/
theorem layout {t : Token} (hs : Stands src i j t) (ht : t.isLayout = true) :
    KeepsText src i j [t] [] where
  stands := List.forall_mem_nil _
  apart := .nil
  copies := List.forall_mem_nil _
  covers k := by
    rw [List.filter_singleton, ht, cond_true, List.countP_nil, Nat.zero_add, List.countP_singleton]
    simp only [hs.covers_iff]

/-- The items of any other token tile the text it stands on. -/
theorem solid {t : Token} (h : Tiles src (Item.IsCopy src) i j is) (ht : t.isLayout = false) :
    KeepsText src i j [t] is where
  stands := h.exists_stands
  apart := h.pairwise_lt
  copies := h.forall_mem
  covers k := by
    rw [List.filter_singleton, ht]
    exact h.countP_covers k

end KeepsText

namespace Token

variable {src : Source} {i j : Nat} {t : Token}

theorem IsTiled.tiles (h : t.IsTiled src) (hs : Stands src i j t) (hcomment : ∀ c, t ≠ .comment c) :
    Tiles src (Leaf.IsCopy src) i j t.leaves := by
  have hleaves := h hcomment
  obtain ⟨hlt, hle, hfirst, hlast⟩ := hs
  rwa [hfirst, hlast, Source.offset_place (by omega), Source.offset_place (by omega),
    show j - 1 + 1 = j by omega] at hleaves

/-- The item of a leaf is a copy of the text if the leaf is one. -/
theorem tiles_item {ls : List Leaf} (h : Tiles src (Leaf.IsCopy src) i j ls) (kind : ItemKind) :
    Tiles src (Item.IsCopy src) i j (ls.map fun l => ⟨kind, l.text, l.first, l.last⟩) :=
  h.map _ (fun _ => rfl) (fun _ => rfl) fun _ hl => hl

/-- The sign of a number and the number without its sign stand one after the other. -/
theorem items_number {n : Number} (h : Tiles src (Leaf.IsCopy src) i j n.leaves) :
    ∃ is, (Token.number n).items src = .ok is ∧ Tiles src (Item.IsCopy src) i j is := by
  obtain ⟨m, hsign, hmagnitude⟩ := h.split
  have hs : Stands src m j n.magnitude :=
    hmagnitude.stands (hmagnitude.lt_of_ne_nil (Solid.leaves_ne_nil n.magnitude))
  have hliteral : Tiles src (Item.IsCopy src) m j
      [⟨.literal, String.ofList (src.between m j), Spanned.first n.magnitude,
        Spanned.last n.magnitude⟩] :=
    .singleton ⟨hs.lt, hs.le, hs.first, hs.last⟩ hs.textOf
  refine ⟨_, ?_, (tiles_item hsign .operator).append hliteral⟩
  rw [Token.items]
  simp only [hs.textOf]
  rfl

/-- A token other than a string literal is not refused, and its items hold its text. -/
theorem items_keepsText (hs : Stands src i j t) (htiled : t.IsTiled src) (hkind : t.IsOfKind)
    (hstring : t.isString = false) :
    ∃ is, t.items src = .ok is ∧ KeepsText src i j [t] is := by
  cases t with
  | comment c => exact ⟨[], rfl, .layout hs rfl⟩
  | string s => cases hstring
  | number n =>
    obtain ⟨is, his, htiles⟩ := items_number (htiled.tiles hs nofun)
    exact ⟨is, his, .solid htiles rfl⟩
  | leaf l =>
    have hleaf := htiled.tiles hs nofun
    have hlayout : (Token.leaf l).isLayout = (l.kind == .whiteSpace) := rfl
    rw [Token.items]
    rcases hkind with hkind | hkind | hkind <;> rw [hkind] at hlayout ⊢
    · exact ⟨[], rfl, .layout hs hlayout⟩
    · exact ⟨_, rfl, .solid (tiles_item hleaf .name) hlayout⟩
    · exact ⟨_, rfl, .solid (tiles_item hleaf (symbolKind l.text)) hlayout⟩

/-- Tokens among which there is no string literal are not refused, and their items hold the text
they tile. -/
theorem itemsAll_keepsText {ts : List Token} (h : Tiles src (Token.IsTiled src) i j ts)
    (hkinds : ∀ t ∈ ts, t.IsOfKind) (hstring : ∀ t ∈ ts, t.isString = false) :
    ∃ is, itemsAll src ts = .ok is ∧ KeepsText src i j ts is := by
  induction h with
  | nil _ => exact ⟨[], rfl, .nil⟩
  | @cons i m j t ts hs ht hts ih =>
    obtain ⟨hkind, hkinds⟩ := List.forall_mem_cons.mp hkinds
    obtain ⟨hno, hstring⟩ := List.forall_mem_cons.mp hstring
    obtain ⟨is, his, hkeeps⟩ := items_keepsText hs ht hkind hno
    obtain ⟨js, hjs, hkeeps'⟩ := ih hkinds hstring
    refine ⟨is ++ js, ?_, hkeeps.append hkeeps' (Nat.le_of_lt hs.lt) hts.le⟩
    rw [itemsAll, his]
    simp only [hjs]

/-- What is refused is refused whatever comes after it. -/
theorem itemsAll_of_refused {ts us : List Token} {is : List Item} {e : ParseError}
    (hts : itemsAll src ts = .ok is) (ht : t.items src = .error e) :
    itemsAll src (ts ++ t :: us) = .error e := by
  induction ts generalizing is with
  | nil =>
    rw [List.nil_append, itemsAll, ht]
  | cons u ts ih =>
    rw [itemsAll] at hts
    rw [List.cons_append, itemsAll]
    cases hu : u.items src with
    | error e' =>
      rw [hu] at hts
      cases hts
    | ok out =>
      rw [hu] at hts
      cases hrest : itemsAll src ts with
      | error e' =>
        simp only [hrest] at hts
        cases hts
      | ok more => simp only [ih hrest]

end Token

section Text

variable {src : Source} {tokens : List Token} {lx : Lexer}

theorem itemsOf_of_refused {e : ParseError} (hrun : (Lexer.start src).remaining = (.ok tokens, lx))
    (h : Token.itemsAll src tokens = .error e) : itemsOf src = .error e := by
  rw [itemsOf, hrun]
  simp only [h]

theorem itemsOf_of_char {items : List Item} {c : Char}
    (hrun : (Lexer.start src).remaining = (.ok tokens, lx))
    (h : Token.itemsAll src tokens = .ok items) (hc : lx.currentChar = some c) :
    itemsOf src = .error (.unexpectedCharacter c lx.position) := by
  rw [itemsOf, hrun]
  simp only [h, hc]

theorem itemsOf_of_items {items : List Item} (hrun : (Lexer.start src).remaining = (.ok tokens, lx))
    (h : Token.itemsAll src tokens = .ok items) (hc : lx.currentChar = none) :
    itemsOf src = .ok items := by
  rw [itemsOf, hrun]
  simp only [h, hc]

/-- The first string literal is refused, since nothing before it is. -/
theorem itemsOf_of_string {s : Token} (hrun : (Lexer.start src).remaining = (.ok tokens, lx))
    (hread : Lexer.HasRead src 0 tokens lx) (hkinds : ∀ t ∈ tokens, t.IsOfKind)
    (hs : tokens.find? Token.isString = some s) :
    itemsOf src = .error (.unknownTokenType "character string" (Spanned.first s)) := by
  obtain ⟨hstring, before, after, rfl, hbefore⟩ := List.find?_eq_some_iff_append.mp hs
  have hitem : s.items src =
      .error (.unknownTokenType "character string" (Spanned.first s)) := by
    cases s with
    | string literal => rfl
    | leaf l => cases hstring
    | number n => cases hstring
    | comment c => cases hstring
  obtain ⟨m, htiles, -⟩ := hread.tiles.split
  obtain ⟨items, hitems, -⟩ := Token.itemsAll_keepsText htiles
    (fun t ht => hkinds t (List.mem_append_left _ ht))
    (fun t ht => by simpa using hbefore t ht)
  exact itemsOf_of_refused hrun (Token.itemsAll_of_refused hitems hitem)

end Text

/-- If there is a string literal among the tokens of a text, the first of them is refused where it
begins. If there is none but the lexer stopped before the end of the text, the character that
stopped it is refused. Otherwise the text has items that hold all of it but its layout. There is no
other error. -/
theorem itemsOf_keepsText (src : Source) :
    ∃ tokens lx, (Lexer.start src).remaining = (.ok tokens, lx) ∧
      (∀ s, tokens.find? Token.isString = some s →
        itemsOf src = .error (.unknownTokenType "character string" (Spanned.first s))) ∧
      (tokens.find? Token.isString = none → lx.isExhausted = false →
        ∃ c, lx.currentChar = some c ∧ itemsOf src = .error (.unexpectedCharacter c lx.position)) ∧
      (tokens.find? Token.isString = none → lx.isExhausted = true →
        ∃ items, itemsOf src = .ok items ∧ KeepsText src 0 src.length tokens items) ∧
      ∀ e, itemsOf src = .error e →
        (∃ s, tokens.find? Token.isString = some s ∧
          e = .unknownTokenType "character string" (Spanned.first s)) ∨
        ∃ c, lx.currentChar = some c ∧ e = .unexpectedCharacter c lx.position := by
  obtain ⟨tokens, lx, hrun, hread, hkinds⟩ := Lexer.exists_remaining src
  have hstring : ∀ s, tokens.find? Token.isString = some s →
      itemsOf src = .error (.unknownTokenType "character string" (Spanned.first s)) :=
    fun s hs => itemsOf_of_string hrun hread hkinds hs
  have hitems : tokens.find? Token.isString = none → ∃ items,
      Token.itemsAll src tokens = .ok items ∧
        KeepsText src 0 lx.position.offset tokens items := by
    intro hnone
    refine Token.itemsAll_keepsText hread.tiles hkinds fun t ht => ?_
    have hno := List.find?_eq_none.mp hnone t ht
    rwa [Bool.not_eq_true] at hno
  refine ⟨tokens, lx, hrun, hstring, ?_, ?_, ?_⟩
  · intro hnone hstopped
    obtain ⟨items, hall, -⟩ := hitems hnone
    cases hc : lx.currentChar with
    | none =>
      rw [Lexer.currentChar_eq_none_iff.mp hc] at hstopped
      cases hstopped
    | some c => exact ⟨c, rfl, itemsOf_of_char hrun hall hc⟩
  · intro hnone hended
    obtain ⟨items, hall, hkeeps⟩ := hitems hnone
    have hle := hread.tiles.le_length
    have hge : src.length ≤ lx.position.offset := by
      rw [← hread.source]
      exact of_decide_eq_true hended
    rw [Nat.le_antisymm hle hge] at hkeeps
    exact ⟨items, itemsOf_of_items hrun hall (Lexer.currentChar_eq_none_iff.mpr hended), hkeeps⟩
  · intro e he
    cases hs : tokens.find? Token.isString with
    | some s =>
      have he' := he.symm.trans (hstring s hs)
      exact .inl ⟨s, rfl, Except.error.inj he'⟩
    | none =>
      obtain ⟨items, hall, -⟩ := hitems hs
      cases hc : lx.currentChar with
      | none =>
        rw [itemsOf_of_items hrun hall hc] at he
        cases he
      | some c =>
        rw [itemsOf_of_char hrun hall hc] at he
        exact .inr ⟨c, rfl, (Except.error.inj he).symm⟩

/-- A sign, the number it is not part of, and a comment behind it. -/
theorem itemsOf_keepsText_sign :
    ∃ tokens items, itemsOf (Source.mk #['-', '1', '{', '}'] (by decide)) = .ok items ∧
      KeepsText (Source.mk #['-', '1', '{', '}'] (by decide)) 0 4 tokens items ∧
      tokens.length = 2 ∧ items.map Item.text = ["-", "1"] := by
  obtain ⟨tokens, lx, hrun, -, -, hitems, -⟩ :=
    itemsOf_keepsText (Source.mk #['-', '1', '{', '}'] (by decide))
  obtain ⟨n, w, hlex⟩ : ∃ n w,
      (Lexer.start (Source.mk #['-', '1', '{', '}'] (by decide))).remaining =
        (.ok [.number n, .comment w],
          ⟨Source.mk #['-', '1', '{', '}'] (by decide), ⟨0, 4, 4⟩, false, ⟨2, 0, 4⟩⟩) :=
    ⟨_, _, rfl⟩
  obtain ⟨htokens, rfl⟩ := Prod.mk.inj (hlex.symm.trans hrun)
  obtain rfl := Except.ok.inj htokens
  obtain ⟨items, hok, hkeeps⟩ := hitems rfl rfl
  have hread : itemsOf (Source.mk #['-', '1', '{', '}'] (by decide)) =
      .ok [⟨.operator, "-", ⟨0, 0, 0⟩, ⟨0, 0, 0⟩⟩, ⟨.literal, "1", ⟨0, 1, 1⟩, ⟨0, 1, 1⟩⟩] := rfl
  obtain rfl := Except.ok.inj (hok.symm.trans hread)
  exact ⟨_, _, hok, hkeeps, rfl, rfl⟩

end Reckon
