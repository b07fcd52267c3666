import Reckon.Proofs.Expr.Names
import Reckon.Proofs.Grammar.Longest
import Reckon.Proofs.Lexer.Found
import Reckon.Proofs.Lexer.Kinds

/-! The dump of a tree shows the tree and no other. Nothing is escaped in it, so a leaf may be
written with the signs of operators or with the words that name the kinds of nodes. But as long as
no leaf holds a closing parenthesis, the first one behind a leaf ends it; the word in front of a
node tells its kind, and each node ends before what follows it begins. The leaves of what is read
from a text are names and numbers, which hold no parenthesis. -/

namespace Reckon

theorem Operator.symbol_injective : Function.Injective Operator.symbol := by
  intro op op' h
  cases op <;> cases op' <;> first | rfl | exact absurd h (by decide)

namespace Expr

/-- The texts of the leaves from left to right. -/
def leafTexts : Expr → List String
  | .literal text => [text]
  | .name text => [text]
  | .binary left _ right => leafTexts left ++ leafTexts right
  | .paren inner => leafTexts inner

/-- No leaf holds the character that ends a leaf where the tree is shown. -/
def LeavesClosed (e : Expr) : Prop := ∀ text ∈ e.leafTexts, ')' ∉ text.toList

instance (e : Expr) : Decidable e.LeavesClosed :=
  inferInstanceAs (Decidable (∀ text ∈ e.leafTexts, ')' ∉ text.toList))

@[simp] theorem toList_dump_literal (text : String) :
    (literal text).dump.toList = 'L' :: 'i' :: 't' :: '(' :: (text.toList ++ [')']) := by
  simp [dump]

@[simp] theorem toList_dump_name (text : String) :
    (name text).dump.toList = 'V' :: 'a' :: 'r' :: '(' :: (text.toList ++ [')']) := by
  simp [dump]

@[simp] theorem toList_dump_binary (left right : Expr) (op : Operator) :
    (binary left op right).dump.toList = 'B' :: 'i' :: 'n' :: '(' ::
      (left.dump.toList ++ op.symbol :: (right.dump.toList ++ [')'])) := by
  simp [dump, Operator.text]

@[simp] theorem toList_dump_paren (inner : Expr) :
    (paren inner).dump.toList = 'P' :: 'a' :: 'r' :: '(' :: (inner.dump.toList ++ [')']) := by
  simp [dump]

end Expr

/-- What stands before the first closing parenthesis, and what stands behind it. -/
theorem closing_append_inj {cs ds s t : List Char} (hcs : ')' ∉ cs) (hds : ')' ∉ ds)
    (h : cs ++ ')' :: s = ds ++ ')' :: t) : cs = ds ∧ s = t := by
  have htake : ∀ {us vs : List Char}, ')' ∉ us → (us ++ ')' :: vs).takeWhile (· != ')') = us := by
    intro us vs hus
    rw [List.takeWhile_append_of_pos fun c hc => bne_iff_ne.mpr (ne_of_mem_of_not_mem hc hus)]
    exact List.append_nil us
  obtain rfl : cs = ds := by
    calc cs = (cs ++ ')' :: s).takeWhile (· != ')') := (htake hcs).symm
      _ = (ds ++ ')' :: t).takeWhile (· != ')') := by rw [h]
      _ = ds := htake hds
  exact ⟨rfl, List.tail_eq_of_cons_eq (List.append_cancel_left h)⟩

namespace Expr

/-- What a dump is followed by does not matter: it ends by itself. -/
theorem eq_of_dump_append {e f : Expr} (he : e.LeavesClosed) (hf : f.LeavesClosed)
    {s t : List Char} (h : e.dump.toList ++ s = f.dump.toList ++ t) : e = f ∧ s = t := by
  induction e generalizing f s t with
  | literal text =>
    cases f with
    | literal text' =>
      simp only [toList_dump_literal, List.cons_append, List.append_assoc, List.nil_append,
        List.cons.injEq, true_and] at h
      obtain ⟨htext, rfl⟩ := closing_append_inj (he text List.mem_cons_self)
        (hf text' List.mem_cons_self) h
      exact ⟨congrArg literal (String.toList_injective htext), rfl⟩
    | _ => simp at h
  | name text =>
    cases f with
    | name text' =>
      simp only [toList_dump_name, List.cons_append, List.append_assoc, List.nil_append,
        List.cons.injEq, true_and] at h
      obtain ⟨htext, rfl⟩ := closing_append_inj (he text List.mem_cons_self)
        (hf text' List.mem_cons_self) h
      exact ⟨congrArg name (String.toList_injective htext), rfl⟩
    | _ => simp at h
  | binary left op right ihl ihr =>
    cases f with
    | binary left' op' right' =>
      obtain ⟨hel, her⟩ := List.forall_mem_append.mp he
      obtain ⟨hfl, hfr⟩ := List.forall_mem_append.mp hf
      simp only [toList_dump_binary, List.cons_append, List.append_assoc, List.nil_append,
        List.cons.injEq, true_and] at h
      obtain ⟨rfl, hbehind⟩ := ihl hel hfl h
      obtain ⟨hop, hright⟩ := List.cons.inj hbehind
      obtain rfl := Operator.symbol_injective hop
      obtain ⟨rfl, hend⟩ := ihr her hfr hright
      exact ⟨rfl, List.tail_eq_of_cons_eq hend⟩
    | _ => simp at h
  | paren inner ih =>
    cases f with
    | paren inner' =>
      simp only [toList_dump_paren, List.cons_append, List.append_assoc, List.nil_append,
        List.cons.injEq, true_and] at h
      obtain ⟨rfl, hbehind⟩ := ih (f := inner') he hf h
      exact ⟨rfl, List.tail_eq_of_cons_eq hbehind⟩
    | _ => simp at h

end Expr

/-! The leaves of what is read from a text. -/

/-- No character of a run is one that fails the test. -/
theorem IsRun.not_mem {test : Char → Bool} {cs : List Char} {c : Char} (h : IsRun test cs)
    (hc : test c = false) : c ∉ cs := by
  intro hmem
  rw [h.all c hmem] at hc
  cases hc

theorem FractionWord.not_mem_closing {cs : List Char} (h : FractionWord cs) : ')' ∉ cs := by
  cases h with
  | absent => exact List.not_mem_nil
  | digits hds => simpa using hds.not_mem (c := ')') rfl

theorem ScaleWord.not_mem_closing {cs : List Char} (h : ScaleWord cs) : ')' ∉ cs := by
  cases h with
  | absent => exact List.not_mem_nil
  | unsigned hmarker hds =>
    have hdigits := hds.not_mem (c := ')') rfl
    rcases hmarker with rfl | rfl <;> simpa using hdigits
  | signed hmarker hsign hds =>
    have hdigits := hds.not_mem (c := ')') rfl
    rcases hmarker with rfl | rfl <;> rcases hsign with rfl | rfl <;> simpa using hdigits

theorem UnsignedWord.not_mem_closing {cs : List Char} (h : UnsignedWord cs) : ')' ∉ cs := by
  cases h with
  | decimal hds hfs hss =>
    simp only [List.mem_append, not_or]
    exact ⟨hds.not_mem rfl, hfs.not_mem_closing, hss.not_mem_closing⟩
  | binary hds => simpa using hds.not_mem (c := ')') rfl
  | octal hds => simpa using hds.not_mem (c := ')') rfl
  | hexadecimal hds => simpa using hds.not_mem (c := ')') rfl

theorem Magnitude.IsSpelled.unsignedWord {m : Magnitude} {cs : List Char} (h : m.IsSpelled cs) :
    UnsignedWord cs := by
  cases m with
  | whole n => exact WholeNumber.IsSpelled.unsignedWord h
  | real n =>
    obtain ⟨-, hds, hfs, hss, -⟩ := h
    exact .decimal hds (fractionWord_of_ifAny hfs) (scaleWord_of_ifAny hss)

/-- An item that becomes a leaf does not hold the character that ends a leaf. -/
def Item.IsClosed (u : Item) : Prop := u.kind = .literal ∨ u.kind = .name → ')' ∉ u.text.toList

namespace Token

variable {src : Source} {i j : Nat} {t : Token} {ts : List Token} {is : List Item}

/-- A number becomes its sign, which is an operator, and a literal that has no sign. -/
theorem items_number_closed {here : Position} {n : Number}
    (h : Grammar.number src here = .found n) (his : (Token.number n).items src = .ok is) :
    ∀ u ∈ is, u.IsClosed := by
  obtain ⟨next, hm⟩ := Grammar.magnitude_of_number h
  obtain ⟨cs, hspelled, hrow⟩ := Grammar.spells_magnitude hm
  have hne : cs ≠ [] := mt hrow.eq_nil_iff.mpr (Solid.leaves_ne_nil n.magnitude)
  rw [items, hrow.textOf hne] at his
  obtain rfl := Except.ok.inj his
  intro u hu
  rcases List.mem_append.mp hu with hu | hu
  · obtain ⟨s, -, rfl⟩ := List.mem_map.mp hu
    rintro (hkind | hkind) <;> cases hkind
  · obtain rfl := List.mem_singleton.mp hu
    intro _
    rw [String.toList_ofList]
    exact hspelled.unsignedWord.not_mem_closing

theorem items_closed (hi : i ≤ src.length) (h : Lexer.FoundAt src (src.place i) t)
    (his : t.items src = .ok is) : ∀ u ∈ is, u.IsClosed := by
  cases h with
  | @whiteSpace l hl =>
    rw [items, Grammar.makes_whiteSpace _ _ _ hl] at his
    obtain rfl := Except.ok.inj his
    exact List.forall_mem_nil _
  | number hn => exact items_number_closed hn his
  | @identifier l hl =>
    rw [items, Grammar.makes_identifier _ _ _ hl] at his
    obtain rfl := Except.ok.inj his
    obtain ⟨_, cs, hname, -, htext, -⟩ := Grammar.exists_name_of_identifier hi hl
    refine List.forall_mem_singleton.mpr fun _ hmem => ?_
    rw [htext, String.toList_ofList] at hmem
    exact absurd (Grammar.isNamePart_of_isName hname _ hmem) (by decide)
  | comment _ =>
    obtain rfl := Except.ok.inj his
    exact List.forall_mem_nil _
  | string _ => cases his
  | @specialSymbol l hl =>
    rw [items, Grammar.makes_specialSymbol _ _ _ hl] at his
    obtain rfl := Except.ok.inj his
    refine List.forall_mem_singleton.mpr fun hkind => ?_
    dsimp only [symbolKind] at hkind
    split_ifs at hkind <;> simp at hkind

theorem itemsAll_closed (h : Tiles src (IsFound src) i j ts) (his : itemsAll src ts = .ok is) :
    ∀ u ∈ is, u.IsClosed := by
  induction h generalizing is with
  | nil _ =>
    obtain rfl := Except.ok.inj his
    exact List.forall_mem_nil _
  | @cons i m j t ts hs ht hts ih =>
    rw [itemsAll] at his
    cases hitems : t.items src with
    | error e =>
      rw [hitems] at his
      cases his
    | ok out =>
      rw [hitems] at his
      cases hrest : itemsAll src ts with
      | error e =>
        simp only [hrest] at his
        cases his
      | ok more =>
        simp only [hrest] at his
        obtain rfl := Except.ok.inj his
        have hle := hs.le
        have hlt := hs.lt
        rw [IsFound, hs.first] at ht
        have hfound := Lexer.foundAt_of_anyToken ht
        exact List.forall_mem_append.mpr ⟨items_closed (by omega) hfound hitems, ih hrest⟩

end Token

/-- The items of a text are those of the tokens that are found in it. -/
theorem exists_run_of_itemsOf {src : Source} {items : List Item} (h : itemsOf src = .ok items) :
    ∃ j tokens, Lexer.Run src 0 j tokens ∧ Token.itemsAll src tokens = .ok items := by
  unfold itemsOf at h
  rcases hread : (Lexer.start src).remaining with ⟨result, lx⟩
  rw [hread] at h
  cases result with
  | error cause => cases h
  | ok tokens =>
    obtain ⟨j, hrun, -⟩ := Lexer.run_of_remaining hread
    refine ⟨j, tokens, hrun, ?_⟩
    cases hall : Token.itemsAll src tokens with
    | error e =>
      simp only [hall] at h
      cases h
    | ok out =>
      simp only [hall] at h
      cases hc : lx.currentChar with
      | some c =>
        rw [hc] at h
        cases h
      | none =>
        rw [hc] at h
        exact h

namespace Expr

variable {e : Expr}

/-- Every leaf is a lexeme. -/
theorem exists_lexeme_of_leaf {text : String} (h : text ∈ e.leafTexts) :
    ∃ l ∈ e.lexemes, (l.kind = .literal ∨ l.kind = .name) ∧ l.text = text := by
  induction e with
  | literal text' =>
    obtain rfl := List.mem_singleton.mp h
    exact ⟨_, List.mem_cons_self, .inl rfl, rfl⟩
  | name text' =>
    obtain rfl := List.mem_singleton.mp h
    exact ⟨_, List.mem_cons_self, .inr rfl, rfl⟩
  | binary left op right ihl ihr =>
    rcases List.mem_append.mp h with hleft | hright
    · obtain ⟨l, hl, hleaf⟩ := ihl hleft
      exact ⟨l, List.mem_append_left _ hl, hleaf⟩
    · obtain ⟨l, hl, hleaf⟩ := ihr hright
      exact ⟨l, List.mem_append_right _ (List.mem_cons_of_mem _ hl), hleaf⟩
  | paren inner ih =>
    obtain ⟨l, hl, hleaf⟩ := ih h
    exact ⟨l, List.mem_append_left _ (List.mem_cons_of_mem _ hl), hleaf⟩

theorem leavesClosed_of_parse {src : Source} (h : parse src = .ok e) : e.LeavesClosed := by
  obtain ⟨items, hitems, hlexemes⟩ := exists_items_of_parse h
  intro text htext
  obtain ⟨l, hl, hkind, rfl⟩ := exists_lexeme_of_leaf htext
  rw [← hlexemes] at hl
  obtain ⟨u, hu, rfl⟩ := List.mem_map.mp hl
  rw [Item.kind_lexeme] at hkind
  have hlexeme : u.lexeme = ⟨u.kind, u.text⟩ := by
    apply Item.lexeme_of_ne <;> rcases hkind with hkind | hkind <;> simp [hkind]
  obtain ⟨j, tokens, hrun, hall⟩ := exists_run_of_itemsOf hitems
  rw [hlexeme]
  exact Token.itemsAll_closed hrun.tiles hall u hu hkind

/-- Trees without closing parentheses in their leaves are told apart by their dumps, whatever else
is written in the leaves. So are the trees of any two texts that are read. -/
theorem dump_injective :
    (∀ e f : Expr, e.LeavesClosed → f.LeavesClosed → e.dump = f.dump → e = f) ∧
    (∀ (src src' : Source) (e f : Expr), parse src = .ok e → parse src' = .ok f →
      e.dump = f.dump → e = f) := by
  have hclosed : ∀ e f : Expr, e.LeavesClosed → f.LeavesClosed → e.dump = f.dump → e = f := by
    intro e f he hf hdump
    have htext : e.dump.toList ++ [] = f.dump.toList ++ [] := by rw [hdump]
    exact (eq_of_dump_append he hf htext).1
  refine ⟨hclosed, fun src src' e f he hf hdump => ?_⟩
  exact hclosed e f (leavesClosed_of_parse he) (leavesClosed_of_parse hf) hdump

/-- Leaves that look like parts of a dump, and one expression in two layouts. -/
theorem dump_injective_signs :
    (∃ e f : Expr, e = .binary (.literal "2.5e-3") .minus (.name "$Lit(E+Var(1") ∧
      e.LeavesClosed ∧ f.LeavesClosed ∧ e.dump = "Bin(Lit(2.5e-3)-Var($Lit(E+Var(1))" ∧
      f.dump = "Bin(Lit(2.5e-3)-Var($Lit(E+Var(1))" ∧ e = f) ∧
    (∃ src src' e f, src = Source.mk #['a', '*', '(', 'b', ')'] (by decide) ∧
      src' = Source.mk #['a', ' ', '*', '(', 'b', ')'] (by decide) ∧ parse src = .ok e ∧
      parse src' = .ok f ∧ e.dump = f.dump ∧ f = .binary (.name "a") .times (.paren (.name "b")) ∧
      e = f) := by
  refine ⟨⟨_, .binary (.literal "2.5e-3") .minus (.name "$Lit(E+Var(1"), rfl, by decide, by decide,
    by decide, by decide, dump_injective.1 _ _ (by decide) (by decide) rfl⟩, ?_⟩
  have hread : parse (Source.mk #['a', '*', '(', 'b', ')'] (by decide)) =
      .ok (.binary (.name "a") .times (.paren (.name "b"))) := by decide +kernel
  have hread' : parse (Source.mk #['a', ' ', '*', '(', 'b', ')'] (by decide)) =
      .ok (.binary (.name "a") .times (.paren (.name "b"))) := by decide +kernel
  exact ⟨_, _, _, _, rfl, rfl, hread, hread', rfl, rfl,
    dump_injective.2 _ _ _ _ hread hread' rfl⟩

/-- A closing parenthesis in a leaf can make two trees look the same. -/
example : (binary (.literal "1)+Lit(2") .plus (.literal "3")).dump =
    (binary (.literal "1") .plus (.literal "2)+Lit(3")).dump := by decide

end Expr

end Reckon
