import Reckon.Proofs.Expr.Layout

/-! Expressions are read back from their layouts. Each stretch of a layout is followed through the
lexer on its own: what tokens it is cut into, and which lexemes these stand for. Stretches that lie
side by side are then put together, and the reader of expressions is given the lexemes of the whole.
-/

namespace Reckon

/-- The text from offset `i` up to offset `j` is cut into tokens that stand for the lexemes. -/
def Spells (src : Source) (i j : Nat) (ls : List Lexeme) : Prop :=
  ∃ ts items, Tiles src (Token.IsFound src) i j ts ∧ Token.itemsAll src ts = .ok items ∧
    items.map Item.lexeme = ls

namespace Token

theorem itemsAll_append {src : Source} {ts us : List Token} {is js : List Item}
    (hts : itemsAll src ts = .ok is) (hus : itemsAll src us = .ok js) :
    itemsAll src (ts ++ us) = .ok (is ++ js) := by
  induction ts generalizing is with
  | nil =>
    cases hts
    exact hus
  | cons t ts ih =>
    rw [itemsAll] at hts
    rw [List.cons_append, itemsAll]
    cases ht : t.items src with
    | error e =>
      rw [ht] at hts
      cases hts
    | ok out =>
      rw [ht] at hts
      cases hrest : itemsAll src ts with
      | error e =>
        rw [hrest] at hts
        cases hts
      | ok more =>
        rw [hrest] at hts
        cases hts
        simp only [ih hrest, List.append_assoc]

theorem itemsAll_singleton {src : Source} {t : Token} {is : List Item} (h : t.items src = .ok is) :
    itemsAll src [t] = .ok is := by
  rw [itemsAll, h, itemsAll]
  simp

end Token

namespace Spells

open Matcher Grammar Lexer

variable {src : Source} {i j m : Nat}

theorem nil (hi : i ≤ src.length) : Spells src i i [] := ⟨[], [], .nil hi, rfl, rfl⟩

theorem append {ls ls' : List Lexeme} (h : Spells src i m ls) (h' : Spells src m j ls') :
    Spells src i j (ls ++ ls') := by
  obtain ⟨ts, is, htiles, hitems, rfl⟩ := h
  obtain ⟨us, js, htiles', hitems', rfl⟩ := h'
  refine ⟨ts ++ us, is ++ js, htiles.append htiles', Token.itemsAll_append hitems hitems', ?_⟩
  exact List.map_append

theorem token {t : Token} {is : List Item} (h : Tiles src (Token.IsFound src) i j [t])
    (hitems : t.items src = .ok is) : Spells src i j (is.map Item.lexeme) :=
  ⟨[t], is, h, Token.itemsAll_singleton hitems, rfl⟩

theorem name {text : String} (hname : isName text.toList = true)
    (h : src.Carries i j text.toList) (hend : src.EndsWordAt j) :
    Spells src i j [⟨.name, text⟩] := by
  have hfinds := finds_identifier hname h fun c hc => isNamePart_of_endsWord (hend c hc)
  obtain ⟨c, cs, hcs⟩ : ∃ c cs, text.toList = c :: cs := by
    cases hcs : text.toList with
    | nil =>
      rw [hcs] at hname
      cases hname
    | cons c cs => exact ⟨c, cs, rfl⟩
  have hij : i < j := h.lt (by simp [hcs])
  rw [hcs, isName, Bool.and_eq_true] at hname
  have hcarries := h
  rw [hcs] at hcarries
  have hno := endsWord_of_isNameStart hname.1
  have hws := isWhiteSpace_of_endsWord hno
  have hnumber : number.Misses src i := by
    refine misses_number h.start_le (hcarries.forall_charAt ⟨?_, ?_, ?_⟩)
    · rw [← Bool.not_eq_true]
      intro hn
      rw [isNameStart_of_startsNumber hn] at hname
      cases hname.1
    · rintro rfl
      exact absurd hno (by decide)
    · rintro rfl
      exact absurd hno (by decide)
  have htoken := token (tiles_identifier hij hfinds (hcarries.forall_charAt hws) hnumber) rfl
  rw [Source.leaf, h.between_eq, String.ofList_toList] at htoken
  exact htoken

theorem literal {text : String} (hw : UnsignedWord text.toList)
    (h : src.Carries i j text.toList) (hend : src.EndsWordAt j) :
    Spells src i j [⟨.literal, text⟩] := by
  obtain ⟨m, hfinds, htiles⟩ := finds_number hw h hend
  obtain ⟨c, cs, hcs, hc⟩ := hw.exists_cons
  have hcarries := h
  rw [hcs] at hcarries
  have hij : i < j := h.lt (by simp [hcs])
  have hws := isWhiteSpace_of_startsNumber hc
  have htext := (htiles.stands hij).textOf
  rw [h.between_eq, String.ofList_toList] at htext
  have hitems : Token.items src (.number ⟨none, m⟩) =
      .ok [⟨.literal, text, Spanned.first m, Spanned.last m⟩] := by
    simp only [Token.items, htext]
    rfl
  exact token (tiles_number hij hfinds (hcarries.forall_charAt hws)) hitems

/-- A sign and the number right behind it are one token, which is taken apart again. -/
theorem signedLiteral {op : Operator} {text : String} (hop : op = .plus ∨ op = .minus)
    (hw : UnsignedWord text.toList) (hsign : src.Carries i m [op.symbol])
    (h : src.Carries m j text.toList) (hend : src.EndsWordAt j) :
    Spells src i j [.ofOperator op, ⟨.literal, text⟩] := by
  have hc : op.symbol = '+' ∨ op.symbol = '-' := by
    rcases hop with rfl | rfl
    · exact .inl rfl
    · exact .inr rfl
  obtain ⟨n, hfinds, htiles⟩ := finds_signedNumber hc hw hsign h hend
  have hws : isWhiteSpace op.symbol = false := by
    rcases hc with hc | hc <;> rw [hc] <;> decide
  obtain ⟨c, cs, hcs, -⟩ := hw.exists_cons
  have hmj : m < j := h.lt (by simp [hcs])
  have him : i < m := hsign.lt (List.cons_ne_nil _ _)
  have htext := (htiles.stands hmj).textOf
  rw [h.between_eq, String.ofList_toList] at htext
  have hitems : Token.items src (.number ⟨some (src.leaf .sign i m), n⟩) =
      .ok [⟨.operator, op.text, src.place i, src.place (m - 1)⟩,
        ⟨.literal, text, Spanned.first n, Spanned.last n⟩] := by
    simp only [Token.items, htext, Source.leaf, hsign.between_eq]
    rfl
  exact token (tiles_number (by omega) hfinds (hsign.forall_charAt hws)) hitems

/-- A special symbol of one character that makes none of two characters with the next. -/
theorem symbol {c : Char} (hc : c ∈ ['+', '-', '*', '/', '(', ')']) (h : src.Carries i j [c])
    (hnumber : number.Misses src i) (hpair : ∀ d ∈ src.charAt j, makesDouble c d = false) :
    Spells src i j [Item.lexeme ⟨Token.symbolKind (String.ofList [c]), String.ofList [c],
      src.place i, src.place (j - 1)⟩] := by
  have hi : i ≤ src.length := h.start_le
  obtain ⟨hsingle, hws, hstart, hcurly, hquote, hhash⟩ : c ∈ singleSymbols ∧
      isWhiteSpace c = false ∧ isNameStart c = false ∧ c ≠ '{' ∧ c ≠ '\'' ∧ c ≠ '#' := by
    simp only [List.mem_cons, List.not_mem_nil, or_false] at hc
    rcases hc with rfl | rfl | rfl | rfl | rfl | rfl <;> decide
  have hfinds := finds_specialSymbol hsingle h hpair
  have hname := misses_identifier hi (h.forall_charAt hstart)
  have hcomment := misses_comment hi (openerAt_eq_none h hcurly hpair)
  have hstring := misses_stringLiteral hi (h.forall_charAt ⟨hquote, hhash⟩)
  have htoken := token (tiles_specialSymbol (h.lt (List.cons_ne_nil _ _)) hfinds
    (h.forall_charAt hws) hnumber hname hcomment hstring) rfl
  rw [Source.leaf, h.between_eq] at htoken
  exact htoken

theorem makesDouble_of_startsOperand (c : Char) {d : Char} (h : startsOperand d = true) :
    makesDouble c d = false := by
  apply makesDouble_eq_false
  intro s hs _ hd
  have hall : ∀ s ∈ doubleSymbols, s.tail.any startsOperand = false := by decide
  exact List.any_eq_false.mp (hall s hs) d hd h

theorem operator {op : Operator} (h : src.Carries i j [op.symbol])
    (hnext : ∀ d ∈ src.charAt j, startsOperand d = true)
    (hsign : op = .plus ∨ op = .minus → ∀ d ∈ src.charAt j, startsNumber d = false) :
    Spells src i j [.ofOperator op] := by
  have hi : i ≤ src.length := h.start_le
  have hpair : ∀ d ∈ src.charAt j, makesDouble op.symbol d = false := fun d hd =>
    makesDouble_of_startsOperand _ (hnext d hd)
  have hnumber : number.Misses src i := by
    cases op with
    | plus => exact misses_number_of_sign (.inl rfl) h (hsign (.inl rfl))
    | minus => exact misses_number_of_sign (.inr rfl) h (hsign (.inr rfl))
    | times => exact misses_number hi (h.forall_charAt (by decide))
    | divide => exact misses_number hi (h.forall_charAt (by decide))
  have hspells := symbol (by cases op <;> decide) h hnumber hpair
  have hlexeme : ∀ op : Operator, Item.lexeme ⟨Token.symbolKind (String.ofList [op.symbol]),
      String.ofList [op.symbol], src.place i, src.place (j - 1)⟩ = .ofOperator op := by
    intro op
    cases op <;> rfl
  rwa [hlexeme] at hspells

theorem opening (h : src.Carries i j ['('])
    (hnext : ∀ d ∈ src.charAt j, startsOperand d = true) : Spells src i j [.openParen] := by
  have hi : i ≤ src.length := h.start_le
  have hnumber : number.Misses src i := misses_number hi (h.forall_charAt (by decide))
  exact symbol (by decide) h hnumber fun d hd => makesDouble_of_startsOperand _ (hnext d hd)

theorem closing (h : src.Carries i j [')']) : Spells src i j [.closeParen] := by
  have hi : i ≤ src.length := h.start_le
  have hnumber : number.Misses src i := misses_number hi (h.forall_charAt (by decide))
  apply symbol (by decide) h hnumber
  intro d _
  apply makesDouble_eq_false
  intro s hs hhead
  have hall : ∀ s ∈ doubleSymbols, s.head ≠ ')' := by decide
  exact absurd hhead (hall s hs)

/-- White space, if there is any, is one token. -/
theorem whiteSpace {cs : List Char} (hcs : ∀ c ∈ cs, isWhiteSpace c = true)
    (h : src.Carries i j cs) (hstop : ∀ c ∈ src.charAt j, isWhiteSpace c = false) :
    Spells src i j [] := by
  by_cases hne : cs = []
  · subst hne
    obtain rfl : i = j := h.length_eq
    exact nil h.le_length
  · exact token (tiles_whiteSpace h hne hcs hstop) rfl

theorem blockComment {text : List Char} (ht : IsBlockComment text) (h : src.Carries i j text) :
    Spells src i j [] := by
  have hi : i ≤ src.length := h.start_le
  have hclass : ∀ d ∈ src.charAt i, isWhiteSpace d = false ∧ isNameStart d = false ∧
      startsNumber d = false ∧ d ≠ '+' ∧ d ≠ '-' := by
    obtain ⟨c, cs, rfl, hc⟩ := ht.exists_cons
    exact h.forall_charAt (class_of_opener hc)
  obtain ⟨whole, c, rfl, hc, hkind, hlen⟩ := ht
  obtain ⟨hin, rfl⟩ := Source.inside_of_carries h
  obtain ⟨c', hc', hs⟩ := comment_inside hin hc hkind hlen
  have hnumber : number.Misses src i := misses_number hi fun d hd => (hclass d hd).2.2
  have hname : identifier.Misses src i := misses_identifier hi fun d hd => (hclass d hd).2.1
  exact token (tiles_comment hc' hs (fun d hd => (hclass d hd).1) hnumber hname) rfl

/-- The white space right before a separator belongs to the same token as the white space it begins
with. -/
theorem separator_after {cs sep : List Char} (hcs : ∀ c ∈ cs, isWhiteSpace c = true)
    (hsep : IsSeparator sep) (h : src.Carries i j (cs ++ sep))
    (hstop : ∀ c ∈ src.charAt j, isWhiteSpace c = false) : Spells src i j [] := by
  induction hsep generalizing i cs with
  | nil =>
    rw [List.append_nil] at h
    exact whiteSpace hcs h hstop
  | @space c sep hc _ ih =>
    rw [List.append_cons] at h
    apply ih _ h
    intro d hd
    rcases List.mem_append.mp hd with hd | hd
    · exact hcs d hd
    · obtain rfl := List.mem_singleton.mp hd
      exact hc
  | @comment text sep ht _ ih =>
    obtain ⟨m, hspace, hrest⟩ := h.split
    obtain ⟨n, htext, hrest⟩ := hrest.split
    have hno : ∀ d ∈ src.charAt m, isWhiteSpace d = false := by
      obtain ⟨c, cs, rfl, hc⟩ := ht.exists_cons
      exact htext.forall_charAt (class_of_opener hc).1
    have hspells := (whiteSpace hcs hspace hno).append (blockComment ht htext)
    exact hspells.append (ih (List.forall_mem_nil _) (show src.Carries n j ([] ++ sep) from hrest))

/-- A separator stands for no lexemes. -/
theorem separator {sep : List Char} (hsep : IsSeparator sep) (h : src.Carries i j sep)
    (hstop : ∀ c ∈ src.charAt j, isWhiteSpace c = false) : Spells src i j [] :=
  separator_after (List.forall_mem_nil _) hsep h hstop

end Spells

/-- A lexeme other than a sign, and what is left of the layout behind it. -/
theorem spells_of_lexeme {src : Source} {l : Lexeme} {ls : List Lexeme} {rest : List Char}
    {i k : Nat}
    (h : Layout ls rest) (hw : ∀ l ∈ ls, l.IsWord) (hl : l.IsWord) (hturns : TakeTurns (l :: ls))
    (hsign : l ≠ .ofOperator .plus ∧ l ≠ .ofOperator .minus) (htext : src.Carries i k l.text.toList)
    (hrest : src.Carries k src.length rest) : Spells src i k [l] := by
  have hhead := (List.isChain_cons.mp hturns).1
  have hends : l.kind.endsOperand = true → src.EndsWordAt k := by
    intro hkind c hc
    rw [hrest.charAt_eq_head?] at hc
    exact h.endsWord_head hw (fun l' hl' => (hhead l' hl').symm.trans hkind) c hc
  have hstarts : l.kind.endsOperand = false → ∀ c ∈ src.charAt k, startsOperand c = true := by
    intro hkind c hc
    rw [hrest.charAt_eq_head?] at hc
    exact h.startsOperand_head hw (fun l' hl' => (hhead l' hl').symm.trans hkind) c hc
  cases hl with
  | literal ht => exact Spells.literal ht htext (hends rfl)
  | name ht => exact Spells.name ht htext (hends rfl)
  | opening => exact Spells.opening htext (hstarts rfl)
  | closing => exact Spells.closing htext
  | operator op =>
    have hop : op ≠ .plus ∧ op ≠ .minus := by
      constructor <;> rintro rfl
      · exact hsign.1 rfl
      · exact hsign.2 rfl
    have hchar : src.Carries i k [op.symbol] := by
      rw [← String.toList_singleton]
      exact htext
    apply Spells.operator hchar (hstarts rfl)
    intro h
    rcases h with h | h
    · exact absurd h hop.1
    · exact absurd h hop.2

/-- A number that a layout begins with is the first of its lexemes. -/
theorem literal_of_startsNumber {src : Source} {l : Lexeme} {sep rest : List Char} {k : Nat}
    (hs : IsSeparator sep) (hl : l.IsWord) (hf : l.kind.followsOperand = false)
    (h : src.Carries k src.length (sep ++ (l.text.toList ++ rest))) {c : Char}
    (hc : src.charAt k = some c) (hnumber : startsNumber c = true) :
    sep = [] ∧ ∃ text, UnsignedWord text.toList ∧ l = ⟨.literal, text⟩ := by
  rw [h.charAt_eq_head?] at hc
  have hsep : sep = [] := by
    cases sep with
    | nil => rfl
    | cons s sep =>
      have hno := startsNumber_of_startsSeparator (hs.head c hc)
      rw [hnumber] at hno
      cases hno
  subst hsep
  refine ⟨rfl, ?_⟩
  cases hl with
  | @literal text ht => exact ⟨text, ht, rfl⟩
  | @name text ht =>
    cases hcs : text.toList with
    | nil =>
      rw [hcs] at ht
      cases ht
    | cons d ds =>
      rw [hcs, isName, Bool.and_eq_true] at ht
      simp only [hcs, List.nil_append, List.cons_append, List.head?_cons, Option.some.injEq] at hc
      rw [hc, isNameStart_of_startsNumber hnumber] at ht
      cases ht.1
  | opening =>
    obtain rfl := Option.some.inj hc
    exact absurd hnumber (by decide)
  | operator op => cases hf
  | closing => cases hf

/-- A sign that no number follows is a token of its own. -/
theorem spells_of_sign {src : Source} {ls : List Lexeme} {rest : List Char} (h : Layout ls rest)
    (hw : ∀ l ∈ ls, l.IsWord) (hf : ∀ l ∈ ls.head?, l.kind.followsOperand = false) {op : Operator}
    {i k : Nat} (hsign : src.Carries i k [op.symbol]) (hrest : src.Carries k src.length rest)
    (hno : ∀ c ∈ src.charAt k, startsNumber c = false) (hls : Spells src k src.length ls) :
    Spells src i src.length (.ofOperator op :: ls) := by
  have hstarts : ∀ c ∈ src.charAt k, startsOperand c = true := by
    rw [hrest.charAt_eq_head?]
    exact h.startsOperand_head hw hf
  exact (Spells.operator hsign hstarts fun _ => hno).append hls

/-- What a layout has left from some offset on spells the lexemes that are left, and so it does with
a sign right before it. -/
theorem spells_of_layout {src : Source} {ls : List Lexeme} {rest : List Char} (h : Layout ls rest)
    (hw : ∀ l ∈ ls, l.IsWord) (hturns : TakeTurns ls) :
    (∀ i, src.Carries i src.length rest → Spells src i src.length ls) ∧
    ∀ op i k, op = Operator.plus ∨ op = .minus → (∀ l ∈ ls.head?, l.kind.followsOperand = false) →
      src.Carries i k [op.symbol] → src.Carries k src.length rest →
      Spells src i src.length (.ofOperator op :: ls) := by
  induction h with
  | @separator sep hs =>
    have hon : ∀ i, src.Carries i src.length sep → Spells src i src.length [] := by
      intro i hi
      apply Spells.separator hs hi
      rw [Source.charAt_eq_none_iff.mpr (Nat.le_refl _)]
      nofun
    refine ⟨hon, ?_⟩
    intro op i k _ hf hsign hrest
    refine spells_of_sign (.separator hs) hw hf hsign hrest ?_ (hon k hrest)
    rw [hrest.charAt_eq_head?]
    intro c hc
    exact startsNumber_of_startsSeparator (hs.head c hc)
  | @lexeme sep rest l ls hs hlayout ih =>
    obtain ⟨hhead, htail⟩ := List.isChain_cons.mp hturns
    obtain ⟨hl, hws⟩ := List.forall_mem_cons.mp hw
    obtain ⟨hon, hsigned⟩ := ih hws htail
    have hall : ∀ i, src.Carries i src.length (sep ++ (l.text.toList ++ rest)) →
        Spells src i src.length (l :: ls) := by
      intro i hi
      obtain ⟨m, hsep, hi⟩ := hi.split
      obtain ⟨n, htext, hrest⟩ := hi.split
      have hspace : Spells src i m [] := by
        obtain ⟨c, cs, hcs, hc, -⟩ := hl.exists_cons
        apply Spells.separator hs hsep
        rw [hcs] at htext
        exact htext.forall_charAt hc
      by_cases hsign : l = .ofOperator .plus ∨ l = .ofOperator .minus
      · have hf : l.kind.endsOperand = false → ∀ l ∈ ls.head?, l.kind.followsOperand = false :=
          fun hkind l' hl' => (hhead l' hl').symm.trans hkind
        rcases hsign with rfl | rfl
        · exact hspace.append (hsigned .plus m n (.inl rfl) (hf rfl) htext hrest)
        · exact hspace.append (hsigned .minus m n (.inr rfl) (hf rfl) htext hrest)
      · rw [not_or] at hsign
        have hlexeme := spells_of_lexeme hlayout hws hl hturns hsign htext hrest
        exact (hspace.append hlexeme).append (hon n hrest)
    refine ⟨hall, ?_⟩
    intro op i k hop hf hsign hrest
    by_cases hno : ∀ c ∈ src.charAt k, startsNumber c = false
    · exact spells_of_sign (.lexeme hs hlayout) hw hf hsign hrest hno (hall k hrest)
    · obtain ⟨c, hc, hnumber⟩ : ∃ c, src.charAt k = some c ∧ startsNumber c = true := by
        simpa using hno
      obtain ⟨rfl, text, ht, rfl⟩ := literal_of_startsNumber hs hl (hf _ rfl) hrest hc hnumber
      rw [List.nil_append] at hrest
      obtain ⟨n, htext, hrest⟩ := hrest.split
      have hend : src.EndsWordAt n := by
        intro d hd
        rw [hrest.charAt_eq_head?] at hd
        exact hlayout.endsWord_head hws (fun l hl => (hhead l hl).symm) d hd
      exact (Spells.signedLiteral hop ht hsign htext hend).append (hon n hrest)

/-- A canonical expression with well-spelled literals and names is read back from every text it is
laid out in. -/
theorem Expr.parse_of_layout (e : Expr) (hc : e.Canonical) (hw : e.WellSpelled) (src : Source)
    (h : Layout e.lexemes src.chars.toList) : Expr.parse src = .ok e := by
  have hspells := (spells_of_layout h (isWord_of_mem_lexemes hw) e.takeTurns_lexemes).1 0
    src.carries_all
  obtain ⟨ts, items, htiles, hitems, hlexemes⟩ := hspells
  obtain ⟨lx, hnext, hsrc, hpos⟩ := Lexer.nextTokens_of_tiles htiles rfl
    (rfl : (Lexer.start src).source = src) src.place_zero.symm rfl (Nat.lt_succ_self _)
  have hchar : lx.currentChar = none := by
    rw [Lexer.currentChar, hsrc, hpos, Source.offset_place (Nat.le_refl _)]
    exact Source.charAt_eq_none_iff.mpr (Nat.le_refl _)
  have hitemsOf : itemsOf src = .ok items := by
    have hrest : (Lexer.start src).remaining = (.ok ts, lx) := hnext
    rw [itemsOf, hrest]
    simp only [hitems, hchar]
  rw [Expr.parse, hitemsOf]
  simp only [Source.positionOf_eq_place (Nat.le_refl src.length), Expr.ofItems]
  rw [ExprReader.read_of_lexemes hc hlexemes]
  rfl

/-- A sign right before a number, and a comment behind it. -/
theorem Expr.parse_of_layout_sign :
    Expr.parse (Source.mk #['x', '-', '1', '{', 'c', '}'] (by decide)) =
      .ok (.binary (.name "x") .minus (.literal "1")) := by
  have hname : isName "x".toList = true := by decide
  have hliteral : UnsignedWord "1".toList :=
    .decimal ⟨List.cons_ne_nil '1' [], List.all_eq_true.mp rfl⟩ .absent .absent
  have hcomment : IsBlockComment ['{', 'c', '}'] :=
    ⟨⟨#['{', 'c', '}'], by decide⟩, .node .curly [] .origin ⟨0, 2, 2⟩, rfl, rfl, by decide, rfl⟩
  refine parse_of_layout (.binary (.name "x") .minus (.literal "1")) (by decide)
    ⟨hname, hliteral⟩ _ ?_
  exact .lexeme .nil (.lexeme .nil (.lexeme .nil (.separator (.comment hcomment .nil))))

end Reckon
