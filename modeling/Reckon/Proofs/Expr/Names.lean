import Mathlib.Data.List.Induction
import Mathlib.Data.List.Nodup
import Reckon.Proofs.Expr.Precedence

/-! The variables of an expression in the order of the text. However operands were joined, the
leaves of the tree from left to right are the operands of the text in their order. So the names in
the tree are the names among the items, and each name that was noted when it was met first stands
where the text uses it first. -/

namespace Reckon

/-- The second list holds the members of the first, each once and in the order of their first uses.
-/
structure FirstUses (uses firsts : List String) : Prop where
  nodup : firsts.Nodup
  mem_iff : ∀ x, x ∈ firsts ↔ x ∈ uses
  in_order : firsts.Pairwise fun x y => uses.idxOf x < uses.idxOf y

/-- Takes a name up behind those that are known, unless it is one of them. -/
def noteName (known : List String) (name : String) : List String :=
  if name ∈ known then known else known ++ [name]

namespace FirstUses

variable {uses firsts others : List String} {name : String}

theorem nil : FirstUses [] [] := ⟨List.nodup_nil, fun _ => Iff.rfl, List.Pairwise.nil⟩

/-- What comes behind does not change where a name is used first. -/
theorem idxOf_append (h : FirstUses uses firsts) (hname : name ∈ firsts) (more : List String) :
    (uses ++ more).idxOf name = uses.idxOf name := by
  rw [List.idxOf_append, if_pos ((h.mem_iff name).mp hname)]

theorem in_order_append (h : FirstUses uses firsts) (more : List String) :
    firsts.Pairwise fun x y => (uses ++ more).idxOf x < (uses ++ more).idxOf y := by
  apply h.in_order.imp_of_mem
  intro x y hx hy hlt
  rwa [h.idxOf_append hx, h.idxOf_append hy]

/-- One more name is used: it is new, or it has been used before. -/
theorem note (h : FirstUses uses firsts) (name : String) :
    FirstUses (uses ++ [name]) (noteName firsts name) := by
  unfold noteName
  by_cases hknown : name ∈ firsts
  · rw [if_pos hknown]
    refine ⟨h.nodup, fun x => ?_, h.in_order_append [name]⟩
    rw [List.mem_append, List.mem_singleton, ← h.mem_iff x]
    constructor
    · exact .inl
    · rintro (hx | rfl)
      · exact hx
      · exact hknown
  · rw [if_neg hknown]
    refine ⟨?_, fun x => ?_, List.pairwise_append.mpr ⟨h.in_order_append [name], ?_, ?_⟩⟩
    · exact h.nodup.append (List.nodup_singleton name) (by simpa using hknown)
    · rw [List.mem_append, List.mem_append, h.mem_iff x]
    · exact List.pairwise_singleton _ name
    · intro x hx y hy
      obtain rfl := List.mem_singleton.mp hy
      have hnew : y ∉ uses := fun hmem => hknown ((h.mem_iff y).mpr hmem)
      have hlt : uses.idxOf x < uses.length := List.idxOf_lt_length_iff.mpr ((h.mem_iff x).mp hx)
      rw [h.idxOf_append hx, List.idxOf_append, if_neg hnew]
      omega

/-- There is only one such list. -/
theorem unique (h : FirstUses uses firsts) (h' : FirstUses uses others) : firsts = others := by
  have hperm : firsts.Perm others := by
    rw [List.perm_ext_iff_of_nodup h.nodup h'.nodup]
    intro x
    rw [h.mem_iff, h'.mem_iff]
  refine hperm.eq_of_pairwise ?_ h.in_order h'.in_order
  intro x y _ _ hxy hyx
  omega

/-- Striking out members that stood before leaves each one where it is used first. -/
theorem eraseDups (uses : List String) : FirstUses uses uses.eraseDups := by
  induction uses using List.reverseRecOn with
  | nil => exact nil
  | append_singleton uses name ih =>
    have herase : (uses ++ [name]).eraseDups = noteName uses.eraseDups name := by
      rw [List.eraseDups_append, noteName]
      by_cases hmem : name ∈ uses
      · simp [List.removeAll, hmem]
      · simp [List.removeAll, hmem, List.eraseDups_cons]
    rw [herase]
    exact ih.note name

end FirstUses

/-- The texts of the names among items, in their order. -/
def Item.names (items : List Item) : List String :=
  (items.filter fun t => t.kind = .name).map Item.text

/-- The texts of the names among lexemes, in their order. -/
def Lexeme.names (ls : List Lexeme) : List String :=
  (ls.filter fun l => l.kind = .name).map Lexeme.text

namespace Lexeme

theorem names_append (ls ms : List Lexeme) : names (ls ++ ms) = names ls ++ names ms := by
  simp [names]

/-- Items and the lexemes they stand for have the same names. -/
theorem names_map (items : List Item) : names (items.map Item.lexeme) = Item.names items := by
  induction items with
  | nil => rfl
  | cons t items ih =>
    unfold names Item.names at *
    by_cases hkind : t.kind = .name
    · have htext : t.lexeme.text = t.text := by
        rw [Item.lexeme_of_ne (by simp [hkind]) (by simp [hkind])]
      simp [hkind, htext, ih]
    · simp [hkind, ih]

end Lexeme

namespace Expr

variable {e : Expr} {uses known : List String}

/-- Goes through the tree from left to right and notes the names in it, behind those that are known
already. -/
def gather : Expr → List String → List String
  | .literal _, known => known
  | .name text, known => noteName known text
  | .binary left _ right, known => gather right (gather left known)
  | .paren inner, known => gather inner known

/-- The names known after a tree are those known before it and those of the tree. -/
theorem firstUses_gather (h : FirstUses uses known) (e : Expr) :
    FirstUses (uses ++ e.names) (e.gather known) := by
  induction e generalizing uses known with
  | literal text =>
    rw [names, List.append_nil]
    exact h
  | name text => exact h.note text
  | binary left op right ihl ihr =>
    rw [names, ← List.append_assoc]
    exact ihr (ihl h)
  | paren inner ih => exact ih h

/-- The names that are left of all names in the tree are those noted on the way through it. -/
theorem gather_eq_freeNames (e : Expr) : e.gather [] = e.freeNames :=
  (firstUses_gather .nil e).unique (.eraseDups e.names)

/-- The names in the tree are those among its lexemes, in the same order. -/
theorem names_lexemes (e : Expr) : Lexeme.names e.lexemes = e.names := by
  induction e with
  | literal text => rfl
  | name text => rfl
  | binary left op right ihl ihr =>
    calc Lexeme.names (left.lexemes ++ .ofOperator op :: right.lexemes)
        = Lexeme.names left.lexemes ++ Lexeme.names right.lexemes := Lexeme.names_append _ _
      _ = left.names ++ right.names := by rw [ihl, ihr]
  | paren inner ih =>
    calc Lexeme.names (.openParen :: inner.lexemes ++ [.closeParen])
        = Lexeme.names inner.lexemes ++ [] := Lexeme.names_append _ _
      _ = inner.names := by rw [List.append_nil, ih]

/-- What is read from items is spelled by them. -/
theorem lexemes_of_ofItems {items : List Item} {stop : Position}
    (h : ofItems items stop = .ok e) : items.map Item.lexeme = e.lexemes := by
  obtain ⟨r, hr, hfinish⟩ := Logged.exists_of_bind_eq_ok h
  exact ((ExprReader.reads_start.steps hr).finish hfinish).2

/-- What is read from a text is spelled by its items. -/
theorem exists_items_of_parse {src : Source} (h : parse src = .ok e) :
    ∃ items, itemsOf src = .ok items ∧ items.map Item.lexeme = e.lexemes := by
  unfold parse at h
  cases hitems : itemsOf src with
  | error cause =>
    rw [hitems] at h
    cases h
  | ok items =>
    rw [hitems] at h
    cases hstop : src.positionOf src.length with
    | error cause =>
      rw [hstop] at h
      cases h
    | ok stop =>
      rw [hstop] at h
      exact ⟨items, rfl, lexemes_of_ofItems h⟩

/-- The variables of an expression that was read from a text are the names among its items, each
once and where it is used first. Going through the tree and noting every new name finds them. -/
theorem freeNames_of_parse (src : Source) (e : Expr) (h : parse src = .ok e) :
    ∃ items, itemsOf src = .ok items ∧
      (∀ names, names = e.freeNames ↔ FirstUses (Item.names items) names) ∧
      e.gather [] = e.freeNames := by
  obtain ⟨items, hitems, hlexemes⟩ := exists_items_of_parse h
  have hnames : Item.names items = e.names := by
    rw [← Lexeme.names_map, hlexemes, names_lexemes]
  have hfirsts : FirstUses (Item.names items) e.freeNames := by
    rw [hnames]
    exact .eraseDups e.names
  refine ⟨items, hitems, fun names => ?_, e.gather_eq_freeNames⟩
  constructor
  · rintro rfl
    exact hfirsts
  · exact fun hother => hother.unique hfirsts

/-- A name that is used again in parentheses, behind another one. -/
theorem freeNames_of_parse_parentheses :
    ∃ src e items, src = Source.mk #['b', '*', '(', 'a', '-', 'b', ')'] (by decide) ∧
      parse src = .ok e ∧ itemsOf src = .ok items ∧ Item.names items = ["b", "a", "b"] ∧
      e.freeNames = ["b", "a"] ∧ FirstUses (Item.names items) ["b", "a"] := by
  have hparse : parse (Source.mk #['b', '*', '(', 'a', '-', 'b', ')'] (by decide)) =
      .ok (.binary (.name "b") .times (.paren (.binary (.name "a") .minus (.name "b")))) := by
    decide +kernel
  have hread : itemsOf (Source.mk #['b', '*', '(', 'a', '-', 'b', ')'] (by decide)) =
      .ok [⟨.name, "b", ⟨0, 0, 0⟩, ⟨0, 0, 0⟩⟩, ⟨.operator, "*", ⟨0, 1, 1⟩, ⟨0, 1, 1⟩⟩,
        ⟨.opening, "(", ⟨0, 2, 2⟩, ⟨0, 2, 2⟩⟩, ⟨.name, "a", ⟨0, 3, 3⟩, ⟨0, 3, 3⟩⟩,
        ⟨.operator, "-", ⟨0, 4, 4⟩, ⟨0, 4, 4⟩⟩, ⟨.name, "b", ⟨0, 5, 5⟩, ⟨0, 5, 5⟩⟩,
        ⟨.closing, ")", ⟨0, 6, 6⟩, ⟨0, 6, 6⟩⟩] := by
    decide +kernel
  obtain ⟨items, hitems, hfirsts, -⟩ := freeNames_of_parse _ _ hparse
  obtain rfl := Except.ok.inj (hread.symm.trans hitems)
  exact ⟨_, _, _, rfl, hparse, hread, by decide, by decide, (hfirsts _).mp (by decide)⟩

end Expr

end Reckon
