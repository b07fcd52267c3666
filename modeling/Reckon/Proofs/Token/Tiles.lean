import Reckon.Proofs.Text.Place
import Reckon.Token.Basic
import Reckon.Matcher.Basic
import Mathlib.Data.List.Basic

/-! Tokens that tile a text. A token stands on the characters between two offsets if it names the
places of the first and the last of them; tokens tile the text between two offsets if they stand on
it one after another. A leaf is a copy of the text it stands on. What is made of leaves takes its
span from them, so that it begins where the first of its leaves begins and ends where the last one
ends. -/

namespace Reckon

/-- The token stands on the characters from offset `i` up to offset `j`, of which there is at least
one. -/
structure Stands {α : Type} [Spanned α] (src : Source) (i j : Nat) (t : α) : Prop where
  lt : i < j
  le : j ≤ src.length
  first : Spanned.first t = src.place i
  last : Spanned.last t = src.place (j - 1)

/-- Tokens that satisfy `P` stand on the text from offset `i` up to offset `j`, each from where the
one before it ends. -/
inductive Tiles {α : Type} [Spanned α] (src : Source) (P : α → Prop) : Nat → Nat → List α → Prop
  | nil {i : Nat} : i ≤ src.length → Tiles src P i i []
  | cons {i m j : Nat} {t : α} {ts : List α} :
    Stands src i m t → P t → Tiles src P m j ts → Tiles src P i j (t :: ts)

/-- A token stands on the text up to one offset only. -/
theorem Stands.stop_eq {α : Type} [Spanned α] {src : Source} {i i' j j' : Nat} {t : α}
    (h : Stands src i j t) (h' : Stands src i' j' t) : j = j' := by
  obtain ⟨hlt, hle, -, hlast⟩ := h
  obtain ⟨hlt', hle', -, hlast'⟩ := h'
  have hoffset := congrArg Position.offset (hlast.symm.trans hlast')
  rw [Source.offset_place (by omega), Source.offset_place (by omega)] at hoffset
  omega

theorem Stands.textOf {α : Type} [Spanned α] {src : Source} {i j : Nat} {t : α}
    (h : Stands src i j t) :
    src.textOf (Spanned.span t) = .ok (String.ofList (src.between i j)) := by
  obtain ⟨hlt, hle, hfirst, hlast⟩ := h
  simp only [Source.textOf, Spanned.span, hfirst, hlast]
  rw [Source.offset_place (by omega), Source.offset_place (by omega)]
  exact Source.slice_eq_between hlt hle

/-- Reading goes on where the token ends. -/
theorem Stands.resume_eq {α : Type} [Spanned α] {src : Source} {i j : Nat} {t : α}
    (h : Stands src i j t) (hne : Spanned.isEmpty t = false) (here : Position) :
    resume src here t = .ok (src.place j) := by
  obtain ⟨hlt, hle, -, hlast⟩ := h
  rw [resume, if_neg (by simp [hne]), hlast, Source.offset_place (by omega),
    show j - 1 + 1 = j by omega]
  exact Source.advance_place (by omega) hle

theorem Stands.length_span {α : Type} [Spanned α] {src : Source} {i j : Nat} {t : α}
    (h : Stands src i j t) : (Spanned.span t).length = .ok (j - i) := by
  obtain ⟨hlt, hle, hfirst, hlast⟩ := h
  have hsize : src.length < wordLimit := src.size_lt
  simp only [Span.length, Spanned.span, hfirst, hlast]
  rw [Source.offset_place (by omega), Source.offset_place (by omega), nextWord_of_lt (by omega)]
  simp only [show j - 1 + 1 = j by omega]
  exact if_pos (by omega)

/-- The token takes up the characters `cs`, which stand from offset `i` on, and reading goes on right
behind them. -/
structure TakesUp {α : Type} [Spanned α] (src : Source) (i : Nat) (cs : List Char) (t : α) :
    Prop where
  first : src.positionOf i = .ok (Spanned.first t)
  last : src.positionOf (i + cs.length - 1) = .ok (Spanned.last t)
  text : src.textOf (Spanned.span t) = .ok (String.ofList cs)
  next : ∃ next, resume src (Spanned.first t) t = .ok next ∧
    src.positionOf (i + cs.length) = .ok next

theorem Stands.takesUp {α : Type} [Spanned α] {src : Source} {i j : Nat} {t : α}
    (h : Stands src i j t) (hne : Spanned.isEmpty t = false) :
    TakesUp src i (src.between i j) t := by
  have hlt := h.lt
  have hle := h.le
  have hend : i + (src.between i j).length = j := by
    rw [Source.length_between hle]
    omega
  refine ⟨?_, ?_, h.textOf, src.place j, h.resume_eq hne _, ?_⟩
  · rw [h.first]
    exact Source.positionOf_eq_place (by omega)
  · rw [h.last, hend]
    exact Source.positionOf_eq_place (by omega)
  · rw [hend]
    exact Source.positionOf_eq_place hle

namespace Tiles

variable {α : Type} [Spanned α] {src : Source} {P : α → Prop} {i m j : Nat} {t : α}
  {ts ts' : List α}

theorem le (h : Tiles src P i j ts) : i ≤ j := by
  induction h with
  | nil _ => exact Nat.le_refl _
  | cons ht _ _ ih => exact Nat.le_trans (Nat.le_of_lt ht.lt) ih

theorem le_length (h : Tiles src P i j ts) : j ≤ src.length := by
  induction h with
  | nil hi => exact hi
  | cons _ _ _ ih => exact ih

theorem start_le (h : Tiles src P i j ts) : i ≤ src.length :=
  Nat.le_trans h.le h.le_length

theorem singleton (h : Stands src i j t) (ht : P t) : Tiles src P i j [t] :=
  .cons h ht (.nil h.le)

theorem append (h : Tiles src P i m ts) (h' : Tiles src P m j ts') :
    Tiles src P i j (ts ++ ts') := by
  induction h with
  | nil _ => exact h'
  | cons ht hP _ ih => exact .cons ht hP (ih h')

theorem lt_of_ne_nil (h : Tiles src P i j ts) (hne : ts ≠ []) : i < j := by
  cases h with
  | nil _ => exact absurd rfl hne
  | cons ht _ hts => exact Nat.lt_of_lt_of_le ht.lt hts.le

theorem eq_of_nil (h : Tiles src P i j []) : i = j := by
  cases h
  rfl

theorem first_of_head? (h : Tiles src P i j ts) (ht : ts.head? = some t) :
    Spanned.first t = src.place i := by
  cases h with
  | nil _ => cases ht
  | cons hs _ _ =>
    obtain rfl := Option.some.inj ht
    exact hs.first

theorem last_of_getLast? (h : Tiles src P i j ts) (ht : ts.getLast? = some t) :
    Spanned.last t = src.place (j - 1) := by
  induction h with
  | nil _ => cases ht
  | @cons i m j t' ts hs _ hts ih =>
    cases ts with
    | nil =>
      obtain rfl := hts.eq_of_nil
      obtain rfl := Option.some.inj ht
      exact hs.last
    | cons t'' ts =>
      rw [List.getLast?_cons_cons] at ht
      exact ih ht

/-- The texts of the tokens joined together are the text they stand on. -/
theorem join_texts (h : Tiles src P i j ts) :
    ∃ texts, ts.mapM (fun t => src.textOf (Spanned.span t)) = .ok texts ∧
      String.join texts = String.ofList (src.between i j) := by
  induction h with
  | nil _ =>
    refine ⟨[], rfl, ?_⟩
    rw [Source.between_self]
    rfl
  | @cons i m j t ts hs _ hts ih =>
    obtain ⟨texts, htexts, hjoin⟩ := ih
    refine ⟨String.ofList (src.between i m) :: texts, ?_, ?_⟩
    · rw [List.mapM_cons, hs.textOf, htexts]
      rfl
    · rw [String.join_cons, hjoin, ← String.ofList_append,
        Source.between_append (Nat.le_of_lt hs.lt) hts.le]

theorem forall_mem (h : Tiles src P i j ts) : ∀ t ∈ ts, P t := by
  induction h with
  | nil _ => nofun
  | cons _ ht _ ih => exact List.forall_mem_cons.mpr ⟨ht, ih⟩

/-- What satisfies something else besides tiles the text as that, too. -/
theorem mono {Q : α → Prop} (h : Tiles src P i j ts) (hQ : ∀ t ∈ ts, P t → Q t) :
    Tiles src Q i j ts := by
  induction h with
  | nil hi => exact .nil hi
  | cons hs ht _ ih =>
    obtain ⟨hQt, hQts⟩ := List.forall_mem_cons.mp hQ
    exact .cons hs (hQt ht) (ih hQts)

theorem map {β : Type} [Spanned β] {Q : β → Prop} (h : Tiles src P i j ts) (f : α → β)
    (hfirst : ∀ t, Spanned.first (f t) = Spanned.first t)
    (hlast : ∀ t, Spanned.last (f t) = Spanned.last t) (hQ : ∀ t, P t → Q (f t)) :
    Tiles src Q i j (ts.map f) := by
  induction h with
  | nil hi => exact .nil hi
  | cons hs ht _ ih =>
    obtain ⟨hlt, hle, hf, hl⟩ := hs
    exact .cons ⟨hlt, hle, (hfirst _).trans hf, (hlast _).trans hl⟩ (hQ _ ht) ih

/-- Where some of the tokens end the others begin. -/
theorem split (h : Tiles src P i j (ts ++ ts')) :
    ∃ m, Tiles src P i m ts ∧ Tiles src P m j ts' := by
  induction ts generalizing i with
  | nil => exact ⟨i, .nil h.start_le, h⟩
  | cons t ts ih =>
    cases h with
    | cons hs ht hts =>
      obtain ⟨m, hbefore, hafter⟩ := ih hts
      exact ⟨m, .cons hs ht hbefore, hafter⟩

/-- Every token stands on a part of the text that the tokens tile. -/
theorem exists_stands (h : Tiles src P i j ts) :
    ∀ t ∈ ts, ∃ a b, i ≤ a ∧ b ≤ j ∧ Stands src a b t := by
  induction h with
  | nil _ => nofun
  | @cons i m j t ts hs _ hts ih =>
    have hlt := hs.lt
    refine List.forall_mem_cons.mpr ⟨⟨i, m, Nat.le_refl i, hts.le, hs⟩, fun u hu => ?_⟩
    obtain ⟨a, b, ha, hb, hu⟩ := ih u hu
    exact ⟨a, b, by omega, hb, hu⟩

end Tiles

/-- The character at offset `k` belongs to the token. -/
def Spanned.covers {α : Type} [Spanned α] (k : Nat) (t : α) : Bool :=
  decide ((Spanned.first t).offset ≤ k ∧ k ≤ (Spanned.last t).offset)

theorem Stands.covers_iff {α : Type} [Spanned α] {src : Source} {i j k : Nat} {t : α}
    (h : Stands src i j t) : Spanned.covers k t = true ↔ i ≤ k ∧ k < j := by
  obtain ⟨hlt, hle, hfirst, hlast⟩ := h
  rw [Spanned.covers, decide_eq_true_iff, hfirst, hlast, Source.offset_place (by omega),
    Source.offset_place (by omega)]
  omega

/-- Of two tokens, the one that stands before the other ends before the other begins. -/
theorem Stands.last_lt_first {α : Type} [Spanned α] {src : Source} {a b a' b' : Nat} {t u : α}
    (ht : Stands src a b t) (hu : Stands src a' b' u) (h : b ≤ a') :
    (Spanned.last t).offset < (Spanned.first u).offset := by
  have hlt := ht.lt
  have hlt' := hu.lt
  have hle := hu.le
  rw [ht.last, hu.first, Source.offset_place (by omega), Source.offset_place (by omega)]
  omega

namespace Tiles

variable {α : Type} [Spanned α] {src : Source} {P : α → Prop} {i j : Nat} {ts : List α}

theorem pairwise_lt (h : Tiles src P i j ts) :
    ts.Pairwise fun t u => (Spanned.last t).offset < (Spanned.first u).offset := by
  induction h with
  | nil _ => exact .nil
  | cons hs _ hts ih =>
    refine .cons (fun u hu => ?_) ih
    obtain ⟨a, b, ha, -, hu⟩ := hts.exists_stands u hu
    exact hs.last_lt_first hu ha

/-- Every character of the text that the tokens tile belongs to exactly one of them. -/
theorem countP_covers (h : Tiles src P i j ts) (k : Nat) :
    ts.countP (Spanned.covers k) = if i ≤ k ∧ k < j then 1 else 0 := by
  induction h with
  | @nil i _ =>
    rw [List.countP_nil, if_neg (by omega)]
  | @cons i m j t ts hs _ hts ih =>
    have hlt := hs.lt
    have hle := hts.le
    rw [List.countP_cons, ih]
    simp only [hs.covers_iff]
    split_ifs <;> omega

end Tiles

/-- The tokens stand one after another from offset `k` on: none is empty, each begins with the
character after the last one of the token before it, and all positions are those of their offsets.
-/
structure InARow {α : Type} [Spanned α] (src : Source) (k : Nat) (ts : List α) : Prop where
  nonempty : ∀ t ∈ ts,
    Spanned.isEmpty t = false ∧ (Spanned.first t).offset ≤ (Spanned.last t).offset
  starts : ∀ t ∈ ts.head?, src.positionOf k = .ok (Spanned.first t)
  follows : ts.IsChain fun t u =>
    src.positionOf ((Spanned.last t).offset + 1) = .ok (Spanned.first u)
  first : ∀ t ∈ ts, src.positionOf (Spanned.first t).offset = .ok (Spanned.first t)
  last : ∀ t ∈ ts, src.positionOf (Spanned.last t).offset = .ok (Spanned.last t)

theorem Tiles.inARow {α : Type} [Spanned α] {src : Source} {P : α → Prop} {i j : Nat} {ts : List α}
    (h : Tiles src P i j ts) (hne : ∀ t ∈ ts, Spanned.isEmpty t = false) : InARow src i ts := by
  induction h with
  | nil _ => exact ⟨nofun, nofun, .nil, nofun, nofun⟩
  | @cons i m j t ts hs _ hts ih =>
    obtain ⟨ht, hne⟩ := List.forall_mem_cons.mp hne
    obtain ⟨hnonempty, hstarts, hfollows, hfirst, hlast⟩ := ih hne
    obtain ⟨hlt, hle, hf, hl⟩ := hs
    have hi := src.offset_place (i := i) (by omega)
    have hm := src.offset_place (i := m - 1) (by omega)
    refine ⟨?_, ?_, ?_, ?_, ?_⟩
    · refine List.forall_mem_cons.mpr ⟨⟨ht, ?_⟩, hnonempty⟩
      rw [hf, hl, hi, hm]
      omega
    · rintro _ ⟨⟩
      rw [hf]
      exact Source.positionOf_eq_place (by omega)
    · cases ts with
      | nil => exact .singleton t
      | cons u ts =>
        refine .cons_cons ?_ hfollows
        rw [hl, hm, show m - 1 + 1 = m by omega]
        exact hstarts u rfl
    · refine List.forall_mem_cons.mpr ⟨?_, hfirst⟩
      rw [hf, hi]
      exact Source.positionOf_eq_place (by omega)
    · refine List.forall_mem_cons.mpr ⟨?_, hlast⟩
      rw [hl, hm]
      exact Source.positionOf_eq_place (by omega)

/-- The leaf holds the text it stands on. -/
def Leaf.IsCopy (src : Source) (l : Leaf) : Prop := src.textOf (Spanned.span l) = .ok l.text

/-- The leaf of a kind that stands on the characters from offset `i` up to offset `j`. -/
def Source.leaf (src : Source) (kind : LeafKind) (i j : Nat) : Leaf :=
  ⟨kind, String.ofList (src.between i j), src.place i, src.place (j - 1)⟩

theorem Source.tiles_leaf {src : Source} {i j : Nat} (kind : LeafKind) (hij : i < j)
    (hj : j ≤ src.length) : Tiles src (Leaf.IsCopy src) i j [src.leaf kind i j] := by
  have hs : Stands src i j (src.leaf kind i j) := ⟨hij, hj, rfl, rfl⟩
  exact .singleton hs hs.textOf

/-- Tokens made of leaves. One without leaves is an empty placeholder; any other begins where the
first of its leaves begins and ends where the last one ends. -/
class Leafed (α : Type) [Spanned α] where
  leaves : α → List Leaf
  isEmpty_eq (t : α) : Spanned.isEmpty t = (leaves t).isEmpty
  first_eq {t : α} {l : Leaf} : (leaves t).head? = some l → Spanned.first t = l.first
  last_eq {t : α} {l : Leaf} : (leaves t).getLast? = some l → Spanned.last t = l.last

/-- Tokens that are never empty. -/
class Solid (α : Type) [Spanned α] [Leafed α] : Prop where
  leaves_ne_nil (t : α) : Leafed.leaves t ≠ []

theorem Solid.isEmpty_eq_false {α : Type} [Spanned α] [Leafed α] [Solid α] (t : α) :
    Spanned.isEmpty t = false := by
  rw [Leafed.isEmpty_eq, ← Bool.not_eq_true, List.isEmpty_iff]
  exact Solid.leaves_ne_nil t

namespace Tiles

variable {α : Type} [Spanned α] [Leafed α] {src : Source} {P : Leaf → Prop} {i j : Nat} {t : α}

/-- A token whose leaves tile some text stands on it. -/
theorem stands (h : Tiles src P i j (Leafed.leaves t)) (hij : i < j) : Stands src i j t := by
  have hne : Leafed.leaves t ≠ [] := by
    intro hnil
    rw [hnil] at h
    have := h.eq_of_nil
    omega
  refine ⟨hij, h.le_length, ?_, ?_⟩
  · have hl := List.head?_eq_some_head hne
    rw [Leafed.first_eq hl]
    exact h.first_of_head? hl
  · have hl := List.getLast?_eq_some_getLast hne
    rw [Leafed.last_eq hl]
    exact h.last_of_getLast? hl

/-- Reading goes on where the leaves of the token end. -/
theorem resume_eq (h : Tiles src P i j (Leafed.leaves t)) :
    resume src (src.place i) t = .ok (src.place j) := by
  cases hl : Leafed.leaves t with
  | nil =>
    rw [hl] at h
    rw [resume, Leafed.isEmpty_eq, hl, h.eq_of_nil]
    rfl
  | cons l ls =>
    have hij : i < j := h.lt_of_ne_nil (by rw [hl]; exact List.cons_ne_nil _ _)
    refine (h.stands hij).resume_eq ?_ _
    rw [Leafed.isEmpty_eq, hl]
    rfl

end Tiles

/-- The leaves of tokens one after another end with those of the last token. -/
theorem Solid.getLast?_leaves {α : Type} [Spanned α] [Leafed α] [Solid α] (head : α)
    (tail : List α) :
    ((head :: tail).flatMap Leafed.leaves).getLast? =
      (Leafed.leaves (tail.getLastD head)).getLast? := by
  induction tail generalizing head with
  | nil => simp
  | cons t ts ih =>
    have hne : (t :: ts).flatMap Leafed.leaves ≠ [] :=
      List.append_ne_nil_of_left_ne_nil (Solid.leaves_ne_nil t) _
    rw [List.flatMap_cons, List.getLast?_append_of_ne_nil _ hne, ih, List.getLastD_cons]

/-! The tokens of the grammars are made of leaves, and none of them is empty. -/

namespace Leafed

instance : Leafed Leaf where
  leaves l := [l]
  isEmpty_eq _ := rfl
  first_eq h := by cases h; rfl
  last_eq h := by cases h; rfl

instance : Solid Leaf where
  leaves_ne_nil _ := List.cons_ne_nil _ _

instance : Leafed WholeNumber where
  leaves := WholeNumber.leaves
  isEmpty_eq n := by obtain ⟨_, _ | _, _⟩ := n <;> rfl
  first_eq {n} _ h := by obtain ⟨_, _ | _, _⟩ := n <;> cases h <;> rfl
  last_eq {n} _ h := by obtain ⟨_, _ | _, _⟩ := n <;> cases h <;> rfl

instance : Solid WholeNumber where
  leaves_ne_nil n := by obtain ⟨_, _ | _, _⟩ := n <;> exact List.cons_ne_nil _ _

instance : Leafed Fraction where
  leaves f := [f.dot, f.digits]
  isEmpty_eq _ := rfl
  first_eq h := by cases h; rfl
  last_eq h := by cases h; rfl

instance : Solid Fraction where
  leaves_ne_nil _ := List.cons_ne_nil _ _

instance : Leafed Scale where
  leaves s := s.marker :: (s.sign.toList ++ [s.digits])
  isEmpty_eq _ := rfl
  first_eq h := by cases h; rfl
  last_eq {s} _ h := by obtain ⟨_, _ | _, _⟩ := s <;> cases h <;> rfl

instance : Solid Scale where
  leaves_ne_nil _ := List.cons_ne_nil _ _

instance : Leafed RealNumber where
  leaves := RealNumber.leaves
  isEmpty_eq _ := rfl
  first_eq h := by cases h; rfl
  last_eq {n} _ h := by
    obtain ⟨_, _ | _, _ | ⟨_, _ | _, _⟩⟩ := n <;> cases h <;> rfl

instance : Solid RealNumber where
  leaves_ne_nil _ := List.cons_ne_nil _ _

instance : Leafed Magnitude where
  leaves := Magnitude.leaves
  isEmpty_eq
    | .whole n => isEmpty_eq n
    | .real n => isEmpty_eq n
  first_eq {t _} h := match t with
    | .whole n => first_eq (t := n) h
    | .real n => first_eq (t := n) h
  last_eq {t _} h := match t with
    | .whole n => last_eq (t := n) h
    | .real n => last_eq (t := n) h

instance : Solid Magnitude where
  leaves_ne_nil
    | .whole n => Solid.leaves_ne_nil n
    | .real n => Solid.leaves_ne_nil n

instance : Leafed Number where
  leaves := Number.leaves
  isEmpty_eq n := by
    obtain ⟨_ | _, m⟩ := n
    · exact isEmpty_eq m
    · rfl
  first_eq {n _} h := by
    obtain ⟨_ | _, m⟩ := n
    · exact first_eq (t := m) h
    · cases h; rfl
  last_eq {n l} h := by
    have hm : n.magnitude.leaves ≠ [] := Solid.leaves_ne_nil n.magnitude
    rw [Number.leaves, List.getLast?_append_of_ne_nil _ hm] at h
    exact last_eq (t := n.magnitude) h

instance : Solid Number where
  leaves_ne_nil n := List.append_ne_nil_of_right_ne_nil _ (Solid.leaves_ne_nil n.magnitude)

instance : Leafed StringSegment where
  leaves := StringSegment.leaves
  isEmpty_eq s := by cases s <;> rfl
  first_eq {s _} h := by cases s <;> cases h <;> rfl
  last_eq {s l} h := by
    cases s with
    | quoted s => obtain ⟨_, _ | _, _⟩ := s <;> cases h <;> rfl
    | coded s =>
      have hc : s.code.leaves ≠ [] := Solid.leaves_ne_nil s.code
      change ([s.hash] ++ s.code.leaves).getLast? = some l at h
      rw [List.getLast?_append_of_ne_nil _ hc] at h
      exact last_eq (t := s.code) h

instance : Solid StringSegment where
  leaves_ne_nil s := by cases s <;> exact List.cons_ne_nil _ _

instance : Leafed StringLiteral where
  leaves := StringLiteral.leaves
  isEmpty_eq s := by
    have hs : s.head.leaves ≠ [] := Solid.leaves_ne_nil s.head
    obtain ⟨l, ls, hl⟩ := List.exists_cons_of_ne_nil hs
    rw [StringLiteral.leaves, StringLiteral.segments, List.flatMap_cons, hl]
    rfl
  first_eq {s _} h := by
    have hs : s.head.leaves ≠ [] := Solid.leaves_ne_nil s.head
    obtain ⟨l, ls, hl⟩ := List.exists_cons_of_ne_nil hs
    rw [StringLiteral.leaves, StringLiteral.segments, List.flatMap_cons, hl] at h
    exact first_eq (t := s.head) ((congrArg List.head? hl).trans h)
  last_eq {s _} h :=
    last_eq (t := s.tail.getLastD s.head) ((Solid.getLast?_leaves s.head s.tail).symm.trans h)

instance : Solid StringLiteral where
  leaves_ne_nil s := List.append_ne_nil_of_left_ne_nil (Solid.leaves_ne_nil s.head) _

instance {α : Type} [Spanned α] [Leafed α] [Solid α] : Leafed (Perhaps α) where
  leaves
    | .present t => leaves t
    | .missing _ => []
  isEmpty_eq
    | .present t => by simp [Solid.leaves_ne_nil t, Spanned.isEmpty]
    | .missing _ => rfl
  first_eq {t _} h := match t with
    | .present x => first_eq (t := x) h
    | .missing _ => nomatch h
  last_eq {t _} h := match t with
    | .present x => last_eq (t := x) h
    | .missing _ => nomatch h

end Leafed

end Reckon
