import Reckon.Matcher.Node
import Reckon.Proofs.Matcher.Faithful

/-! Tokens merged from other tokens. Of a token of whatever kind it matters here whether it is
empty, where it begins and ends, and which texts it holds. A token is merged from others if it is
empty just when all of them are, begins with the first and ends with the last that is not, and
holds their texts in order, joined or not. What is merged from tokens that stand one after another
stands on the text they stand on. Nodes are made so: groups of nodes, and leaves that nodes are
joined to. -/

namespace Reckon

/-- A token that holds texts, in the order they stand. -/
class Worded (α : Type) where
  texts : α → List String

/-- All that is asked of a token. -/
structure Piece where
  isEmpty : Bool
  first : Position
  last : Position
  texts : List String

instance : Worded Leaf where
  texts l := [l.text]

instance {α : Type} [Worded α] : Worded (Perhaps α) where
  texts
    | .present token => Worded.texts token
    | .missing _ => []

instance : Worded Node where
  texts n := n.leaves.map Leaf.text

namespace Piece

instance : Spanned Piece where
  first := first
  last := last
  isEmpty := isEmpty

def of {α : Type} [Spanned α] [Worded α] (t : α) : Piece :=
  ⟨Spanned.isEmpty t, Spanned.first t, Spanned.last t, Worded.texts t⟩

/-- The pieces that are not empty. -/
def solid (parts : List Piece) : List Piece := parts.filter fun p => !p.isEmpty

structure IsMerged (whole : Piece) (parts : List Piece) : Prop where
  isEmpty : whole.isEmpty = parts.all Piece.isEmpty
  first : ∀ p, (solid parts).head? = some p → whole.first = p.first
  last : ∀ p, (solid parts).getLast? = some p → whole.last = p.last
  texts : String.join whole.texts = String.join (parts.flatMap Piece.texts)

/-- The pieces stand one after another on the text from offset `i` up to offset `j` and hold it;
those that are empty take up nothing of it. -/
structure InTurn (src : Source) (i j : Nat) (parts : List Piece) : Prop where
  tiles : Tiles src (fun _ => True) i j (solid parts)
  texts : String.join (parts.flatMap Piece.texts) = String.ofList (src.between i j)

theorem solid_append (parts more : List Piece) : solid (parts ++ more) = solid parts ++ solid more :=
  List.filter_append _ _

theorem solid_cons_of_isEmpty {p : Piece} (h : p.isEmpty = true) (parts : List Piece) :
    solid (p :: parts) = solid parts :=
  List.filter_cons_of_neg (by simp [h])

theorem solid_cons_of_not_isEmpty {p : Piece} (h : p.isEmpty = false) (parts : List Piece) :
    solid (p :: parts) = p :: solid parts :=
  List.filter_cons_of_pos (by simp [h])

theorem solid_eq_nil_iff {parts : List Piece} :
    solid parts = [] ↔ parts.all Piece.isEmpty = true := by
  simp [solid, List.filter_eq_nil_iff]

variable {src : Source} {i m j : Nat} {parts more : List Piece} {whole : Piece}

namespace InTurn

theorem nil (hi : i ≤ src.length) : InTurn src i i [] := by
  refine ⟨.nil hi, ?_⟩
  rw [Source.between_self]
  rfl

theorem append (h : InTurn src i m parts) (h' : InTurn src m j more) :
    InTurn src i j (parts ++ more) where
  tiles := by
    rw [solid_append]
    exact h.tiles.append h'.tiles
  texts := by
    rw [List.flatMap_append, String.join_append, h.texts, h'.texts, ← String.ofList_append,
      Source.between_append h.tiles.le h'.tiles.le]

theorem le_length (h : InTurn src i j parts) : j ≤ src.length := h.tiles.le_length

/-- What is merged from pieces stands where they stand. -/
theorem merge (h : InTurn src i j parts) (hm : IsMerged whole parts) : InTurn src i j [whole] where
  tiles := by
    have hempty := hm.isEmpty
    cases hs : solid parts with
    | nil =>
      have htiles := h.tiles
      rw [hs] at htiles
      rw [solid_eq_nil_iff.mp hs] at hempty
      rw [solid_cons_of_isEmpty hempty]
      exact htiles
    | cons p ps =>
      have hne : solid parts ≠ [] := by simp [hs]
      have hwhole : whole.isEmpty = false := by
        rw [hempty, ← Bool.not_eq_true, ← solid_eq_nil_iff]
        exact hne
      have hhead := List.head?_eq_some_head hne
      have hlast := List.getLast?_eq_some_getLast hne
      rw [solid_cons_of_not_isEmpty hwhole]
      refine .singleton ⟨h.tiles.lt_of_ne_nil hne, h.le_length, ?_, ?_⟩ trivial
      · exact (hm.first _ hhead).trans (h.tiles.first_of_head? hhead)
      · exact (hm.last _ hlast).trans (h.tiles.last_of_getLast? hlast)
  texts := by
    rw [List.flatMap_singleton, hm.texts, h.texts]

end InTurn

variable {α : Type} [Spanned α] [Worded α] {t : α}

theorem inTurn_of_stands (hs : Stands src i j t) (hne : Spanned.isEmpty t = false)
    (htexts : String.join (Worded.texts t) = String.ofList (src.between i j)) :
    InTurn src i j [of t] where
  tiles := by
    rw [solid_cons_of_not_isEmpty hne]
    exact .singleton ⟨hs.lt, hs.le, hs.first, hs.last⟩ trivial
  texts := by
    rw [List.flatMap_singleton]
    exact htexts

theorem InTurn.join_texts (h : InTurn src i j [of t]) :
    String.join (Worded.texts t) = String.ofList (src.between i j) := by
  have htexts := h.texts
  rwa [List.flatMap_singleton] at htexts

/-- A token either takes up nothing or stands on the text. -/
theorem InTurn.cases_of (h : InTurn src i j [of t]) :
    (Spanned.isEmpty t = true ∧ i = j) ∨ (Spanned.isEmpty t = false ∧ Stands src i j t) := by
  have htiles := h.tiles
  cases he : Spanned.isEmpty t with
  | true =>
    rw [solid_cons_of_isEmpty he] at htiles
    exact .inl ⟨rfl, htiles.eq_of_nil⟩
  | false =>
    rw [solid_cons_of_not_isEmpty he] at htiles
    cases htiles with
    | cons hs _ hnil =>
      obtain rfl := hnil.eq_of_nil
      exact .inr ⟨rfl, hs.lt, hs.le, hs.first, hs.last⟩

theorem InTurn.eq_of_isEmpty (h : InTurn src i j [of t]) (he : Spanned.isEmpty t = true) :
    i = j := by
  rcases h.cases_of with ⟨-, hij⟩ | ⟨hne, -⟩
  · exact hij
  · rw [he] at hne
    cases hne

theorem InTurn.stands (h : InTurn src i j [of t]) (hne : Spanned.isEmpty t = false) :
    Stands src i j t := by
  rcases h.cases_of with ⟨he, -⟩ | ⟨-, hs⟩
  · rw [he] at hne
    cases hne
  · exact hs

/-- Reading goes on where the token ends. -/
theorem InTurn.resume_eq (h : InTurn src i j [of t]) :
    resume src (src.place i) t = .ok (src.place j) := by
  rcases h.cases_of with ⟨he, rfl⟩ | ⟨hne, hs⟩
  · rw [resume, if_pos he]
  · exact hs.resume_eq hne _

theorem IsMerged.refl (p : Piece) : IsMerged p [p] := by
  refine ⟨by simp, ?_, ?_, by simp⟩
  all_goals
    intro q hq
    cases he : p.isEmpty <;> simp [solid, he] at hq
    rw [hq]

/-- What an option holds counts as text. It is so what it is made of, unless that is a placeholder. -/
theorem isMerged_present_iff :
    IsMerged (.of (Perhaps.present t)) [.of t] ↔ Spanned.isEmpty t = false := by
  constructor
  · intro hm
    have hempty : false = (Spanned.isEmpty t && true) := hm.isEmpty
    rw [hempty, Bool.and_true]
  · intro hne
    have hsame : of (Perhaps.present t) = of t := by
      rw [of, of, hne]
      rfl
    rw [hsame]
    exact .refl _

/-- What is missing is merged from nothing. -/
theorem isMerged_missing {α : Type} [Spanned α] [Worded α] (here : Position) :
    IsMerged (.of (Perhaps.missing here : Perhaps α)) [] := by
  refine ⟨rfl, ?_, ?_, rfl⟩ <;> nofun

end Piece

namespace Node

open Piece

theorem leavesAll_eq_flatMap (ns : List Node) : leavesAll ns = ns.flatMap leaves := by
  induction ns with
  | nil => rfl
  | cons n ns ih => rw [leavesAll, ih, List.flatMap_cons]

theorem isEmpty_eq_true_iff {n : Node} : (of n).isEmpty = true ↔ n.leaves = [] := by
  change n.leaves.isEmpty = true ↔ _
  exact List.isEmpty_iff

theorem solid_cons_of_empty {n : Node} (h : n.leaves = []) (parts : List Piece) :
    solid (of n :: parts) = solid parts :=
  solid_cons_of_isEmpty (isEmpty_eq_true_iff.mpr h) parts

theorem solid_cons_of_leaves {n : Node} (h : n.leaves ≠ []) (parts : List Piece) :
    solid (of n :: parts) = of n :: solid parts := by
  apply solid_cons_of_not_isEmpty
  rwa [← Bool.not_eq_true, isEmpty_eq_true_iff]

/-- Nodes hold no leaves if they are all empty. -/
theorem flatMap_leaves_eq_nil {ns : List Node} (h : solid (ns.map of) = []) :
    ns.flatMap leaves = [] := by
  induction ns with
  | nil => rfl
  | cons n ns ih =>
    rw [List.map_cons] at h
    by_cases hn : n.leaves = []
    · rw [solid_cons_of_empty hn] at h
      rw [List.flatMap_cons, hn, ih h, List.append_nil]
    · rw [solid_cons_of_leaves hn] at h
      cases h

/-- The first leaf of nodes is that of the first node that is not empty. -/
theorem first_of_head? {ns : List Node} {p : Piece} (h : (solid (ns.map of)).head? = some p) :
    (ns.flatMap leaves).head?.map Leaf.first = some p.first := by
  induction ns with
  | nil => cases h
  | cons n ns ih =>
    rw [List.map_cons] at h
    by_cases hn : n.leaves = []
    · rw [solid_cons_of_empty hn] at h
      rw [List.flatMap_cons, hn, List.nil_append, ih h]
    · rw [solid_cons_of_leaves hn] at h
      obtain rfl := Option.some.inj h
      obtain ⟨l, ls, hl⟩ := List.exists_cons_of_ne_nil hn
      rw [List.flatMap_cons, hl]
      simp [of, Spanned.first, hl]

/-- The last leaf of nodes is that of the last node that is not empty. -/
theorem last_of_getLast? {ns : List Node} {p : Piece}
    (h : (solid (ns.map of)).getLast? = some p) :
    (ns.flatMap leaves).getLast?.map Leaf.last = some p.last := by
  induction ns with
  | nil => cases h
  | cons n ns ih =>
    rw [List.map_cons] at h
    by_cases hn : n.leaves = []
    · rw [solid_cons_of_empty hn] at h
      rw [List.flatMap_cons, hn, List.nil_append, ih h]
    rw [solid_cons_of_leaves hn] at h
    rw [List.flatMap_cons]
    -- If all nodes behind this one are empty, it is the last that is not.
    cases hs : solid (ns.map of) with
    | nil =>
      rw [hs] at h
      obtain rfl := Option.some.inj h
      rw [flatMap_leaves_eq_nil hs, List.append_nil]
      simp [of, Spanned.last, List.getLast?_eq_some_getLast hn]
    | cons q qs =>
      rw [hs, List.getLast?_cons_cons, ← hs] at h
      have hrest := ih h
      obtain ⟨l, hl, hlast⟩ := Option.map_eq_some_iff.mp hrest
      rw [List.getLast?_append, hl, Option.some_or, Option.map_some, hlast]

theorem isMerged_leaf (l : Leaf) : IsMerged (of (Node.leaf l)) [of l] := by
  refine ⟨rfl, ?_, ?_, rfl⟩ <;> rintro _ ⟨⟩ <;> rfl

theorem isMerged_toNode_missing (here : Position) : IsMerged (of (Node.missing here)) [] := by
  refine ⟨rfl, ?_, ?_, rfl⟩ <;> nofun

theorem isMerged_group (grouping : Grouping) (head : Node) (tail : List Node) :
    IsMerged (of (Node.group grouping head tail)) ((head :: tail).map of) := by
  have hleaves : (Node.group grouping head tail).leaves = (head :: tail).flatMap leaves := by
    rw [leaves, leavesAll_eq_flatMap, List.flatMap_cons]
  refine ⟨?_, ?_, ?_, ?_⟩
  · rw [Bool.eq_iff_iff, isEmpty_eq_true_iff, hleaves, List.flatMap_eq_nil_iff, List.all_map,
      List.all_eq_true]
    exact forall₂_congr fun n _ => isEmpty_eq_true_iff.symm
  · intro p hp
    change ((Node.group grouping head tail).leaves.head?.map Leaf.first).getD _ = _
    rw [hleaves, first_of_head? hp]
    rfl
  · intro p hp
    change ((Node.group grouping head tail).leaves.getLast?.map Leaf.last).getD _ = _
    rw [hleaves, last_of_getLast? hp]
    rfl
  · change String.join ((Node.group grouping head tail).leaves.map Leaf.text) = _
    rw [hleaves, List.map_flatMap, List.flatMap_map]
    rfl

theorem isMerged_join (kind : LeafKind) (n : Node) : IsMerged (of (n.join kind)) [of n] := by
  rw [join]
  split
  · exact .refl _
  · rename_i hne
    have hleaves : n.leaves ≠ [] := fun hnil => hne (List.isEmpty_iff.mpr hnil)
    have hsolid : solid [of n] = [of n] := solid_cons_of_leaves hleaves []
    refine ⟨?_, ?_, ?_, ?_⟩
    · change false = (n.isEmpty && true)
      rw [Bool.not_eq_true] at hne
      rw [hne, Bool.false_and]
    · rw [hsolid]
      rintro _ ⟨⟩
      rfl
    · rw [hsolid]
      rintro _ ⟨⟩
      rfl
    · rw [List.flatMap_singleton]
      exact (String.join_cons).trans String.append_empty

end Node

end Reckon
