import Mathlib.Data.List.TakeWhile
import Reckon.Text.Classes

/-! White space at the ends of a text. What is left when it is taken off is a text with no white
space at either end, and it is the only such text from which the whole one is made by adding white
space in front and behind. -/

namespace Reckon

def IsBlank (cs : List Char) : Prop := ∀ c ∈ cs, isWhiteSpace c = true

/-- The second text is what the first one has between the white space at its ends. -/
structure TrimsTo (text core : List Char) : Prop where
  around : ∃ before after, text = before ++ (core ++ after) ∧ IsBlank before ∧ IsBlank after
  head : ∀ c ∈ core.head?, isWhiteSpace c = false
  last : ∀ c ∈ core.getLast?, isWhiteSpace c = false

variable {text core : List Char}

theorem dropWhile_isWhiteSpace (h : ∀ c ∈ text.head?, isWhiteSpace c = false) :
    text.dropWhile isWhiteSpace = text := by
  cases text with
  | nil => rfl
  | cons c cs => rw [List.dropWhile_cons, h c rfl, if_neg Bool.false_ne_true]

theorem isWhiteSpace_of_head_dropWhile (text : List Char) :
    ∀ c ∈ (text.dropWhile isWhiteSpace).head?, isWhiteSpace c = false := by
  intro c hc
  have hhead := List.head?_dropWhile_not isWhiteSpace text
  rw [Option.mem_def.mp hc] at hhead
  exact hhead

theorem isBlank_takeWhile (text : List Char) : IsBlank (text.takeWhile isWhiteSpace) := fun _ hc =>
  List.mem_takeWhile_imp hc

theorem trimmed_of_trimsTo (h : TrimsTo text core) : trimmed text = core := by
  obtain ⟨⟨before, after, rfl, hbefore, hafter⟩, hhead, hlast⟩ := h
  have hafter' : ∀ c ∈ after.reverse, isWhiteSpace c = true := fun c hc =>
    hafter c (List.mem_reverse.mp hc)
  unfold trimmed
  rw [List.dropWhile_append_of_pos hbefore]
  cases core with
  | nil =>
    have hnil : after.dropWhile isWhiteSpace = [] := List.dropWhile_eq_nil_iff.mpr hafter
    rw [List.nil_append, hnil]
    rfl
  | cons c cs =>
    have hfront : (c :: cs ++ after).dropWhile isWhiteSpace = c :: cs ++ after :=
      dropWhile_isWhiteSpace hhead
    rw [hfront, List.reverse_append, List.dropWhile_append_of_pos hafter', dropWhile_isWhiteSpace,
      List.reverse_reverse]
    rwa [List.head?_reverse]

theorem trimsTo_trimmed (text : List Char) : TrimsTo text (trimmed text) := by
  let inner := text.dropWhile isWhiteSpace
  let behind := inner.reverse.takeWhile isWhiteSpace
  have hinner : trimmed text ++ behind.reverse = inner := by
    rw [trimmed, ← List.reverse_append, List.takeWhile_append_dropWhile, List.reverse_reverse]
  refine ⟨⟨text.takeWhile isWhiteSpace, behind.reverse, ?_, isBlank_takeWhile text, ?_⟩, ?_, ?_⟩
  · rw [hinner, List.takeWhile_append_dropWhile]
  · intro c hc
    exact isBlank_takeWhile _ c (List.mem_reverse.mp hc)
  · intro c hc
    apply isWhiteSpace_of_head_dropWhile text c
    change c ∈ inner.head?
    rw [← hinner, List.head?_append, Option.mem_def.mp hc]
    rfl
  · intro c hc
    rw [trimmed, List.getLast?_reverse] at hc
    exact isWhiteSpace_of_head_dropWhile _ c hc

/-- A text without white space is left of it with white space added in front and behind. -/
theorem trimsTo_of_forall {before after : List Char} (hbefore : IsBlank before)
    (hafter : IsBlank after) (h : ∀ c ∈ core, isWhiteSpace c = false) :
    TrimsTo (before ++ (core ++ after)) core where
  around := ⟨before, after, rfl, hbefore, hafter⟩
  head c hc := h c (List.mem_of_mem_head? hc)
  last c hc := h c (List.mem_of_mem_getLast? hc)

theorem trimmed_eq_iff : trimmed text = core ↔ TrimsTo text core := by
  constructor
  · rintro rfl
    exact trimsTo_trimmed text
  · exact trimmed_of_trimsTo

end Reckon
