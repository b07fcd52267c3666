import Reckon.Proofs.Grammar.Longest
import Reckon.Proofs.Grammar.StringLiteral

/-! The longest string literal. Literals are chains of segments, and a segment is told by its first
character: a quoted one goes on up to the next quotation mark and no further, and a coded one goes
on for as long as there are digits. Neither a quotation mark nor a hash mark is a digit, so where a
segment might go on no other begins, and the longest literal is found by taking the longest segment
each time. What is begun behind it and not finished, a text without its second mark or a hash mark
without digits, is left where it is. -/

namespace Reckon

/-- The words of whole numbers: digits, with the marker of their base in front of them. -/
inductive WholeWord : List Char → Prop
  | binary {ds : List Char} : IsRun isBinaryDigit ds → WholeWord ('%' :: ds)
  | octal {ds : List Char} : IsRun isOctalDigit ds → WholeWord ('&' :: ds)
  | decimal {ds : List Char} : IsRun isDecimalDigit ds → WholeWord ds
  | hexadecimal {ds : List Char} : IsRun isHexDigit ds → WholeWord ('$' :: ds)

/-- The words of segments: a text between quotation marks that holds none, or a hash mark and a
whole number. -/
inductive SegmentWord : List Char → Prop
  | quoted {body : List Char} : '\'' ∉ body → SegmentWord ('\'' :: (body ++ ['\'']))
  | coded {code : List Char} : WholeWord code → SegmentWord ('#' :: code)

/-- The words of string literals: one or more segments one after another. -/
def StringWord : List Char → Prop := Joined SegmentWord (Chained SegmentWord)

/-- The text begins like a segment but with none: the second quotation mark is missing, or no number
stands behind the hash mark. -/
inductive Unfinished : List Char → Prop
  | quoted {rest : List Char} : '\'' ∉ rest → Unfinished ('\'' :: rest)
  | coded {rest : List Char} : (∀ code, WholeWord code → ¬code <+: rest) → Unfinished ('#' :: rest)

theorem SegmentWord.head {c : Char} {cs : List Char} (h : SegmentWord (c :: cs)) :
    c = '\'' ∨ c = '#' := by
  cases h with
  | quoted _ => exact .inl rfl
  | coded _ => exact .inr rfl

theorem Unfinished.begins {tail : List Char} (h : Unfinished tail) :
    ∀ c ∈ tail.head?, ∃ cs, SegmentWord (c :: cs) := by
  cases h with
  | quoted _ =>
    rintro _ ⟨⟩
    exact ⟨_, .quoted List.not_mem_nil⟩
  | coded _ =>
    rintro _ ⟨⟩
    exact ⟨['0'], .coded (.decimal ⟨List.cons_ne_nil _ _, List.all_eq_true.mp (by decide)⟩)⟩

theorem Unfinished.not_prefix {tail ds : List Char} (h : Unfinished tail) (hds : SegmentWord ds) :
    ¬ds <+: tail := by
  intro hprefix
  cases h with
  | quoted hrest =>
    cases hds with
    | quoted _ =>
      have hmem := (List.cons_prefix_cons.mp hprefix).2.subset
        (List.mem_append_right _ List.mem_cons_self)
      exact hrest hmem
    | coded _ => exact absurd (List.cons_prefix_cons.mp hprefix).1 (by decide)
  | coded hrest =>
    cases hds with
    | quoted _ => exact absurd (List.cons_prefix_cons.mp hprefix).1 (by decide)
    | coded hcode => exact hrest _ hcode (List.cons_prefix_cons.mp hprefix).2

theorem WholeWord.ne_nil {cs : List Char} (h : WholeWord cs) : cs ≠ [] := by
  cases h with
  | decimal hds => exact hds.ne_nil
  | binary _ | octal _ | hexadecimal _ => exact List.cons_ne_nil _ _

/-- All characters but the first are digits. -/
theorem WholeWord.isHexDigit_of_mem_tail {cs : List Char} (h : WholeWord cs) :
    ∀ c ∈ cs.tail, isHexDigit c = true := by
  cases h with
  | binary hds => exact fun c hc => Radix.isHexDigit_of_isDigit (r := .binary) (hds.all c hc)
  | octal hds => exact fun c hc => Radix.isHexDigit_of_isDigit (r := .octal) (hds.all c hc)
  | decimal hds =>
    exact fun c hc => isHexDigit_of_isDecimalDigit (hds.all c (List.mem_of_mem_tail hc))
  | hexadecimal hds => exact hds.all

/-- Where a segment might go on there is no mark that another one begins with. -/
theorem stopsBefore_segmentWord : StopsBefore SegmentWord SegmentWord := by
  intro xs c xs' ys hxs hlong hnext
  generalize hcs : xs ++ c :: xs' = cs at hlong
  cases hxs with
  | @quoted body _ =>
    cases hlong with
    | @quoted body' hbody' =>
      -- The mark that ends the one segment stands inside the other.
      have hrest : body ++ '\'' :: c :: xs' = body' ++ ['\''] := by
        simpa using hcs
      have hdrop := congrArg List.dropLast hrest
      rw [List.dropLast_concat, List.dropLast_append_cons] at hdrop
      refine hbody' ?_
      rw [← hdrop]
      simp
    | coded _ => exact absurd (List.cons.inj hcs).1 (by decide)
  | @coded code hcode =>
    cases hlong with
    | quoted _ => exact absurd (List.cons.inj hcs).1 (by decide)
    | coded hlong =>
      obtain ⟨-, rfl⟩ := List.cons.inj hcs
      obtain ⟨d, rest, rfl⟩ := List.exists_cons_of_ne_nil hcode.ne_nil
      have hc := hlong.isHexDigit_of_mem_tail c (by simp)
      rcases hnext.head with rfl | rfl <;> exact absurd hc (by decide)

namespace Grammar

open Matcher

theorem exists_wholeBranch_iff (cs : List Char) :
    (∃ k ∈ wholeBranches, k.words cs) ↔ WholeWord cs := by
  simp only [wholeBranches, List.exists_mem_cons_iff, List.not_mem_nil, false_and, exists_false,
    or_false]
  constructor
  · rintro (⟨rfl, hds⟩ | ⟨rfl, hds⟩ | hds | ⟨rfl, hds⟩)
    · exact .binary hds
    · exact .octal hds
    · exact .decimal hds
    · exact .hexadecimal hds
  · rintro (hds | hds | hds | hds)
    · exact .inl (.cons rfl hds)
    · exact .inr (.inl (.cons rfl hds))
    · exact .inr (.inr (.inl hds))
    · exact .inr (.inr (.inr (.cons rfl hds)))

theorem longest_unsignedWhole_wholeWord : unsignedWhole.Longest WholeWord :=
  longest_unsignedWhole.congr exists_wholeBranch_iff

/-- Up to the next mark there may be nothing to take. -/
theorem longest_perhaps_stringBody : (perhaps stringBody).Longest fun cs => '\'' ∉ cs := by
  refine (longest_run .stringBody _).perhaps.congr fun cs => ⟨?_, fun hcs => ?_⟩
  · rintro (rfl | hrun) hmark
    · cases hmark
    · exact absurd (hrun.all _ hmark) (by decide)
  · by_cases hnil : cs = []
    · exact .inl hnil
    · refine .inr ⟨hnil, fun c hc => bne_iff_ne.mpr ?_⟩
      rintro rfl
      exact hcs hc

/-- A quoted segment, and the mark it begins with. -/
def quotedBranch : Branch StringSegment :=
  ⟨quotedSegment, Joined (· = ['\'']) (Joined (fun cs => '\'' ∉ cs) (· = ['\''])),
    ['\''].contains⟩

/-- A coded segment, and the mark it begins with. -/
def codedBranch : Branch StringSegment :=
  ⟨codedSegment, Joined (· = ['#']) WholeWord, ['#'].contains⟩

theorem takesLongest_quotedBranch : quotedBranch.TakesLongest where
  longest := by
    have hmark : ∀ M, StopsBefore (· = ['\'']) M :=
      stopsBefore_of_length (n := 1) (by rintro cs rfl; rfl)
    have hbody : StopsBefore (fun cs => '\'' ∉ cs) (· = ['\'']) := by
      rintro xs c xs' ys - hlong hclosing
      obtain ⟨rfl, -⟩ := List.cons.inj hclosing
      exact hlong (List.mem_append_right _ List.mem_cons_self)
    have hleaves : ∀ (opening : Leaf) (body : Perhaps Leaf) (closing : Leaf),
        Leafed.leaves (StringSegment.quoted ⟨opening, body.toOption, closing⟩) =
          Leafed.leaves opening ++ Leafed.leaves body ++ Leafed.leaves closing := by
      intro opening body closing
      cases body <;> rfl
    exact (longest_char _ _).seq3 longest_perhaps_stringBody (longest_char _ _) hleaves (hmark _)
      (hmark _) hbody
  begins := by
    rintro cs ⟨rfl, -⟩
    exact ⟨'\'', _, rfl, by simp [quotedBranch]⟩

theorem takesLongest_codedBranch : codedBranch.TakesLongest where
  longest := by
    have hmark : StopsBefore (· = ['#']) WholeWord :=
      stopsBefore_of_length (n := 1) (by rintro cs rfl; rfl) _
    have hcoded : codedSegment.Longest (Joined (· = ['#']) WholeWord) :=
      (longest_char _ _).seq2 longest_unsignedWhole_wholeWord (fun _ _ => rfl) hmark
    exact hcoded
  begins := by
    rintro cs ⟨rfl, -⟩
    exact ⟨'#', _, rfl, by simp [codedBranch]⟩

theorem exists_segmentBranch_iff (cs : List Char) :
    (∃ k ∈ [quotedBranch, codedBranch], k.words cs) ↔ SegmentWord cs := by
  simp only [List.exists_mem_cons_iff, List.not_mem_nil, false_and, exists_false, or_false]
  constructor
  · rintro (⟨rfl, hbody, rfl⟩ | ⟨rfl, hcode⟩)
    · exact .quoted hbody
    · exact .coded hcode
  · rintro (hbody | hcode)
    · exact .inl (.cons rfl (.mk hbody rfl))
    · exact .inr (.cons rfl hcode)

theorem longest_segment : segment.Longest SegmentWord := by
  have hall : ∀ k ∈ [quotedBranch, codedBranch], k.TakesLongest := by
    simp only [List.forall_mem_cons]
    exact ⟨takesLongest_quotedBranch, takesLongest_codedBranch, List.forall_mem_nil _⟩
  have hapart : [quotedBranch, codedBranch].Pairwise fun k l => Apart k.begins l.begins :=
    List.pairwise_pair.mpr (apart_of_all (by decide))
  exact (Longest.firstOf_apart hall hapart).congr exists_segmentBranch_iff

theorem longest_stringLiteral : stringLiteral.Longest StringWord :=
  longest_segment.many stopsBefore_segmentWord fun _ _ => rfl

/-- A string literal is found if and only if a word of one stands there, and what is found takes up
the longest. A segment that is begun behind a literal but not finished changes nothing. -/
theorem stringLiteral_longest (src : Source) (i : Nat) (here : Position)
    (h : src.positionOf i = .ok here) :
    (stringLiteral src here = .absent ↔ ¬∃ cs, StringWord cs ∧ cs <+: src.rest i) ∧
    (stringLiteral src here ≠ .absent → ∃ s cs, stringLiteral src here = .found s ∧
      LongestOf StringWord (src.rest i) cs ∧ TakesUp src i cs s ∧ s.IsSpelled cs) ∧
    (∀ cs tail, StringWord cs → src.rest i = cs ++ tail → Unfinished tail →
      ∃ s, stringLiteral src here = .found s ∧ TakesUp src i cs s) := by
  obtain ⟨habsent, hfound⟩ := longest_stringLiteral.takesUp h
  refine ⟨habsent, fun hne => ?_, fun cs tail hcs hrest htail => ?_⟩
  · obtain ⟨s, cs, hs, hlongest, htakes⟩ := hfound hne
    exact ⟨s, cs, hs, hlongest, htakes, spells_stringLiteral.of_takesUp hs htakes⟩
  · have hstands : cs <+: src.rest i := hrest ▸ List.prefix_append cs tail
    obtain ⟨s, xs, hs, hlongest, htakes⟩ := hfound fun hno => habsent.mp hno ⟨cs, hcs, hstands⟩
    have hchain : Chained SegmentWord cs := by
      obtain ⟨hsegment, hsegments⟩ := hcs
      exact .cons hsegment hsegments
    have hthis := LongestOf.of_chained stopsBefore_segmentWord hchain htail.begins
      fun ds hds => htail.not_prefix hds
    rw [← hrest] at hthis
    obtain rfl := hlongest.chained.unique hthis
    exact ⟨s, hs, htakes⟩

/-- The mark of a quotation that is not closed is no part of the literal before it. -/
theorem stringLiteral_longest_unfinished :
    (Source.mk #['x', '#', '1', '\'', 'a', '\'', '\'', 'b'] (by decide)).positionOf 1 =
        .ok ⟨0, 1, 1⟩ ∧
      ∃ s, stringLiteral (Source.mk #['x', '#', '1', '\'', 'a', '\'', '\'', 'b'] (by decide))
          ⟨0, 1, 1⟩ = .found s ∧
        TakesUp (Source.mk #['x', '#', '1', '\'', 'a', '\'', '\'', 'b'] (by decide)) 1
          ['#', '1', '\'', 'a', '\''] s := by
  obtain ⟨-, -, hunfinished⟩ := stringLiteral_longest
    (Source.mk #['x', '#', '1', '\'', 'a', '\'', '\'', 'b'] (by decide)) 1 ⟨0, 1, 1⟩ rfl
  have hcode : SegmentWord ['#', '1'] :=
    .coded (.decimal ⟨List.cons_ne_nil _ _, List.all_eq_true.mp (by decide)⟩)
  have hbody : '\'' ∉ ['a'] := by decide
  have hquoted : SegmentWord ['\'', 'a', '\''] := .quoted hbody
  exact ⟨rfl, hunfinished _ _ (.mk hcode (.cons hquoted .nil)) rfl (.quoted (by decide))⟩

end Grammar

end Reckon
