import Reckon.Proofs.Matcher.Faithful
import Reckon.Proofs.Comment.Extent
import Reckon.Grammar.StringLiteral
import Reckon.Grammar.Word

/-! The grammars keep to the text. The leaves of every number, string literal, identifier, special
symbol and run of white space tile the text they are found in. A comment has no leaves; it begins at
the place where it is looked for and ends at the place of a later character. -/

namespace Reckon.Grammar

open Matcher

theorem faithful_sign : sign.Faithful := (faithful_char _ _).firstOf_pair (faithful_char _ _)

theorem faithful_decimalDigits : decimalDigits.Faithful := faithful_run _ _

theorem faithful_fraction : fraction.Faithful :=
  (faithful_char _ _).seq2 faithful_decimalDigits fun _ _ => rfl

theorem faithful_scale : scale.Faithful := by
  have hmarker : (firstOf [char .scaleMarker 'e', char .scaleMarker 'E']).Faithful :=
    (faithful_char _ _).firstOf_pair (faithful_char _ _)
  apply hmarker.seq3 faithful_sign.perhaps faithful_decimalDigits
  intro marker sign digits
  cases sign <;> rfl

theorem leaves_realOrWhole (whole : Leaf) (fraction : Perhaps Fraction) (scale : Perhaps Scale) :
    Leafed.leaves (realOrWhole whole fraction scale) =
      Leafed.leaves whole ++ Leafed.leaves fraction ++ Leafed.leaves scale := by
  cases fraction <;> cases scale <;> rfl

theorem faithful_unsignedReal : unsignedReal.Faithful :=
  faithful_decimalDigits.seq3 faithful_fraction.perhaps faithful_scale.perhaps leaves_realOrWhole

theorem faithful_markedWhole (radix : Radix) (kind : LeafKind) (marker : Char)
    (digit : Char → Bool) : (markedWhole radix kind marker digit).Faithful :=
  (faithful_char _ _).seq2 (faithful_run _ _) fun _ _ => rfl

theorem faithful_unsignedWhole : unsignedWhole.Faithful := by
  apply Faithful.firstOf
  intro p hp
  simp only [List.mem_cons, List.not_mem_nil, or_false] at hp
  rcases hp with rfl | rfl | rfl | rfl
  · exact faithful_markedWhole _ _ _ _
  · exact faithful_markedWhole _ _ _ _
  · exact faithful_decimalDigits.map fun _ => rfl
  · exact faithful_markedWhole _ _ _ _

theorem faithful_number : number.Faithful := by
  have hmagnitude : (firstOf [unsignedReal, map Magnitude.whole unsignedWhole]).Faithful :=
    faithful_unsignedReal.firstOf_pair (faithful_unsignedWhole.map fun _ => rfl)
  apply faithful_sign.perhaps.seq2 hmagnitude
  intro sign magnitude
  cases sign <;> rfl

theorem faithful_quotedSegment : quotedSegment.Faithful := by
  apply (faithful_char _ _).seq3 (faithful_run _ _).perhaps (faithful_char _ _)
  intro opening body closing
  cases body <;> rfl

theorem faithful_codedSegment : codedSegment.Faithful :=
  (faithful_char _ _).seq2 faithful_unsignedWhole fun _ _ => rfl

theorem faithful_stringLiteral : stringLiteral.Faithful :=
  (faithful_quotedSegment.firstOf_pair faithful_codedSegment).many fun _ _ => rfl

theorem identifierClass_lt (c : Char) : identifierClass c < 4 := by
  unfold identifierClass
  split
  · decide
  · split
    · decide
    · split <;> decide

theorem inRange_identifierAutomaton : identifierAutomaton.InRange where
  initial := by decide
  columns entries hmem c := by
    have hlen : ∀ entries ∈ identifierAutomaton.table, entries.length = 4 := by decide
    rw [hlen entries hmem]
    exact identifierClass_lt c
  rows entries hmem s hs row hrow := by
    have hall : ∀ entries ∈ identifierAutomaton.table, ∀ s ∈ entries,
        s.row?.all (· < identifierAutomaton.table.length) = true := by decide
    have hlt := hall entries hmem s hs
    rw [hrow] at hlt
    simpa using hlt

theorem faithful_identifier : identifier.Faithful :=
  faithful_automaton _ inRange_identifierAutomaton

theorem faithful_specialSymbol : specialSymbol.Faithful := by
  apply Faithful.firstOf
  intro p hp
  rcases List.mem_append.mp hp with hp | hp
  · obtain ⟨s, -, rfl⟩ := List.mem_map.mp hp
    exact faithful_symbol _ _
  · obtain ⟨c, -, rfl⟩ := List.mem_map.mp hp
    exact faithful_char _ _

theorem faithful_whiteSpace : whiteSpace.Faithful := faithful_run _ _

/-- A comment that is found begins where it was looked for and ends with a later character. -/
theorem holds_comment {src : Source} {i : Nat} (hi : i ≤ src.length) :
    (comment src (src.place i)).Holds fun c => ∃ j, Stands src i j c := by
  rcases comment_cases hi with habsent | ⟨kind, nested, last, ho, hbody, hfound⟩
  · rw [habsent]
    trivial
  · have hpos := kind.opener_length_pos
    have hbounds := hbody.bounds (by omega) (le_length_of_openerAt ho)
    rw [hfound]
    exact ⟨last + 1, by omega, hbounds.2, rfl, rfl⟩

end Reckon.Grammar
