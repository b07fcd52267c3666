import Reckon.Proofs.Grammar.Faithful
import Reckon.Proofs.Grammar.Word
import Reckon.Proofs.Matcher.Cut

/-! The grammars of numbers, string literals, identifiers, special symbols and white space find in
the beginning of a text what they find in the text, if it ends in time. A mark that numbers, string
literals or their parts begin with is a single character and is never cut off; only runs of
characters are. -/

namespace Reckon.Grammar

open Matcher

theorem kept_sign : sign.Kept := (kept_char _ _).firstOf_pair (kept_char _ _)

theorem fills_firstOf_chars (kind : LeafKind) (c d : Char) :
    (firstOf [char kind c, char kind d]).Fills := by
  apply Fills.firstOf
  simp only [List.forall_mem_cons]
  exact ⟨⟨kept_char _ _, fills_char _ _⟩, ⟨kept_char _ _, fills_char _ _⟩, List.forall_mem_nil _⟩

theorem kept_decimalDigits : decimalDigits.Kept := kept_run _ _

theorem kept_fraction : fraction.Kept :=
  (kept_char _ _).seq2 (fills_char _ _) kept_decimalDigits fun _ _ => rfl

theorem kept_scale : scale.Kept := by
  have hmarker : (firstOf [char .scaleMarker 'e', char .scaleMarker 'E']).Kept :=
    (kept_char _ _).firstOf_pair (kept_char _ _)
  have hsign : sign.Fills := fills_firstOf_chars _ _ _
  apply hmarker.seq3 (fills_firstOf_chars _ _ _) kept_sign.perhaps (hsign.perhaps kept_sign)
    kept_decimalDigits
  intro marker sign digits
  cases sign <;> rfl

theorem kept_unsignedReal : unsignedReal.Kept :=
  kept_decimalDigits.seq3_perhaps kept_fraction kept_scale leaves_realOrWhole

theorem kept_markedWhole (radix : Radix) (kind : LeafKind) (marker : Char)
    (digit : Char → Bool) : (markedWhole radix kind marker digit).Kept :=
  (kept_char _ _).seq2 (fills_char _ _) (kept_run _ _) fun _ _ => rfl

theorem kept_unsignedWhole : unsignedWhole.Kept := by
  apply Kept.firstOf
  simp only [List.forall_mem_cons]
  exact ⟨kept_markedWhole _ _ _ _, kept_markedWhole _ _ _ _, kept_decimalDigits.map fun _ => rfl,
    kept_markedWhole _ _ _ _, List.forall_mem_nil _⟩

theorem kept_number : number.Kept := by
  have hmagnitude : (firstOf [unsignedReal, map Magnitude.whole unsignedWhole]).Kept :=
    kept_unsignedReal.firstOf_pair (kept_unsignedWhole.map fun _ => rfl)
  have hsign : sign.Fills := fills_firstOf_chars _ _ _
  apply kept_sign.perhaps.seq2 (hsign.perhaps kept_sign) hmagnitude
  intro sign magnitude
  cases sign <;> rfl

theorem kept_quotedSegment : quotedSegment.Kept := by
  apply (kept_char _ _).seq3 (fills_char _ _) (kept_run _ _).perhaps
    ((fills_run _ _).perhaps (kept_run _ _)) (kept_char _ _)
  intro opening body closing
  cases body <;> rfl

theorem kept_codedSegment : codedSegment.Kept :=
  (kept_char _ _).seq2 (fills_char _ _) kept_unsignedWhole fun _ _ => rfl

theorem kept_stringLiteral : stringLiteral.Kept :=
  (kept_quotedSegment.firstOf_pair kept_codedSegment).many fun _ _ => rfl

theorem kept_specialSymbol : specialSymbol.Kept := by
  apply Kept.firstOf
  refine List.forall_mem_append.mpr ⟨?_, ?_⟩
  · exact List.forall_mem_map.mpr fun s _ => kept_symbol _ s
  · exact List.forall_mem_map.mpr fun c _ => kept_char _ c

theorem kept_whiteSpace : whiteSpace.Kept := kept_run _ _

/-- An identifier ends where no letter, underscore or digit follows. -/
theorem kept_identifier : identifier.Kept := by
  intro own src i h hi
  have hle := Nat.le_trans hi h.le_length
  rcases src.passes_or_fails i isNameStart with ⟨c, hc, hstart⟩ | hno
  · obtain ⟨j, cs, hname, hcarries, hstop⟩ := exists_carries_name hc hstart
    exact .of_carries _ h hcarries (finds_identifier hname hcarries hstop) fun hown =>
      finds_identifier hname hown fun d hd => hstop d (h.charAt hd)
  · exact .misses (misses_identifier hi fun d hd => hno d (h.charAt hd)) (misses_identifier hle hno)

end Reckon.Grammar
