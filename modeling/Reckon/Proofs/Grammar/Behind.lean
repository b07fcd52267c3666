import Reckon.Proofs.Grammar.Faithful
import Reckon.Proofs.Grammar.Word
import Reckon.Proofs.Matcher.Behind

/-! The grammars of numbers, string literals, identifiers, special symbols and white space look only
forward: each is combined from matchers that do, and makes its tokens from the parts without looking
at their positions. -/

namespace Reckon.Grammar

open Matcher Movable

theorem forward_sign : sign.Forward := (forward_char _ _).firstOf_pair (forward_char _ _)

theorem forward_decimalDigits : decimalDigits.Forward := forward_run _ _

theorem forward_fraction : fraction.Forward :=
  (forward_char _ _).seq2 forward_decimalDigits (fun _ _ => rfl) fun _ _ _ => rfl

theorem forward_scale : scale.Forward := by
  have hmarker : (firstOf [char .scaleMarker 'e', char .scaleMarker 'E']).Forward :=
    (forward_char _ _).firstOf_pair (forward_char _ _)
  apply hmarker.seq3 forward_sign.perhaps forward_decimalDigits
  · intro marker sign digits
    cases sign <;> rfl
  · intro marker sign digits base
    cases sign <;> rfl

theorem forward_unsignedReal : unsignedReal.Forward := by
  apply forward_decimalDigits.seq3 forward_fraction.perhaps forward_scale.perhaps leaves_realOrWhole
  intro whole fraction scale base
  cases fraction <;> cases scale <;> rfl

theorem forward_markedWhole (radix : Radix) (kind : LeafKind) (marker : Char)
    (digit : Char → Bool) : (markedWhole radix kind marker digit).Forward :=
  (forward_char _ _).seq2 (forward_run _ _) (fun _ _ => rfl) fun _ _ _ => rfl

theorem forward_unsignedWhole : unsignedWhole.Forward := by
  apply Forward.firstOf
  simp only [List.forall_mem_cons]
  exact ⟨forward_markedWhole _ _ _ _, forward_markedWhole _ _ _ _,
    forward_decimalDigits.map (fun _ => rfl) fun _ _ => rfl, forward_markedWhole _ _ _ _,
    List.forall_mem_nil _⟩

theorem forward_number : number.Forward := by
  have hmagnitude : (firstOf [unsignedReal, map Magnitude.whole unsignedWhole]).Forward :=
    forward_unsignedReal.firstOf_pair
      (forward_unsignedWhole.map (fun _ => rfl) fun _ _ => rfl)
  apply forward_sign.perhaps.seq2 hmagnitude
  · intro sign magnitude
    cases sign <;> rfl
  · intro sign magnitude base
    cases sign <;> rfl

theorem forward_quotedSegment : quotedSegment.Forward := by
  apply (forward_char _ _).seq3 (forward_run _ _).perhaps (forward_char _ _)
  · intro opening body closing
    cases body <;> rfl
  · intro opening body closing base
    cases body <;> rfl

theorem forward_codedSegment : codedSegment.Forward :=
  (forward_char _ _).seq2 forward_unsignedWhole (fun _ _ => rfl) fun _ _ _ => rfl

theorem forward_stringLiteral : stringLiteral.Forward :=
  (forward_quotedSegment.firstOf_pair forward_codedSegment).many (fun _ _ => rfl)
    fun _ _ _ => rfl

theorem forward_specialSymbol : specialSymbol.Forward := by
  apply Forward.firstOf
  refine List.forall_mem_append.mpr ⟨?_, ?_⟩
  · exact List.forall_mem_map.mpr fun s _ => forward_symbol _ s
  · exact List.forall_mem_map.mpr fun c _ => forward_char _ c

theorem forward_whiteSpace : whiteSpace.Forward := forward_run _ _

/-- An identifier is the same letters, underscores and digits in both texts. -/
theorem forward_identifier : identifier.Forward := by
  intro src whole o i h hi
  have hle := h.le_length hi
  rcases src.passes_or_fails i isNameStart with ⟨c, hc, hstart⟩ | hno
  · obtain ⟨j, cs, hname, hcarries, hstop⟩ := exists_carries_name hc hstart
    have hfinds := finds_identifier hname (h.carries hcarries) (by rwa [h.charAt_eq])
    rw [h.leaf_eq _ (hcarries.lt (ne_nil_of_isName hname))] at hfinds
    exact .inr ⟨j, _, finds_identifier hname hcarries hstop, hfinds⟩
  · exact .inl ⟨misses_identifier hi hno, misses_identifier hle (by rwa [h.charAt_eq])⟩

end Reckon.Grammar
