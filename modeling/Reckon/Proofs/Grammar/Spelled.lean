import Reckon.Proofs.Grammar.Faithful
import Reckon.Proofs.Matcher.Spelled
import Reckon.Proofs.Numeral.Digits

/-! How numbers and string literals are spelled, part by part: the sign, the marker of the base, the
digits, the point and the digits after it, the scale marker, the sign and the digits of the
exponent, and the marks and bodies of segments. Every part that is there is a leaf of its own kind
and holds its characters, and the parts follow each other as they are written. The matchers of the
grammars keep to it wherever they are started. -/

namespace Reckon

/-- The leaf is of the kind and holds the characters. -/
structure Leaf.Holds (l : Leaf) (kind : LeafKind) (cs : List Char) : Prop where
  kind : l.kind = kind
  text : l.text = String.ofList cs

/-- A sign as a leaf. -/
inductive Leaf.IsSign (l : Leaf) : List Char → Prop
  | mk {c : Char} : c = '+' ∨ c = '-' → l.Holds .sign [c] → l.IsSign [c]

/-- The marker of a base in front of its digits. There is none for decimal digits. -/
inductive Radix.IsMarked : Radix → Option Leaf → List Char → Prop
  | decimal : IsMarked .decimal none []
  | binary {l : Leaf} : l.Holds .percent ['%'] → IsMarked .binary (some l) ['%']
  | octal {l : Leaf} : l.Holds .ampersand ['&'] → IsMarked .octal (some l) ['&']
  | hexadecimal {l : Leaf} : l.Holds .dollar ['$'] → IsMarked .hexadecimal (some l) ['$']

inductive WholeNumber.IsSpelled (n : WholeNumber) : List Char → Prop
  | mk {m ds : List Char} : n.radix.IsMarked n.marker m → n.digits.Holds n.radix.digitKind ds →
    IsRun n.radix.isDigit ds → n.IsSpelled (m ++ ds)

inductive Fraction.IsSpelled (f : Fraction) : List Char → Prop
  | mk {ds : List Char} : f.dot.Holds .dot ['.'] → f.digits.Holds .decimalDigits ds →
    IsRun isDecimalDigit ds → f.IsSpelled ('.' :: ds)

inductive Scale.IsSpelled (s : Scale) : List Char → Prop
  | mk {marker : Char} {sign ds : List Char} : marker = 'e' ∨ marker = 'E' →
    s.marker.Holds .scaleMarker [marker] → IfAny Leaf.IsSign s.sign sign →
    s.digits.Holds .decimalDigits ds → IsRun isDecimalDigit ds →
    s.IsSpelled (marker :: (sign ++ ds))

inductive RealNumber.IsSpelled (n : RealNumber) : List Char → Prop
  | mk {ds fs ss : List Char} : n.whole.Holds .decimalDigits ds → IsRun isDecimalDigit ds →
    IfAny Fraction.IsSpelled n.fraction fs → IfAny Scale.IsSpelled n.scale ss →
    n.fraction.isSome ∨ n.scale.isSome → n.IsSpelled (ds ++ (fs ++ ss))

def Magnitude.IsSpelled : Magnitude → List Char → Prop
  | .whole n, cs => n.IsSpelled cs
  | .real n, cs => n.IsSpelled cs

inductive Number.IsSpelled (n : Number) : List Char → Prop
  | mk {sign cs : List Char} : IfAny Leaf.IsSign n.sign sign → n.magnitude.IsSpelled cs →
    n.IsSpelled (sign ++ cs)

/-- The text between two quotation marks as a leaf. -/
structure Leaf.IsBody (l : Leaf) (cs : List Char) : Prop where
  holds : l.Holds .stringBody cs
  ne_nil : cs ≠ []
  not_mem : '\'' ∉ cs

inductive StringSegment.IsSpelled : StringSegment → List Char → Prop
  | quoted {s : QuotedSegment} {cs : List Char} : s.opening.Holds .singleQuote ['\''] →
    IfAny Leaf.IsBody s.body cs → s.closing.Holds .singleQuote ['\''] →
    IsSpelled (.quoted s) ('\'' :: (cs ++ ['\'']))
  | coded {s : CodedSegment} {cs : List Char} : s.hash.Holds .hash ['#'] → s.code.IsSpelled cs →
    IsSpelled (.coded s) ('#' :: cs)

inductive StringLiteral.IsSpelled (s : StringLiteral) : List Char → Prop
  | mk {css : List (List Char)} : List.Forall₂ StringSegment.IsSpelled s.segments css →
    s.IsSpelled css.flatten

/-- The value of a whole number is what its digits write, as long as it has 64 bits. -/
theorem WholeNumber.IsSpelled.value_eq {n : WholeNumber} {cs : List Char} (h : n.IsSpelled cs) :
    n.value = if n.denoted < 2 ^ 64 then .ok (n.denoted : Nat) else .error .tooLarge := by
  obtain ⟨-, hdigits, hds⟩ := h
  rw [WholeNumber.value, WholeNumber.valueOf, WholeNumber.denoted, hdigits.text,
    String.toList_ofList]
  exact WholeRange.read_unsigned64 hds

namespace Matcher

theorem spells_given (kind : LeafKind) (c : Char) :
    (char kind c).Spells fun l cs => cs = [c] ∧ l.Holds kind [c] := by
  refine (spells_char kind c).mono ?_
  rintro l cs ⟨hkind, htext, rfl⟩
  exact ⟨rfl, hkind, htext⟩

theorem spells_digits (kind : LeafKind) (test : Char → Bool) :
    (run kind test).Spells fun l cs => l.Holds kind cs ∧ IsRun test cs := by
  refine (spells_run kind test).mono ?_
  rintro l cs ⟨hkind, htext, hne, hall⟩
  exact ⟨⟨hkind, htext⟩, hne, hall⟩

end Matcher

namespace Grammar

open Matcher

theorem spells_sign : sign.Spells Leaf.IsSign := by
  apply Spells.firstOf
  simp only [List.forall_mem_cons]
  refine ⟨(spells_given _ _).mono ?_, (spells_given _ _).mono ?_, List.forall_mem_nil _⟩
  · rintro l cs ⟨rfl, hl⟩
    exact ⟨.inl rfl, hl⟩
  · rintro l cs ⟨rfl, hl⟩
    exact ⟨.inr rfl, hl⟩

theorem spells_fraction : fraction.Spells Fraction.IsSpelled := by
  refine (spells_given _ _).seq2 (spells_digits _ _) (fun _ _ => rfl) ?_
  rintro dot digits cs ds ⟨rfl, hdot⟩ ⟨hdigits, hrun⟩
  exact ⟨hdot, hdigits, hrun⟩

theorem spells_scale : scale.Spells Scale.IsSpelled := by
  have hmarker : (firstOf [char .scaleMarker 'e', char .scaleMarker 'E']).Spells fun l cs =>
      ∃ c, (c = 'e' ∨ c = 'E') ∧ cs = [c] ∧ l.Holds .scaleMarker [c] := by
    apply Spells.firstOf
    simp only [List.forall_mem_cons]
    refine ⟨(spells_given _ _).mono ?_, (spells_given _ _).mono ?_, List.forall_mem_nil _⟩
    · rintro l cs ⟨rfl, hl⟩
      exact ⟨'e', .inl rfl, rfl, hl⟩
    · rintro l cs ⟨rfl, hl⟩
      exact ⟨'E', .inr rfl, rfl, hl⟩
  refine hmarker.seq3 spells_sign.perhaps (spells_digits _ _) ?_ ?_
  · intro marker sign digits
    cases sign <;> rfl
  · rintro marker sign digits cs ss ds ⟨c, hc, rfl, hm⟩ hsign ⟨hdigits, hrun⟩
    change Scale.IsSpelled _ (c :: (ss ++ ds))
    exact .mk hc hm hsign hdigits hrun

/-- Digits alone are a whole number; with a fraction or a scale they are a real. -/
theorem isSpelled_realOrWhole {whole : Leaf} {fraction : Perhaps Fraction} {scale : Perhaps Scale}
    {ds fs ss : List Char} (hwhole : whole.Holds .decimalDigits ds) (hds : IsRun isDecimalDigit ds)
    (hfs : IfAny Fraction.IsSpelled fraction.toOption fs)
    (hss : IfAny Scale.IsSpelled scale.toOption ss) :
    (realOrWhole whole fraction scale).IsSpelled (ds ++ (fs ++ ss)) := by
  cases fraction with
  | present f => exact .mk hwhole hds hfs hss (.inl rfl)
  | missing here =>
    cases scale with
    | present s => exact .mk hwhole hds hfs hss (.inr rfl)
    | missing here' =>
      obtain rfl : fs = [] := hfs
      obtain rfl : ss = [] := hss
      rw [List.append_nil, List.append_nil]
      exact .mk (m := []) .decimal hwhole hds

theorem spells_unsignedReal : unsignedReal.Spells Magnitude.IsSpelled := by
  refine (spells_digits _ _).seq3 spells_fraction.perhaps spells_scale.perhaps
    leaves_realOrWhole ?_
  rintro whole f s ds fs ss ⟨hwhole, hds⟩ hfs hss
  exact isSpelled_realOrWhole hwhole hds hfs hss

theorem spells_markedWhole (radix : Radix) {kind : LeafKind} {marker : Char}
    (hmarked : ∀ l : Leaf, l.Holds kind [marker] → radix.IsMarked (some l) [marker]) :
    (markedWhole radix kind marker radix.isDigit).Spells WholeNumber.IsSpelled := by
  refine (spells_given _ _).seq2 (spells_digits _ _) (fun _ _ => rfl) ?_
  rintro l digits ms ds ⟨rfl, hl⟩ ⟨hdigits, hrun⟩
  exact .mk (hmarked l hl) hdigits hrun

theorem spells_unsignedWhole : unsignedWhole.Spells WholeNumber.IsSpelled := by
  have hdecimal : (map WholeNumber.decimal decimalDigits).Spells WholeNumber.IsSpelled := by
    refine (spells_digits _ _).map (fun _ => rfl) ?_
    rintro digits ds ⟨hdigits, hrun⟩
    exact .mk (m := []) .decimal hdigits hrun
  apply Spells.firstOf
  simp only [List.forall_mem_cons]
  exact ⟨spells_markedWhole .binary fun _ => .binary, spells_markedWhole .octal fun _ => .octal,
    hdecimal, spells_markedWhole .hexadecimal fun _ => .hexadecimal, List.forall_mem_nil _⟩

theorem spells_magnitude : magnitude.Spells Magnitude.IsSpelled := by
  apply Spells.firstOf
  simp only [List.forall_mem_cons]
  exact ⟨spells_unsignedReal, spells_unsignedWhole.map (fun _ => rfl) fun _ _ h => h,
    List.forall_mem_nil _⟩

theorem spells_number : number.Spells Number.IsSpelled := by
  refine spells_sign.perhaps.seq2 spells_magnitude ?_ ?_
  · intro sign m
    cases sign <;> rfl
  · intro sign m ss cs hsign hm
    exact .mk hsign hm

/-- A number is its sign, if it has one, and what is found behind it. -/
theorem magnitude_of_number {src : Source} {here : Position} {n : Number}
    (h : number src here = .found n) : ∃ next, magnitude src next = .found n.magnitude := by
  obtain ⟨⟨sign, next⟩, -, h⟩ := Attempt.bind_eq_found_iff.mp h
  obtain ⟨⟨m, _⟩, hm, h⟩ := Attempt.bind_eq_found_iff.mp h
  obtain rfl := Attempt.found.inj h
  obtain ⟨m', hm', hstep⟩ := Attempt.bind_eq_found_iff.mp hm
  obtain ⟨_, -, hpair⟩ := Attempt.bind_eq_found_iff.mp hstep
  obtain ⟨rfl, -⟩ := Prod.mk.inj (Attempt.found.inj hpair)
  exact ⟨next, hm'⟩

theorem spells_quotedSegment : quotedSegment.Spells StringSegment.IsSpelled := by
  have hbody : stringBody.Spells Leaf.IsBody := by
    refine (spells_digits _ _).mono ?_
    rintro l cs ⟨hl, hne, hall⟩
    exact ⟨hl, hne, fun hmem => absurd (hall _ hmem) (by decide)⟩
  refine (spells_given _ _).seq3 hbody.perhaps (spells_given _ _) ?_ ?_
  · intro opening body closing
    cases body <;> rfl
  · rintro opening body closing os cs es ⟨rfl, ho⟩ hcs ⟨rfl, hc⟩
    exact .quoted ho hcs hc

theorem spells_codedSegment : codedSegment.Spells StringSegment.IsSpelled := by
  refine (spells_given _ _).seq2 spells_unsignedWhole (fun _ _ => rfl) ?_
  rintro hash code hs cs ⟨rfl, hhash⟩ hcode
  exact .coded hhash hcode

theorem spells_stringLiteral : stringLiteral.Spells StringLiteral.IsSpelled := by
  have hsegment : (firstOf [quotedSegment, codedSegment]).Spells StringSegment.IsSpelled := by
    apply Spells.firstOf
    simp only [List.forall_mem_cons]
    exact ⟨spells_quotedSegment, spells_codedSegment, List.forall_mem_nil _⟩
  refine hsegment.many (fun _ _ => rfl) ?_
  intro head tail css hcss
  exact .mk hcss

end Grammar

end Reckon
