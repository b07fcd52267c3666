import Mathlib.Data.List.Forall2
import Reckon.Proofs.Grammar.Spelled
import Reckon.Proofs.Matcher.Repeat

/-! String literals and the texts they stand for. A literal is written segment by segment, each in
quotation marks or as the code of a character, and is read back just as it was written: a quoted
segment ends with the first mark behind its own, and the digits of a code end where the next segment
begins, since no digit is a quotation mark or a hash mark. What is read stands for the texts of the
segments one after another. So every text has a literal. A literal that is read stands for nothing
only if one of its codes is that of no character. -/

namespace Reckon

/-- A segment of a string literal as it is written: a text between quotation marks, or the code of a
character with digits of a base. -/
inductive LiteralPart where
  | quoted (body : List Char)
  | coded (radix : Radix) (digits : List Char)

namespace LiteralPart

def chars : LiteralPart → List Char
  | quoted body => '\'' :: (body ++ ['\''])
  | coded radix digits => '#' :: (radix.marker?.toList ++ digits)

/-- What the segment stands for. A quotation mark cannot be quoted, and a code must be one. -/
inductive Denotes : LiteralPart → List Char → Prop
  | quoted {body : List Char} : '\'' ∉ body → Denotes (.quoted body) body
  | coded {radix : Radix} {digits : List Char} {c : Char} : IsRun radix.isDigit digits →
    radix.number digits = c.toNat → Denotes (.coded radix digits) [c]

/-- The segment was read as it is written. -/
inductive IsRead : LiteralPart → StringSegment → Prop
  | quoted {body : List Char} {s : QuotedSegment} : IfAny Leaf.IsBody s.body body →
    IsRead (.quoted body) (.quoted s)
  | coded {s : CodedSegment} {radix : Radix} {digits : List Char} : s.code.radix = radix →
    s.code.digits.text = String.ofList digits → IsRead (.coded radix digits) (.coded s)

/-- One character in quotation marks, and the quotation mark itself by its code. -/
def ofChar (c : Char) : LiteralPart := if c = '\'' then .coded .decimal ['3', '9'] else .quoted [c]

/-- A literal for a text, character by character. -/
def ofText : List Char → List LiteralPart
  | [] => [.quoted []]
  | c :: cs => (c :: cs).map ofChar

theorem denotes_ofChar (c : Char) : (ofChar c).Denotes [c] := by
  rw [ofChar]
  split
  · rename_i hmark
    subst hmark
    exact .coded ⟨List.cons_ne_nil _ _, List.all_eq_true.mp (by decide)⟩ (by decide)
  · rename_i hmark
    refine .quoted ?_
    rw [List.mem_singleton]
    exact fun hc => hmark hc.symm

theorem length_chars_ofChar (c : Char) : (ofChar c).chars.length = 3 := by
  rw [ofChar]
  split <;> rfl

theorem exists_denotes_ofText (text : List Char) :
    ∃ texts, List.Forall₂ Denotes (ofText text) texts ∧ texts.flatten = text := by
  have hchars : ∀ cs : List Char, ∃ texts, List.Forall₂ Denotes (cs.map ofChar) texts ∧
      texts.flatten = cs := by
    intro cs
    induction cs with
    | nil => exact ⟨[], .nil, rfl⟩
    | cons c cs ih =>
      obtain ⟨texts, htexts, hflatten⟩ := ih
      exact ⟨[c] :: texts, .cons (denotes_ofChar c) htexts, congrArg (c :: ·) hflatten⟩
  cases text with
  | nil => exact ⟨[[]], .cons (.quoted List.not_mem_nil) .nil, rfl⟩
  | cons c cs => exact hchars (c :: cs)

theorem ofText_ne_nil (text : List Char) : ofText text ≠ [] := by
  cases text <;> exact List.cons_ne_nil _ _

theorem length_ofText_le (text : List Char) :
    ((ofText text).flatMap chars).length ≤ 3 * text.length + 2 := by
  have hchars : ∀ cs : List Char, ((cs.map ofChar).flatMap chars).length = 3 * cs.length := by
    intro cs
    induction cs with
    | nil => rfl
    | cons c cs ih =>
      rw [List.map_cons, List.flatMap_cons, List.length_append, ih, length_chars_ofChar,
        List.length_cons]
      omega
  cases text with
  | nil => exact Nat.le_refl 2
  | cons c cs =>
    rw [ofText, hchars]
    omega

theorem chars_eq_cons (part : LiteralPart) :
    ∃ c rest, part.chars = c :: rest ∧ isHexDigit c = false := by
  cases part with
  | quoted body => exact ⟨'\'', _, rfl, rfl⟩
  | coded radix digits => exact ⟨'#', _, rfl, rfl⟩

end LiteralPart

/-! Codes of characters. -/

theorem charOfCode?_toNat (c : Char) : charOfCode? c.toNat = some c := by
  have hvalid : c.toNat.isValidChar := c.valid
  rw [charOfCode?, dif_pos hvalid]
  exact congrArg some (Char.ext (UInt32.toNat_inj.mp rfl))

theorem charOfCode?_eq_none_iff {n : Nat} :
    charOfCode? n = none ↔ 0x10FFFF < n ∨ 0xD800 ≤ n ∧ n ≤ 0xDFFF := by
  by_cases h : n.isValidChar
  · rw [charOfCode?, dif_pos h]
    rw [Nat.isValidChar] at h
    exact iff_of_false (Option.some_ne_none _) (by omega)
  · rw [charOfCode?, dif_neg h]
    rw [Nat.isValidChar] at h
    exact iff_of_true rfl (by omega)

theorem toNat_lt_two_pow (c : Char) : c.toNat < 2 ^ 64 := by
  have hvalid : c.toNat.isValidChar := c.valid
  rw [Nat.isValidChar] at hvalid
  omega

/-- The number is no code of a character. -/
def IsNoCode (n : Nat) : Prop := 2 ^ 64 ≤ n ∨ 0x10FFFF < n ∨ 0xD800 ≤ n ∧ n ≤ 0xDFFF

namespace StringSegment

/-- A segment that was read as it is written stands for what that stands for. -/
theorem value?_of_isRead {part : LiteralPart} {s : StringSegment} {text : List Char}
    (h : part.IsRead s) (htext : part.Denotes text) : s.value? = some (String.ofList text) := by
  cases htext with
  | quoted _ =>
    obtain ⟨hbody⟩ := h
    rename_i s
    obtain ⟨opening, body, closing⟩ := s
    cases body with
    | none =>
      obtain rfl : text = [] := hbody
      rfl
    | some l => exact congrArg some hbody.holds.text
  | @coded radix digits c hrun hcode =>
    cases h with
    | coded hradix hdigits =>
      rename_i s
      have hvalue : s.code.value = .ok (c.toNat : Nat) := by
        rw [WholeNumber.value, WholeNumber.valueOf, hradix, hdigits, String.toList_ofList,
          WholeRange.read_unsigned64 hrun, hcode, if_pos (toNat_lt_two_pow c)]
      rw [value?, hvalue]
      simp only [Int.toNat_natCast, charOfCode?_toNat, Option.map_some]

/-- A segment stands for nothing if and only if it is the code of no character. -/
theorem value?_eq_none_iff {s : StringSegment} {cs : List Char} (h : s.IsSpelled cs) :
    s.value? = none ↔ ∃ c, s = .coded c ∧ IsNoCode c.code.denoted := by
  cases h with
  | quoted _ _ _ => simp [value?]
  | @coded c _ _ hcode =>
    have hvalue := hcode.value_eq
    simp only [coded.injEq, exists_eq_left', value?, hvalue, IsNoCode]
    by_cases hfits : c.code.denoted < 2 ^ 64
    · simp only [if_pos hfits, Int.toNat_natCast, Option.map_eq_none_iff, charOfCode?_eq_none_iff]
      omega
    · simp only [if_neg hfits, true_iff]
      omega

end StringSegment

/-! Values of several segments. -/

theorem mapM_eq_some_of_forall₂ {α β : Type} {f : α → Option β} {xs : List α} {ys : List β}
    (h : List.Forall₂ (fun x y => f x = some y) xs ys) : xs.mapM f = some ys := by
  induction h with
  | nil => rfl
  | cons hx _ ih =>
    rw [List.mapM_cons, hx, ih]
    rfl

theorem mapM_eq_none_iff {α β : Type} {f : α → Option β} {xs : List α} :
    xs.mapM f = none ↔ ∃ x ∈ xs, f x = none := by
  induction xs with
  | nil => simp
  | cons x xs ih =>
    rw [List.mapM_cons, List.exists_mem_cons_iff, ← ih]
    cases f x with
    | none => simp
    | some y => cases xs.mapM f <;> simp

theorem join_map_ofList (texts : List (List Char)) :
    String.join (texts.map String.ofList) = String.ofList texts.flatten := by
  induction texts with
  | nil => rfl
  | cons text texts ih =>
    rw [List.map_cons, String.join_cons, ih, List.flatten_cons, String.ofList_append]

namespace StringLiteral

variable {t : StringLiteral}

theorem value?_of_isRead {parts : List LiteralPart} {texts : List (List Char)}
    (h : List.Forall₂ LiteralPart.IsRead parts t.segments)
    (htexts : List.Forall₂ LiteralPart.Denotes parts texts) :
    t.value? = some (String.ofList texts.flatten) := by
  have hvalues : List.Forall₂ (fun s text => s.value? = some text) t.segments
      (texts.map String.ofList) := by
    generalize t.segments = segments at h
    induction h generalizing texts with
    | nil =>
      cases htexts
      exact .nil
    | cons hs _ ih =>
      cases htexts with
      | cons htext htexts => exact .cons (StringSegment.value?_of_isRead hs htext) (ih htexts)
  rw [value?, mapM_eq_some_of_forall₂ hvalues, Option.map_some, join_map_ofList]

theorem IsSpelled.of_mem {cs : List Char} (h : t.IsSpelled cs) :
    ∀ s ∈ t.segments, ∃ cs, s.IsSpelled cs := by
  obtain ⟨hsegments⟩ := h
  generalize t.segments = segments at hsegments
  induction hsegments with
  | nil => exact List.forall_mem_nil _
  | cons hs _ ih => exact List.forall_mem_cons.mpr ⟨⟨_, hs⟩, ih⟩

theorem value?_eq_none_iff {cs : List Char} (h : t.IsSpelled cs) :
    t.value? = none ↔ ∃ c, .coded c ∈ t.segments ∧ IsNoCode c.code.denoted := by
  rw [value?, Option.map_eq_none_iff, mapM_eq_none_iff]
  constructor
  · rintro ⟨s, hs, hnone⟩
    obtain ⟨cs, hspelled⟩ := h.of_mem _ hs
    obtain ⟨c, rfl, hc⟩ := (StringSegment.value?_eq_none_iff hspelled).mp hnone
    exact ⟨c, hs, hc⟩
  · rintro ⟨c, hs, hc⟩
    obtain ⟨cs, hspelled⟩ := h.of_mem _ hs
    exact ⟨_, hs, (StringSegment.value?_eq_none_iff hspelled).mpr ⟨c, rfl, hc⟩⟩

end StringLiteral

namespace Grammar

open Matcher

variable {src : Source} {i j : Nat} {ds : List Char}

theorem finds_quotedSegment {body : List Char} (h : src.Carries i j ('\'' :: (body ++ ['\''])))
    (hbody : '\'' ∉ body) :
    ∃ s, quotedSegment.Finds src i j (.quoted s) ∧ IfAny Leaf.IsBody s.body body := by
  obtain ⟨hopening, hrest⟩ := h.uncons
  obtain ⟨m, hcarries, hclosing⟩ := hrest.split
  have hmark := hclosing.charAt_eq
  cases body with
  | nil =>
    obtain rfl : i + 1 = m := hcarries.length_eq
    have hmiss : stringBody.Misses src (i + 1) := by
      refine misses_run _ hcarries.le_length ?_
      rw [hmark]
      rintro _ ⟨⟩
      rfl
    exact ⟨⟨_, none, _⟩, (finds_char _ hopening).seq3 (hmiss.perhaps hcarries.le_length)
      (finds_char _ hclosing) rfl, rfl⟩
  | cons c cs =>
    have hall : ∀ d ∈ c :: cs, (d != '\'') = true := by
      intro d hd
      rw [bne_iff_ne]
      rintro rfl
      exact hbody hd
    have hfound : stringBody.Finds src (i + 1) m (src.leaf .stringBody (i + 1) m) := by
      refine finds_run _ hcarries (List.cons_ne_nil _ _) hall ?_
      rw [hmark]
      rintro _ ⟨⟩
      rfl
    refine ⟨⟨_, some _, _⟩, (finds_char _ hopening).seq3 hfound.perhaps (finds_char _ hclosing) rfl,
      ⟨rfl, ?_⟩, List.cons_ne_nil _ _, hbody⟩
    exact congrArg String.ofList hcarries.between_eq

/-- A whole number in any base, up to a character that is no digit. -/
theorem finds_unsignedWhole {r : Radix} (hds : IsRun r.isDigit ds)
    (h : src.Carries i j (r.marker?.toList ++ ds))
    (hstop : ∀ c ∈ src.charAt j, isHexDigit c = false) :
    ∃ n, unsignedWhole.Finds src i j n ∧ n.radix = r ∧ n.digits.text = String.ofList ds := by
  have hend : ∀ c ∈ src.charAt j, r.isDigit c = false := by
    intro c hc
    rw [← Bool.not_eq_true]
    intro hd
    have hno := hstop c hc
    rw [Radix.isHexDigit_of_isDigit hd] at hno
    cases hno
  cases r with
  | binary => exact finds_binary hds h hend
  | octal => exact finds_octal hds h hend
  | decimal => exact finds_decimal hds h hend
  | hexadecimal => exact finds_hexadecimal hds h hend

/-- A segment of a string literal. -/
def segment : Matcher StringSegment := firstOf [quotedSegment, codedSegment]

theorem misses_segment (hi : i ≤ src.length) (h : src.charAt i = none) : segment.Misses src i := by
  apply misses_firstOf
  simp only [List.forall_mem_cons]
  refine ⟨?_, ?_, List.forall_mem_nil _⟩
  · refine (misses_char _ hi ?_).seq3
    rw [h]
    nofun
  · refine (misses_char _ hi ?_).seq2
    rw [h]
    nofun

/-- A segment that is followed by no digit is read as it is written. -/
theorem finds_segment {part : LiteralPart} {text : List Char} (htext : part.Denotes text)
    (h : src.Carries i j part.chars) (hstop : ∀ c ∈ src.charAt j, isHexDigit c = false) :
    ∃ s, segment.Finds src i j s ∧ part.IsRead s := by
  cases htext with
  | quoted hbody =>
    obtain ⟨s, hs, hread⟩ := finds_quotedSegment h hbody
    exact ⟨_, hs.firstOf_head, .quoted hread⟩
  | coded hrun _ =>
    have hquoted : quotedSegment.Misses src i :=
      (misses_char _ h.start_le (h.forall_charAt (by decide))).seq3
    obtain ⟨hhash, hcode⟩ := h.uncons
    obtain ⟨n, hn, hradix, hdigits⟩ := finds_unsignedWhole hrun hcode hstop
    exact ⟨_, .firstOf_tail hquoted (Finds.firstOf_head ((finds_char _ hhash).seq2 hn rfl)),
      .coded hradix hdigits⟩

/-- Segments up to the end of the text are read one after another. -/
theorem repeats_segment {parts : List LiteralPart} {texts : List (List Char)}
    (htexts : List.Forall₂ LiteralPart.Denotes parts texts)
    (h : src.Carries i src.length (parts.flatMap LiteralPart.chars)) :
    ∃ ss, segment.Repeats src i src.length ss ∧
      List.Forall₂ (fun part s => part.IsRead s ∧
        src.textOf (Spanned.span s) = .ok (String.ofList part.chars)) parts ss := by
  induction htexts generalizing i with
  | nil =>
    obtain rfl : i = src.length := h.length_eq
    exact ⟨[], .nil h.le_length (misses_segment h.le_length h.charAt_eq_head?), .nil⟩
  | @cons part text parts texts htext _ ih =>
    rw [List.flatMap_cons] at h
    obtain ⟨m, hpart, hparts⟩ := h.split
    have hstop : ∀ c ∈ src.charAt m, isHexDigit c = false := by
      rw [hparts.charAt_eq_head?]
      cases parts with
      | nil => nofun
      | cons next parts =>
        obtain ⟨c, rest, hnext, hc⟩ := next.chars_eq_cons
        rw [List.flatMap_cons, hnext]
        rintro _ ⟨⟩
        exact hc
    obtain ⟨s, hs, hread⟩ := finds_segment htext hpart hstop
    obtain ⟨ss, hss, hreads⟩ := ih hparts
    refine ⟨s :: ss, .cons hs hss, .cons ⟨hread, ?_⟩ hreads⟩
    rw [(hs.tiles.stands hs.lt).textOf, hpart.between_eq]

end Grammar

/-- The literal takes up the whole text, its segments are those that were written, and it stands for
what they stand for. -/
structure StringLiteral.Decodes (t : StringLiteral) (src : Source) (parts : List LiteralPart)
    (text : List Char) : Prop where
  first : Spanned.first t = .origin
  whole : src.textOf (Spanned.span t) = .ok (String.ofList src.chars.toList)
  segments : List.Forall₂ (fun part s => part.IsRead s ∧
    src.textOf (Spanned.span s) = .ok (String.ofList part.chars)) parts t.segments
  value : t.value? = some (String.ofList text)

namespace Grammar

open Matcher

theorem exists_decodes {src : Source} {parts : List LiteralPart} {texts : List (List Char)}
    (hparts : parts ≠ []) (htexts : List.Forall₂ LiteralPart.Denotes parts texts)
    (hsrc : src.chars.toList = parts.flatMap LiteralPart.chars) :
    ∃ t, stringLiteral src .origin = .found t ∧ t.Decodes src parts texts.flatten := by
  have hall := src.carries_all
  have hcarries := src.carries_all
  rw [hsrc] at hcarries
  obtain ⟨ss, hss, hreads⟩ := repeats_segment htexts hcarries
  have hne : ss ≠ [] := by
    rintro rfl
    cases hreads
    exact hparts rfl
  obtain ⟨s, ss, rfl⟩ := List.exists_cons_of_ne_nil hne
  have hfinds : stringLiteral.Finds src 0 src.length ⟨s, ss⟩ := hss.finds_many rfl
  have hstands := hfinds.tiles.stands hfinds.lt
  refine ⟨⟨s, ss⟩, ?_, ?_, ?_, hreads, ?_⟩
  · rw [← src.place_zero]
    exact hfinds.found
  · rw [← src.place_zero]
    exact hstands.first
  · rw [hstands.textOf, hall.between_eq]
  · exact StringLiteral.value?_of_isRead (hreads.imp fun _ _ h => h.1) htexts

/-- What is written as a string literal is read back as it is written, every text is the value of
some literal, and a literal that is found has no value only for a code that is none. -/
theorem stringLiteral_value :
    (∀ (src : Source) (parts : List LiteralPart) (texts : List (List Char)), parts ≠ [] →
      List.Forall₂ LiteralPart.Denotes parts texts →
      src.chars.toList = parts.flatMap LiteralPart.chars →
      ∃ t, stringLiteral src .origin = .found t ∧ t.Decodes src parts texts.flatten) ∧
    (∀ text : String, ∃ cs : List Char, cs.length ≤ 3 * text.length + 2 ∧
      ∀ src : Source, src.chars.toList = cs → ∃ t, stringLiteral src .origin = .found t ∧
        src.textOf (Spanned.span t) = .ok (String.ofList cs) ∧ t.value? = some text) ∧
    (∀ (src : Source) (here : Position) (t : StringLiteral), stringLiteral src here = .found t →
      (t.value? = none ↔ ∃ c, .coded c ∈ t.segments ∧ IsNoCode c.code.denoted)) := by
  refine ⟨fun src parts texts => exists_decodes, fun text => ?_, fun src here t ht => ?_⟩
  · obtain ⟨texts, htexts, hflatten⟩ := LiteralPart.exists_denotes_ofText text.toList
    refine ⟨_, LiteralPart.length_ofText_le text.toList, fun src hsrc => ?_⟩
    obtain ⟨t, ht, hdecodes⟩ := exists_decodes (LiteralPart.ofText_ne_nil _) htexts hsrc
    refine ⟨t, ht, hsrc ▸ hdecodes.whole, ?_⟩
    rw [hdecodes.value, hflatten, String.ofList_toList]
  · obtain ⟨cs, hspelled, -⟩ := spells_stringLiteral ht
    exact StringLiteral.value?_eq_none_iff hspelled

/-- A quoted letter and a coded one, and a code that is none. -/
theorem stringLiteral_value_hexadecimal :
    (∃ t, stringLiteral (Source.mk #['\'', 'a', '\'', '#', '$', '4', '1'] (by decide)) .origin =
        .found t ∧
      t.Decodes (Source.mk #['\'', 'a', '\'', '#', '$', '4', '1'] (by decide))
        [.quoted ['a'], .coded .hexadecimal ['4', '1']] ['a', 'A']) ∧
    ∃ t, stringLiteral (Source.mk #['#', '$', 'D', '8', '0', '0'] (by decide)) .origin = .found t ∧
      t.value? = none := by
  obtain ⟨hdecodes, -, hnone⟩ := stringLiteral_value
  have hread : stringLiteral (Source.mk #['#', '$', 'D', '8', '0', '0'] (by decide)) .origin =
      .found ⟨.coded ⟨⟨.hash, "#", ⟨0, 0, 0⟩, ⟨0, 0, 0⟩⟩,
        .marked .hexadecimal ⟨.dollar, "$", ⟨0, 1, 1⟩, ⟨0, 1, 1⟩⟩
          ⟨.hexDigits, "D800", ⟨0, 2, 2⟩, ⟨0, 5, 5⟩⟩⟩, []⟩ := rfl
  refine ⟨?_, _, hread, (hnone _ _ _ hread).mpr ⟨_, List.mem_cons_self, ?_⟩⟩
  · exact hdecodes _ _ [['a'], ['A']] (List.cons_ne_nil _ _)
      (.cons (.quoted (by decide))
        (.cons (.coded ⟨List.cons_ne_nil _ _, List.all_eq_true.mp (by decide)⟩ (by decide)) .nil))
      rfl
  · exact .inr (.inr (by decide))

end Grammar

end Reckon
