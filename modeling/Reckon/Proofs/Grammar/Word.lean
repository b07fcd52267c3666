import Reckon.Grammar.Comment
import Reckon.Proofs.Grammar.Number

/-! Where identifiers, special symbols, white space and string literals are found and where they are
not. An identifier is found up to its end. A special symbol of one character is found where it does
not make one of two characters together with the next. The signs that begin comments are such pairs,
so no comment begins there either. -/

namespace Reckon.Grammar

open Matcher

variable {src : Source} {i j : Nat} {cs : List Char}

/-- The classes of characters tell letters and the underscore, digits, and the others apart. -/
theorem identifierClass_cases (c : Char) :
    (isNameStart c = true ∧ (identifierClass c = 0 ∨ identifierClass c = 1)) ∨
    (isNameStart c = false ∧ isDecimalDigit c = true ∧ identifierClass c = 2) ∨
    (isNameStart c = false ∧ isDecimalDigit c = false ∧ identifierClass c = 3) := by
  unfold identifierClass isNameStart
  split
  · rename_i ha
    simp [ha]
  · rename_i ha
    split
    · rename_i hu
      simp [hu]
    · rename_i hu
      split
      · rename_i hd
        simp [ha, hu, hd]
      · rename_i hd
        simp [ha, hu, hd]

/-- The first character must be a letter or an underscore. -/
theorem next_of_start (c : Char) :
    identifierAutomaton.next 0 c = .ok (if isNameStart c then .accepting 1 else .dead) := by
  have hentries : identifierAutomaton.table[0]? = some [.accepting 1, .accepting 1, .dead, .dead] :=
    rfl
  have hclassify : identifierAutomaton.classify = identifierClass := rfl
  rw [Automaton.next, hentries, hclassify]
  rcases identifierClass_cases c with ⟨hs, hc | hc⟩ | ⟨hs, -, hc⟩ | ⟨hs, -, hc⟩ <;>
    simp only [hs, hc] <;> rfl

/-- After the first character letters, underscores and digits go on, and nothing else does. -/
theorem next_of_row {row : Nat} (hrow : row = 1 ∨ row = 2) (c : Char) :
    identifierAutomaton.next row c = .ok (if isNamePart c then .accepting 2 else .dead) := by
  have hentries : identifierAutomaton.table[row]? =
      some [.accepting 2, .accepting 2, .accepting 2, .dead] := by
    rcases hrow with rfl | rfl <;> rfl
  have hclassify : identifierAutomaton.classify = identifierClass := rfl
  rw [Automaton.next, hentries, isNamePart, hclassify]
  rcases identifierClass_cases c with ⟨hs, hc | hc⟩ | ⟨hs, hd, hc⟩ | ⟨hs, hd, hc⟩
  · simp only [hs, hc, Bool.true_or]
    rfl
  · simp only [hs, hc, Bool.true_or]
    rfl
  · simp only [hs, hd, hc, Bool.or_true]
    rfl
  · simp only [hs, hd, hc, Bool.or_false]
    rfl

theorem stepsFor_dead (a : Automaton) (src : Source) (n i : Nat) :
    a.stepsFor src n .dead i = .ok [] := by
  cases n <;> rfl

/-- The automaton goes on to the end of the name. -/
theorem lastAccepted_of_row {row n : Nat} (hrow : row = 1 ∨ row = 2) (h : src.Carries i j cs)
    (hcs : ∀ c ∈ cs, isNamePart c = true) (hstop : ∀ c ∈ src.charAt j, isNamePart c = false)
    (hn : src.length - i ≤ n) :
    ∃ steps, identifierAutomaton.stepsFor src n (.accepting row) i = .ok steps ∧
      Automaton.lastAccepted steps = if cs = [] then none else some (j - 1) := by
  induction cs generalizing i row n with
  | nil =>
    obtain rfl : i = j := h.length_eq
    cases n with
    | zero => exact ⟨[], rfl, rfl⟩
    | succ n =>
      rw [Automaton.stepsFor]
      cases hc : src.charAt i with
      | none => exact ⟨[], rfl, rfl⟩
      | some c =>
        refine ⟨[⟨i, c, .dead⟩], ?_, rfl⟩
        simp only [AutomatonState.row?, next_of_row hrow, hstop c hc, Bool.false_eq_true, if_false,
          stepsFor_dead]
  | cons c cs ih =>
    obtain ⟨-, hrest⟩ := h.uncons
    have hlt := h.lt (List.cons_ne_nil _ _)
    have hle := h.le_length
    obtain ⟨m, rfl⟩ : ∃ m, n = m + 1 := ⟨n - 1, by omega⟩
    have hpart := hcs c List.mem_cons_self
    obtain ⟨steps, hsteps, hlast⟩ := ih (n := m) (.inr rfl) hrest
      (fun d hd => hcs d (List.mem_cons_of_mem _ hd)) (by omega)
    refine ⟨⟨i, c, .accepting 2⟩ :: steps, ?_, ?_⟩
    · rw [Automaton.stepsFor, h.charAt_eq]
      simp only [AutomatonState.row?, next_of_row hrow, hpart, if_true, hsteps]
    · rw [Automaton.lastAccepted, hlast, if_neg (List.cons_ne_nil _ _)]
      by_cases hnil : cs = []
      · obtain rfl := hnil
        obtain rfl : i + 1 = j := hrest.length_eq
        rfl
      · rw [if_neg hnil]
        rfl

theorem ne_nil_of_isName (h : isName cs = true) : cs ≠ [] := by
  rintro rfl
  cases h

theorem isNamePart_of_isName {cs : List Char} (h : isName cs = true) :
    ∀ c ∈ cs, isNamePart c = true := by
  cases cs with
  | nil => cases h
  | cons c cs =>
    unfold isName at h
    rw [Bool.and_eq_true, List.all_eq_true] at h
    intro d hd
    rcases List.mem_cons.mp hd with rfl | hd
    · rw [isNamePart, h.1, Bool.true_or]
    · exact h.2 d hd

/-- Where a letter or an underscore stands there is a name, up to what cannot go on with it. -/
theorem exists_carries_name {c : Char} (h : src.charAt i = some c) (hc : isNameStart c = true) :
    ∃ j cs, isName cs = true ∧ src.Carries i j cs ∧
      ∀ d ∈ src.charAt j, isNamePart d = false := by
  obtain ⟨j, hcarries, hstop⟩ := Source.exists_carries_takeWhile isNamePart h
  refine ⟨j, _, ?_, hcarries, hstop⟩
  rw [isName, hc, List.all_takeWhile, Bool.true_and]

theorem finds_identifier (hname : isName cs = true) (h : src.Carries i j cs)
    (hstop : ∀ c ∈ src.charAt j, isNamePart c = false) :
    identifier.Finds src i j (src.leaf .identifier i j) := by
  cases cs with
  | nil => cases hname
  | cons c cs =>
    rw [isName, Bool.and_eq_true, List.all_eq_true] at hname
    obtain ⟨hstart, hparts⟩ := hname
    obtain ⟨-, hrest⟩ := h.uncons
    have hlt := h.lt (List.cons_ne_nil _ _)
    have hle := h.le_length
    refine ⟨?_, src.tiles_leaf _ hlt hle⟩
    obtain ⟨n, hn⟩ : ∃ n, src.length - i = n + 1 := ⟨src.length - i - 1, by omega⟩
    obtain ⟨steps, hsteps, hlast⟩ := lastAccepted_of_row (n := n) (.inl rfl) hrest hparts hstop
      (by omega)
    have hall : identifierAutomaton.steps src i = .ok (⟨i, c, .accepting 1⟩ :: steps) := by
      rw [Automaton.steps, hn]
      change identifierAutomaton.stepsFor src (n + 1) (.reading 0) i = _
      rw [Automaton.stepsFor, h.charAt_eq]
      simp only [AutomatonState.row?, next_of_start, hstart, if_true, hsteps]
    have haccepted : Automaton.lastAccepted (⟨i, c, .accepting 1⟩ :: steps) = some (j - 1) := by
      rw [Automaton.lastAccepted, hlast]
      by_cases hnil : cs = []
      · obtain rfl := hnil
        obtain rfl : i + 1 = j := hrest.length_eq
        rfl
      · rw [if_neg hnil]
        rfl
    rw [identifier, automaton, Source.offset_place (by omega), hall]
    simp only [Attempt.ofExcept_ok, Attempt.found_bind, haccepted]
    exact through_eq _ hlt hle

theorem misses_identifier (hi : i ≤ src.length) (h : ∀ c ∈ src.charAt i, isNameStart c = false) :
    identifier.Misses src i := by
  have hall : ∃ steps, identifierAutomaton.steps src i = .ok steps ∧
      Automaton.lastAccepted steps = none := by
    rw [Automaton.steps]
    change ∃ steps, identifierAutomaton.stepsFor src _ (.reading 0) i = .ok steps ∧ _
    cases src.length - i with
    | zero => exact ⟨[], rfl, rfl⟩
    | succ n =>
      rw [Automaton.stepsFor]
      cases hc : src.charAt i with
      | none => exact ⟨[], rfl, rfl⟩
      | some c =>
        refine ⟨[⟨i, c, .dead⟩], ?_, rfl⟩
        simp only [AutomatonState.row?, next_of_start, h c hc, Bool.false_eq_true, if_false,
          stepsFor_dead]
  obtain ⟨steps, hsteps, hlast⟩ := hall
  rw [Misses, identifier, automaton, Source.offset_place hi, hsteps]
  simp only [Attempt.ofExcept_ok, Attempt.found_bind, hlast]

/-- An identifier that is found is the name that stands there. -/
theorem exists_name_of_identifier {l : Leaf} (hi : i ≤ src.length)
    (h : identifier src (src.place i) = .found l) :
    ∃ j cs, isName cs = true ∧ src.Carries i j cs ∧ l.text = String.ofList cs ∧
      identifier.Finds src i j l := by
  rcases src.passes_or_fails i isNameStart with ⟨c, hc, hstart⟩ | hno
  · obtain ⟨j, cs, hname, hcarries, hstop⟩ := exists_carries_name hc hstart
    have hfinds := finds_identifier hname hcarries hstop
    obtain rfl := Attempt.found.inj (h.symm.trans hfinds.found)
    refine ⟨j, cs, hname, hcarries, ?_, hfinds⟩
    exact congrArg String.ofList hcarries.between_eq
  · have hmisses : identifier.Misses src i := misses_identifier hi hno
    rw [hmisses] at h
    cases h

/-- Two characters that make a special symbol together. -/
def makesDouble (c d : Char) : Bool := doubleSymbols.any fun s => s.chars == [c, d]

theorem makesDouble_eq_false {c d : Char} (h : ∀ s ∈ doubleSymbols, s.head = c → d ∉ s.tail) :
    makesDouble c d = false := by
  rw [makesDouble, List.any_eq_false]
  intro s hs heq
  obtain ⟨hhead, htail⟩ := List.cons.inj (eq_of_beq heq)
  apply h s hs hhead
  rw [htail]
  exact List.mem_cons_self

theorem startsWithAt_pair {a b : Char} (h : src.startsWithAt i [a, b] = true) :
    src.charAt i = some a ∧ src.charAt (i + 1) = some b := by
  simpa [Source.startsWithAt] using h

theorem finds_single {c : Char} {symbols : List Char} (kind : LeafKind) (hc : c ∈ symbols)
    (h : src.Carries i j [c]) :
    (firstOf (symbols.map (char kind))).Finds src i j (src.leaf kind i j) := by
  induction symbols with
  | nil => cases hc
  | cons d ds ih =>
    by_cases hcd : c = d
    · obtain rfl := hcd
      exact (finds_char kind h).firstOf_head
    · have hmem : c ∈ ds := (List.mem_cons.mp hc).resolve_left hcd
      refine Finds.firstOf_tail ?_ (ih hmem)
      exact misses_char kind h.start_le (h.forall_charAt hcd)

theorem misses_double {c : Char} (h : src.Carries i j [c])
    (hpair : ∀ d ∈ src.charAt j, makesDouble c d = false) :
    ∀ s ∈ doubleSymbols, src.startsWithAt i s.chars = false := by
  intro s hs
  have hlen : ∀ s ∈ doubleSymbols, s.tail.length = 1 := by decide
  obtain ⟨b, hb⟩ := List.length_eq_one_iff.mp (hlen s hs)
  have hab : s.chars = [s.head, b] := by rw [Symbol.chars, hb]
  rw [← Bool.not_eq_true]
  intro hstart
  rw [hab] at hstart
  obtain ⟨ha, hb⟩ := startsWithAt_pair hstart
  obtain rfl : i + 1 = j := h.length_eq
  rw [h.charAt_eq, Option.some.injEq] at ha
  have hno := hpair b hb
  rw [makesDouble, List.any_eq_false] at hno
  exact hno s hs (by simp [hab, ha])

theorem finds_specialSymbol {c : Char} (hc : c ∈ singleSymbols) (h : src.Carries i j [c])
    (hpair : ∀ d ∈ src.charAt j, makesDouble c d = false) :
    specialSymbol.Finds src i j (src.leaf .specialSymbol i j) := by
  apply Finds.firstOf_append _ (finds_single _ hc h)
  intro p hp
  obtain ⟨s, hs, rfl⟩ := List.mem_map.mp hp
  exact misses_symbol _ h.start_le (misses_double h hpair s hs)

theorem misses_stringLiteral (hi : i ≤ src.length) (h : ∀ c ∈ src.charAt i, c ≠ '\'' ∧ c ≠ '#') :
    stringLiteral.Misses src i := by
  apply Misses.many
  apply misses_firstOf
  intro p hp
  simp only [List.mem_cons, List.not_mem_nil, or_false] at hp
  rcases hp with rfl | rfl
  · exact (misses_char _ hi fun c hc => (h c hc).1).seq3
  · exact (misses_char _ hi fun c hc => (h c hc).2).seq2

theorem misses_comment (hi : i ≤ src.length) (h : openerAt src i = none) :
    Misses comment src i := by
  change comment src (src.place i) = .absent
  rw [comment, commentAt, commentWithin, Source.offset_place hi, h]

theorem openerAt_eq_none {c : Char} (h : src.Carries i j [c]) (hc : c ≠ '{')
    (hpair : ∀ d ∈ src.charAt j, makesDouble c d = false) : openerAt src i = none := by
  have hdouble := misses_double h hpair
  rw [openerAt, List.find?_eq_none]
  intro kind _
  rw [Bool.not_eq_true]
  cases kind with
  | line => exact hdouble ⟨'/', ['/']⟩ (by simp [doubleSymbols])
  | round => exact hdouble ⟨'(', ['*']⟩ (by simp [doubleSymbols])
  | curly =>
    rw [CommentKind.opener, Source.startsWithAt, h.charAt_eq]
    simp [hc]

end Reckon.Grammar
