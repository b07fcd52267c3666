import Mathlib.Data.List.Count
import Reckon.Expr.Reader

/-! What the log of a reader tells about the expression it reads. Operands are joined in three
places: before an operator, at a closing parenthesis and at the end. Wherever that is done, the
shifts and joins made so far are those that build the operands on the stack, the lowest one first,
and the operators that were pushed and not yet joined are those on the other stack. In the end there
is one operand and no operator, so the shifts and joins build the expression from its leaves up, and
every operator was joined as often as it was pushed and never more often than it had been pushed.
-/

namespace Reckon

theorem Operator.text_injective : Function.Injective Operator.text := by
  intro op op' h
  have hsome := op.ofSymbol?_text
  rw [h, op'.ofSymbol?_text] at hsome
  exact (Option.some.inj hsome).symm

namespace Move

/-- Whether the move makes an operand. -/
def builds : Move → Bool
  | .shift _ | .reduce _ => true
  | .push _ | .accept => false

/-- Whether the move puts an operator of the given ones on its stack. -/
def pushes (which : Operator → Bool) : Move → Bool
  | .push op => which op
  | _ => false

/-- Whether the move joins operands by an operator of the given ones. -/
def joins (which : Operator → Bool) : Move → Bool
  | .reduce op => which op
  | _ => false

theorem count_push (moves : List Move) (op : Operator) :
    moves.count (.push op) = moves.countP (pushes (· == op)) := by
  rw [List.count_eq_countP]
  refine List.countP_congr fun m _ => ?_
  cases m <;> simp [pushes]

theorem count_reduce (moves : List Move) (op : Operator) :
    moves.count (.reduce op) = moves.countP (joins (· == op)) := by
  rw [List.count_eq_countP]
  refine List.countP_congr fun m _ => ?_
  cases m <;> simp [joins]

/-! What is written to the log for a move. The first word tells what kind of move it is. -/

theorem describe_injective : Function.Injective describe := by
  intro m m' h
  have hchars := congrArg String.toList h
  cases m <;> cases m' <;>
    simp [describe, Operator.text_injective.eq_iff] at h hchars ⊢
  all_goals exact h

theorem startsWith_eq_builds (m : Move) :
    (m.describe.startsWith "Shift " || m.describe.startsWith "Reduce ") = m.builds := by
  rw [Bool.eq_iff_iff, Bool.or_eq_true, String.startsWith_string_iff, String.startsWith_string_iff]
  cases m <;> simp [describe, builds]

theorem startsWith_eq_pushes (m : Move) :
    m.describe.startsWith "Push " = m.pushes fun _ => true := by
  rw [Bool.eq_iff_iff, String.startsWith_string_iff]
  cases m <;> simp [describe, pushes]

theorem startsWith_eq_joins (m : Move) :
    m.describe.startsWith "Reduce " = m.joins fun _ => true := by
  rw [Bool.eq_iff_iff, String.startsWith_string_iff]
  cases m <;> simp [describe, joins]

end Move

/-- Whether an operator of the given ones is held back. -/
def Held.holds (which : Operator → Bool) : Held → Bool
  | .operator op => which op
  | .opening => false

/-- The moves that make the expression: each leaf is shifted, and operands are joined when both are
there, the left one first. Parentheses take no move. -/
def Expr.building : Expr → List Move
  | .literal text => [.shift text]
  | .name text => [.shift text]
  | .binary left op right => building left ++ building right ++ [.reduce op]
  | .paren inner => building inner

namespace ExprReader

/-- The stacks of a reader that has made the moves. -/
structure Traced (ops : List Held) (es : List Expr) (moves : List Move) : Prop where
  builds : moves.filter Move.builds = es.reverse.flatMap Expr.building
  /-- What was pushed was joined or is held back. -/
  pushes : ∀ which, moves.countP (Move.pushes which) =
    moves.countP (Move.joins which) + ops.countP (Held.holds which)
  /-- At no time had more been joined than pushed. -/
  pushed_first : ∀ front, front <+: moves → ∀ which,
    front.countP (Move.joins which) ≤ front.countP (Move.pushes which)
  not_accepted : .accept ∉ moves

namespace Traced

variable {ops ops' : List Held} {es es' : List Expr} {moves : List Move} {op : Operator} {e : Expr}

theorem nil : Traced [] [] [] where
  builds := rfl
  pushes _ := rfl
  pushed_first := by
    intro front hfront which
    rw [List.prefix_nil.mp hfront]
    exact Nat.le_refl _
  not_accepted := List.not_mem_nil

/-- After one more move it is enough to look at the stacks: what holds of the whole log held of
every beginning of it. -/
theorem concat (h : Traced ops es moves) {m : Move} (hm : m ≠ .accept)
    (hbuilds : (moves ++ [m]).filter Move.builds = es'.reverse.flatMap Expr.building)
    (hpushes : ∀ which, (moves ++ [m]).countP (Move.pushes which) =
      (moves ++ [m]).countP (Move.joins which) + ops'.countP (Held.holds which)) :
    Traced ops' es' (moves ++ [m]) where
  builds := hbuilds
  pushes := hpushes
  pushed_first := by
    intro front hfront which
    rcases List.prefix_concat_iff.mp hfront with rfl | hfront
    · have hall := hpushes which
      omega
    · exact h.pushed_first front hfront which
  not_accepted := by
    rw [List.mem_append, List.mem_singleton, not_or]
    exact ⟨h.not_accepted, hm.symm⟩

theorem append_nil (h : Traced ops es moves) : Traced ops es (moves ++ []) := by
  rwa [List.append_nil]

/-! What each move does to the stacks. -/

theorem shift (h : Traced ops es moves) {text : String} (he : e.building = [.shift text]) :
    Traced ops (e :: es) (moves ++ [.shift text]) := by
  refine h.concat nofun ?_ fun which => ?_
  · rw [List.filter_append, h.builds, List.reverse_cons, List.flatMap_append,
      List.flatMap_singleton, he]
    rfl
  · have hpushes := h.pushes which
    simpa [Move.pushes, Move.joins] using hpushes

theorem push (h : Traced ops es moves) (op : Operator) :
    Traced (.operator op :: ops) es (moves ++ [.push op]) := by
  refine h.concat nofun ?_ fun which => ?_
  · rw [List.filter_append, h.builds]
    exact List.append_nil _
  · have hpushes := h.pushes which
    cases hop : which op <;>
      simp [Move.pushes, Move.joins, Held.holds, hop, hpushes, Nat.add_assoc]

theorem join {right left : Expr} (h : Traced (.operator op :: ops) (right :: left :: es) moves) :
    Traced ops (.binary left op right :: es) (moves ++ [.reduce op]) := by
  refine h.concat nofun ?_ fun which => ?_
  · rw [List.filter_append, h.builds]
    simp [Expr.building, Move.builds]
  · have hpushes := h.pushes which
    cases hop : which op <;>
      simp [Move.pushes, Move.joins, Held.holds, hop, hpushes, Nat.add_assoc, Nat.add_comm 1]

theorem opening (h : Traced ops es moves) : Traced (.opening :: ops) es moves :=
  ⟨h.builds, h.pushes, h.pushed_first, h.not_accepted⟩

/-- Parentheses are told by no move. -/
theorem close (h : Traced (.opening :: ops) (e :: es) moves) :
    Traced ops (.paren e :: es) moves := by
  refine ⟨?_, h.pushes, h.pushed_first, h.not_accepted⟩
  rw [h.builds, List.reverse_cons, List.reverse_cons, List.flatMap_append, List.flatMap_append]
  rfl

/-! The three loops that join operands. -/

theorem reduce {here : Position} (h : Traced (.operator op :: ops) es moves)
    (hr : (ExprReader.reduce op here es).result = .ok es') :
    Traced ops es' (moves ++ (ExprReader.reduce op here es).log) := by
  match es, hr with
  | right :: left :: es, hr =>
    obtain rfl := Except.ok.inj hr
    exact h.join

theorem reduceFor {here : Position} (h : Traced ops es moves)
    (hr : (ExprReader.reduceFor op here ops es).result = .ok (es', ops')) :
    Traced ops' es' (moves ++ (ExprReader.reduceFor op here ops es).log) := by
  induction ops generalizing es moves with
  | nil =>
    cases hr
    exact h.append_nil
  | cons item ops ih =>
    cases item with
    | opening =>
      cases hr
      exact h.append_nil
    | operator top =>
      rw [ExprReader.reduceFor] at hr ⊢
      split at hr
      · rename_i hlt
        cases hr
        rw [if_pos hlt]
        exact h.append_nil
      · rename_i hle
        rw [if_neg hle]
        obtain ⟨joined, hjoined, hrest⟩ := Logged.exists_of_bind_eq_ok hr
        rw [Logged.log_bind_of_ok hjoined, ← List.append_assoc]
        exact ih (h.reduce hjoined) hrest

theorem closeParen {here : Position} (h : Traced ops es moves)
    (hr : (ExprReader.closeParen here ops es).result = .ok (es', ops')) :
    Traced ops' es' (moves ++ (ExprReader.closeParen here ops es).log) := by
  induction ops generalizing es moves with
  | nil => cases hr
  | cons item ops ih =>
    cases item with
    | opening =>
      match es, hr with
      | inner :: es, hr =>
        cases hr
        exact h.close.append_nil
    | operator top =>
      rw [ExprReader.closeParen] at hr ⊢
      obtain ⟨joined, hjoined, hrest⟩ := Logged.exists_of_bind_eq_ok hr
      rw [Logged.log_bind_of_ok hjoined, ← List.append_assoc]
      exact ih (h.reduce hjoined) hrest

theorem reduceAll {here : Position} (h : Traced ops es moves)
    (hr : (ExprReader.reduceAll here ops es).result = .ok es') :
    Traced [] es' (moves ++ (ExprReader.reduceAll here ops es).log) := by
  induction ops generalizing es moves with
  | nil =>
    cases hr
    exact h.append_nil
  | cons item ops ih =>
    cases item with
    | opening => cases hr
    | operator top =>
      rw [ExprReader.reduceAll] at hr ⊢
      obtain ⟨joined, hjoined, hrest⟩ := Logged.exists_of_bind_eq_ok hr
      rw [Logged.log_bind_of_ok hjoined, ← List.append_assoc]
      exact ih (h.reduce hjoined) hrest

end Traced

variable {r r' : ExprReader} {moves : List Move} {e : Expr}

/-- Taking an item keeps the log and the stacks in step. -/
theorem Traced.step {t : Item} (h : Traced r.operators r.operands moves)
    (hs : (r.step t).result = .ok r') :
    Traced r'.operators r'.operands (moves ++ (r.step t).log) := by
  unfold ExprReader.step at hs ⊢
  split at hs
  · rename_i hallows
    rw [if_pos hallows]
    cases hk : t.kind with
    | literal =>
      simp only [hk] at hs ⊢
      cases hs
      exact h.shift rfl
    | name =>
      simp only [hk] at hs ⊢
      cases hs
      exact h.shift rfl
    | operator =>
      simp only [hk] at hs ⊢
      split at hs
      · cases hs
      · rename_i op hop
        obtain ⟨reduced, hreduced, hs⟩ := Logged.exists_of_bind_eq_ok hs
        cases hs
        rw [Logged.log_bind_of_ok hreduced, ← List.append_assoc]
        exact (h.reduceFor hreduced).push op
    | opening =>
      simp only [hk] at hs ⊢
      cases hs
      exact h.opening.append_nil
    | closing =>
      simp only [hk] at hs ⊢
      split at hs
      · cases hs
      · rename_i hu
        obtain ⟨closed, hclosed, hs⟩ := Logged.exists_of_bind_eq_ok hs
        cases hs
        rw [if_neg hu, Logged.log_bind_of_ok hclosed, ← List.append_assoc]
        exact (h.closeParen hclosed).append_nil
  · cases hs

/-- Taking items one by one keeps the log and the stacks in step. -/
theorem Traced.steps {ts : List Item} (h : Traced r.operators r.operands moves)
    (hs : (r.steps ts).result = .ok r') :
    Traced r'.operators r'.operands (moves ++ (r.steps ts).log) := by
  induction ts generalizing r moves with
  | nil =>
    cases hs
    exact h.append_nil
  | cons t ts ih =>
    rw [ExprReader.steps] at hs ⊢
    obtain ⟨q, hq, hrest⟩ := Logged.exists_of_bind_eq_ok hs
    rw [Logged.log_bind_of_ok hq, ← List.append_assoc]
    exact ih (h.step hq) hrest

/-- What is accepted is all that is left, and accepting it is the last move. -/
theorem Traced.finish {stop : Position} (h : Traced r.operators r.operands moves)
    (hf : (r.finish stop).result = .ok e) :
    ∃ made, moves ++ (r.finish stop).log = made ++ [.accept] ∧ Traced [] [e] made := by
  unfold ExprReader.finish at hf ⊢
  split at hf
  · cases hf
  · rename_i hprevious
    rw [if_neg hprevious]
    split at hf
    · cases hf
    · rename_i hunmatched
      rw [if_neg hunmatched]
      obtain ⟨left, hleft, hf⟩ := Logged.exists_of_bind_eq_ok hf
      rw [Logged.log_bind_of_ok hleft, ← List.append_assoc]
      match left, hleft, hf with
      | [e'], hleft, hf =>
        cases hf
        exact ⟨_, rfl, h.reduceAll hleft⟩

/-- What a reader writes to its log when it is given the items, one record for each move. -/
def records (ts : List Item) (stop : Position) : List String :=
  (read ts stop).log.map Move.describe

end ExprReader

namespace Expr

/-- The records tell how the expression is made, and that it was accepted. -/
structure IsMadeBy (e : Expr) (records : List String) : Prop where
  builds : records.filter (fun s => s.startsWith "Shift " || s.startsWith "Reduce ") =
    e.building.map Move.describe
  pushes : ∀ op, records.count (Move.push op).describe = records.count (Move.reduce op).describe
  /-- At no time was more joined than pushed, all in all and of each operator. -/
  pushed_first : ∀ front, front <+: records →
    front.countP (·.startsWith "Reduce ") ≤ front.countP (·.startsWith "Push ") ∧
      ∀ op, front.count (Move.reduce op).describe ≤ front.count (Move.push op).describe
  accepted : records.count "Accept" = 1 ∧ records.getLast? = some "Accept"

/-- Moves that leave one operand and no operator make the operand, which may then be accepted. -/
theorem isMadeBy_of_traced {e : Expr} {moves : List Move} (h : ExprReader.Traced [] [e] moves) :
    e.IsMadeBy ((moves ++ [Move.accept]).map Move.describe) := by
  have hcount : ∀ (ms : List Move) m, (ms.map Move.describe).count m.describe = ms.count m :=
    fun ms m => List.count_map_of_injective ms _ Move.describe_injective m
  constructor
  case builds =>
    have hbuilds : (fun s : String => s.startsWith "Shift " || s.startsWith "Reduce ") ∘
        Move.describe = Move.builds := funext Move.startsWith_eq_builds
    rw [List.filter_map, hbuilds, List.filter_append, h.builds]
    simp [Move.builds]
  case pushes =>
    intro op
    rw [hcount, hcount, Move.count_push, Move.count_reduce, List.countP_append, List.countP_append,
      h.pushes]
    rfl
  case pushed_first =>
    intro front hfront
    obtain ⟨ms, hms, rfl⟩ := List.prefix_map_iff.mp hfront
    have hle : ∀ which, ms.countP (Move.joins which) ≤ ms.countP (Move.pushes which) := by
      intro which
      rcases List.prefix_concat_iff.mp hms with rfl | hms
      · rw [List.countP_append, List.countP_append, h.pushes]
        exact Nat.le_refl _
      · exact h.pushed_first ms hms which
    refine ⟨?_, fun op => ?_⟩
    · have hpushes : (fun s : String => s.startsWith "Push ") ∘ Move.describe =
          Move.pushes fun _ => true := funext Move.startsWith_eq_pushes
      have hjoins : (fun s : String => s.startsWith "Reduce ") ∘ Move.describe =
          Move.joins fun _ => true := funext Move.startsWith_eq_joins
      rw [List.countP_map, List.countP_map, hpushes, hjoins]
      exact hle _
    · rw [hcount, hcount, Move.count_push, Move.count_reduce]
      exact hle _
  case accepted =>
    refine ⟨?_, by simp [Move.describe]⟩
    change ((moves ++ [Move.accept]).map Move.describe).count Move.accept.describe = 1
    rw [hcount, List.count_append, List.count_eq_zero_of_not_mem h.not_accepted]
    rfl

/-- Where an expression is read, the shifts and joins that are logged are its leaves and operators,
every operator behind both its operands. Each operator is pushed as often as it is joined, nothing
is joined before it is pushed, and the last thing that is logged is that the expression was
accepted. -/
theorem isMadeBy_records {ts : List Item} {stop : Position} {e : Expr}
    (h : ofItems ts stop = .ok e) : e.IsMadeBy (ExprReader.records ts stop) := by
  obtain ⟨r, hr, hfinish⟩ := Logged.exists_of_bind_eq_ok h
  obtain ⟨moves, hmoves, htraced⟩ := (ExprReader.Traced.nil.steps hr).finish hfinish
  have hlog : (ExprReader.read ts stop).log = moves ++ [Move.accept] := by
    rw [ExprReader.read, Logged.log_bind_of_ok hr]
    exact hmoves
  rw [ExprReader.records, hlog]
  exact isMadeBy_of_traced htraced

/-- A sum that is a factor: it is joined at the closing parenthesis and the product at the end. -/
theorem isMadeBy_records_parentheses :
    ∃ ts e, ts.map Item.text = ["2", "*", "(", "x", "+", "3", ")"] ∧
      ofItems ts .origin = .ok e ∧ e.IsMadeBy (ExprReader.records ts .origin) ∧
      ExprReader.records ts .origin =
        ["Shift 2", "Push *", "Shift x", "Push +", "Shift 3", "Reduce +", "Reduce *", "Accept"] :=
  ⟨[⟨.literal, "2", .origin, .origin⟩, ⟨.operator, "*", .origin, .origin⟩,
      ⟨.opening, "(", .origin, .origin⟩, ⟨.name, "x", .origin, .origin⟩,
      ⟨.operator, "+", .origin, .origin⟩, ⟨.literal, "3", .origin, .origin⟩,
      ⟨.closing, ")", .origin, .origin⟩], _, rfl, rfl, isMadeBy_records rfl, by decide⟩

end Expr

end Reckon
