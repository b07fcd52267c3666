import Reckon.Proofs.Text.Behind
import Reckon.Proofs.Token.Tiles

/-! Tokens of a text that stands behind another one. Moving a token there moves every position in
it, down to its leaves and to the comments nested in it, and leaves everything else as it is.
Leaves that tile a text tile, moved, the end of any other text that ends with it. -/

namespace Reckon

def Leaf.behind (l : Leaf) (base : Position) : Leaf :=
  { l with first := l.first.behind base, last := l.last.behind base }

def WholeNumber.behind (n : WholeNumber) (base : Position) : WholeNumber :=
  ⟨n.radix, n.marker.map (·.behind base), n.digits.behind base⟩

def Fraction.behind (f : Fraction) (base : Position) : Fraction :=
  ⟨f.dot.behind base, f.digits.behind base⟩

def Scale.behind (s : Scale) (base : Position) : Scale :=
  ⟨s.marker.behind base, s.sign.map (·.behind base), s.digits.behind base⟩

def RealNumber.behind (n : RealNumber) (base : Position) : RealNumber :=
  ⟨n.whole.behind base, n.fraction.map (·.behind base), n.scale.map (·.behind base)⟩

def Magnitude.behind (m : Magnitude) (base : Position) : Magnitude :=
  match m with
  | .whole n => .whole (n.behind base)
  | .real n => .real (n.behind base)

def Number.behind (n : Number) (base : Position) : Number :=
  ⟨n.sign.map (·.behind base), n.magnitude.behind base⟩

def StringSegment.behind (s : StringSegment) (base : Position) : StringSegment :=
  match s with
  | .quoted s =>
    .quoted ⟨s.opening.behind base, s.body.map (·.behind base), s.closing.behind base⟩
  | .coded s => .coded ⟨s.hash.behind base, s.code.behind base⟩

def StringLiteral.behind (s : StringLiteral) (base : Position) : StringLiteral :=
  ⟨s.head.behind base, s.tail.map (·.behind base)⟩

namespace Comment

mutual

def behind : Comment → Position → Comment
  | node kind nested first last, base =>
    node kind (behindAll nested base) (first.behind base) (last.behind base)

def behindAll : List Comment → Position → List Comment
  | [], _ => []
  | c :: cs, base => behind c base :: behindAll cs base

end

end Comment

def Token.behind (t : Token) (base : Position) : Token :=
  match t with
  | .leaf l => .leaf (l.behind base)
  | .number n => .number (n.behind base)
  | .string s => .string (s.behind base)
  | .comment c => .comment (c.behind base)

/-- Tokens whose leaves are moved with them. -/
class Movable (α : Type) [Spanned α] [Leafed α] where
  behind : α → Position → α
  leaves_behind (t : α) (base : Position) :
    Leafed.leaves (behind t base) = (Leafed.leaves t).map (·.behind base)

namespace Movable

instance : Movable Leaf where
  behind := Leaf.behind
  leaves_behind _ _ := rfl

instance : Movable WholeNumber where
  behind := WholeNumber.behind
  leaves_behind n _ := by obtain ⟨_, _ | _, _⟩ := n <;> rfl

instance : Movable Fraction where
  behind := Fraction.behind
  leaves_behind _ _ := rfl

instance : Movable Scale where
  behind := Scale.behind
  leaves_behind s _ := by obtain ⟨_, _ | _, _⟩ := s <;> rfl

instance : Movable RealNumber where
  behind := RealNumber.behind
  leaves_behind n _ := by obtain ⟨_, _ | _, _ | ⟨_, _ | _, _⟩⟩ := n <;> rfl

instance : Movable Magnitude where
  behind := Magnitude.behind
  leaves_behind
    | .whole n => leaves_behind n
    | .real n => leaves_behind n

instance : Movable Number where
  behind := Number.behind
  leaves_behind n base := by
    obtain ⟨sign, m⟩ := n
    have hm := leaves_behind m base
    cases sign with
    | none => exact hm
    | some s => exact congrArg (s.behind base :: ·) hm

instance : Movable StringSegment where
  behind := StringSegment.behind
  leaves_behind s base := by
    cases s with
    | quoted s => obtain ⟨_, _ | _, _⟩ := s <;> rfl
    | coded s => exact congrArg (s.hash.behind base :: ·) (leaves_behind s.code base)

instance : Movable StringLiteral where
  behind := StringLiteral.behind
  leaves_behind s base := by
    change ((s.head :: s.tail).map (·.behind base)).flatMap Leafed.leaves =
      ((s.head :: s.tail).flatMap Leafed.leaves).map (·.behind base)
    rw [List.flatMap_map, List.map_flatMap]
    exact List.flatMap_congr fun segment _ => leaves_behind segment base

instance {α : Type} [Spanned α] [Leafed α] [Solid α] [Movable α] : Movable (Perhaps α) where
  behind
    | .present t, base => .present (behind t base)
    | .missing here, base => .missing (here.behind base)
  leaves_behind
    | .present t, base => leaves_behind t base
    | .missing _, _ => rfl

end Movable

namespace Source.Ends

variable {src whole : Source} {o i j : Nat}

theorem leaf_eq (h : src.Ends whole o) (kind : LeafKind) (hij : i < j) :
    whole.leaf kind (o + i) (o + j) = (src.leaf kind i j).behind (whole.place o) := by
  rw [leaf, h.between_eq, h.place_eq, show o + j - 1 = o + (j - 1) by omega, h.place_eq]
  rfl

theorem stands {α β : Type} [Spanned α] [Spanned β] {t : α} {u : β} (h : src.Ends whole o)
    (hs : Stands src i j t) (hfirst : Spanned.first u = (Spanned.first t).behind (whole.place o))
    (hlast : Spanned.last u = (Spanned.last t).behind (whole.place o)) :
    Stands whole (o + i) (o + j) u := by
  have hlt := hs.lt
  have hle := hs.le
  have hlen := h.length_eq
  refine ⟨by omega, by omega, ?_, ?_⟩
  · rw [hfirst, hs.first, h.place_eq]
  · rw [hlast, hs.last, show o + j - 1 = o + (j - 1) by omega, h.place_eq]

theorem tiles (h : src.Ends whole o) {ls : List Leaf}
    (ht : Tiles src (Leaf.IsCopy src) i j ls) :
    Tiles whole (Leaf.IsCopy whole) (o + i) (o + j) (ls.map (·.behind (whole.place o))) := by
  have hlen := h.length_eq
  induction ht with
  | nil hi => exact .nil (by omega)
  | @cons i m j l ls hs hcopy _ ih =>
    have hs' : Stands whole (o + i) (o + m) (l.behind (whole.place o)) := h.stands hs rfl rfl
    refine .cons hs' ?_ ih
    rw [Leaf.IsCopy, hs.textOf] at hcopy
    rw [Leaf.IsCopy, hs'.textOf, h.between_eq]
    exact hcopy

end Source.Ends

end Reckon
