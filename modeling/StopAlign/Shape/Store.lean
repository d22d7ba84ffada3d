import StopAlign.Fault
import StopAlign.Geo.Position
import StopAlign.Span

/-!
# Store — the points of all shapes in one array

- `Arrays`              : points back to back, and the boundaries between shapes
- `Arrays.add`          : append shapes
- `Arrays.shape`, `Arrays.shapeSize` : the points of a shape, their number
- `apart`               : how far two boundaries are apart
- `ShapeStore`          : arrays of which the last boundary is the number of points
- `ShapeStore.empty`, `ShapeStore.new` : a store without shapes, a store of given arrays

There is one boundary more than there are shapes. Boundaries that a store is given are signed words,
and so are their differences, which wrap around. Boundaries of a store that grew from the empty one
ascend from zero. What a point is does not matter here: it is a pair of doubles, or the words that
stand for them.
-/

namespace StopAlign

open Number

/-! ## Arrays -/

/-- The points of all shapes and the boundaries between shapes, whether they fit or not. -/
structure Arrays (α : Type) where
  points : Array α
  starts : Array Int
  deriving DecidableEq

/-- How far a boundary is behind another one. Between boundaries from zero on that is exact, and
between other signed words it wraps around. -/
def apart (low high : Int) : Int :=
  if 0 ≤ low ∧ 0 ≤ high then high - low else (high - low).bmod unit64

namespace Arrays

variable {α : Type}

def size (a : Arrays α) : Nat := a.starts.size - 1

/-- Append a shape. Its end is counted from the last boundary. -/
def push (a : Arrays α) (shape : List α) : Arrays α :=
  { points := a.points ++ shape.toArray
    starts := a.starts.push (a.starts.back?.getD 0 + shape.length) }

def add (a : Arrays α) (shapes : List (List α)) : Arrays α :=
  shapes.foldl push a

/-- The points of the shape with an index. No index means no points. -/
def shape (a : Arrays α) : Option Int → Except Fault (List α)
  | none => return []
  | some i =>
    match a.starts[i.toNat]?, a.starts[i.toNat + 1]? with
    -- a negative index has boundaries here, but no shape
    | some low, some high =>
      if i < 0 then throw (.shapeIndex i a.size)
      else
        return (a.points.extract (Span.bound a.points.size low)
          (Span.bound a.points.size high)).toList
    | _, _ => throw (.shapeIndex i a.size)

def boundary (a : Arrays α) (i : Int) : Except Fault Int :=
  match Span.at? a.starts i with
  | some b => return b
  | none =>
    if Span.isWord i then throw (.boundaryIndex i a.starts.size)
    -- an index that is no signed word can still be an unsigned one
    else if 0 ≤ i ∧ i < unit64 then throw .boundaryRange
    else throw .boundaryKind

/-- The number of points between the boundaries at a signed index and behind it, as a signed
word. -/
def shapeSize (a : Arrays α) (i : Int) : Except Fault Int := do
  let high ← a.boundary (i + 1)
  let low ← a.boundary i
  return apart low high

end Arrays

/-! ## Stores -/

/-- Arrays that fit: the last boundary is the number of points. -/
structure ShapeStore (α : Type := Point) extends Arrays α where
  back_starts : starts.back? = some (points.size : Int)

namespace ShapeStore

variable {α : Type}

def empty : ShapeStore α := ⟨⟨#[], #[0]⟩, rfl⟩

/-- A store of given arrays, which have to fit. -/
def new (a : Arrays α) : Except Fault (ShapeStore α) :=
  if !a.starts.all Span.isWord then .error .boundaryRange
  else
    match h : a.starts.back? with
    | none => .error (.boundaryIndex (-1) 0)
    | some last =>
      if fits : last = a.points.size then .ok ⟨a, fits ▸ h⟩
      else .error (.boundaryEnd last a.points.size)

def push (s : ShapeStore α) (shape : List α) : ShapeStore α :=
  { toArrays := s.toArrays.push shape
    back_starts := by simp [Arrays.push, s.back_starts] }

def add (s : ShapeStore α) (shapes : List (List α)) : ShapeStore α :=
  shapes.foldl push s

@[simp]
theorem points_push (s : ShapeStore α) (shape : List α) :
    (s.push shape).points.toList = s.points.toList ++ shape := by
  simp [push, Arrays.push]

@[simp]
theorem starts_push (s : ShapeStore α) (shape : List α) :
    (s.push shape).starts.toList = s.starts.toList ++ [(s.points.size : Int) + shape.length] := by
  simp [push, Arrays.push, s.back_starts]

end ShapeStore

end StopAlign
