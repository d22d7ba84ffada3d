/-!
# Position — places and lines between two of them

- `Position`         : latitude and longitude
- `clamp`            : a parameter cut back to the range from 0 to 1
- `closestBy`, `closestOnSegment` : the point of a segment that is closest to a position
- `Point`, `Polyline` : positions in degrees, as doubles

The projection works in a plane around the position, where longitude differences are scaled. It is
written over any arithmetic with an order, so that it can be read over the rationals as well as
over doubles, and over any way to divide, also one that has no result for some divisors.
-/

namespace StopAlign

structure Position (α : Type) where
  lat : α
  lon : α
  deriving DecidableEq

abbrev Point := Position Float

abbrev Polyline := List Point

section Projection

variable {α : Type} [OfNat α 0] [OfNat α 1] [LT α] [DecidableLT α]

/-- A parameter cut back to the range from 0 to 1. A value without order counts as 1. -/
def clamp (t : α) : α :=
  let low := if t < 1 then t else 1
  if 0 < low then low else 0

variable [Add α] [Sub α] [Mul α] [Neg α] [BEq α]

/-- The point of the segment from `a` to `b` that is closest to `p`, where `scale` is the length of
a degree of longitude and `quotient` divides. The position is the origin of the plane. -/
def closestBy {m : Type → Type} [Monad m] (quotient : α → α → m α) (scale : α)
    (p a b : Position α) : m (Position α) :=
  let ax := (a.lon - p.lon) * scale
  let ay := a.lat - p.lat
  let bx := (b.lon - p.lon) * scale
  let yb := b.lat - p.lat
  let dx := bx - ax
  let dy := yb - ay
  let square := dx * dx + dy * dy
  if square == 0 then return a
  else do
    let t := clamp (← quotient (-(ax * dx + ay * dy)) square)
    return ⟨a.lat + t * (b.lat - a.lat), a.lon + t * (b.lon - a.lon)⟩

/-- The closest point where every division has a result. -/
def closestOnSegment [Div α] (scale : α) (p a b : Position α) : Position α :=
  Id.run (closestBy (fun x y => pure (x / y)) scale p a b)

end Projection

end StopAlign
