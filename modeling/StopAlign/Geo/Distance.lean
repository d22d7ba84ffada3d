import StopAlign.Fault
import StopAlign.Geo.Position
import StopAlign.Number.Circle

/-!
# Distance — metres between two places

- `radians`          : degrees as an angle
- `greatCircle`      : the length of the great circle between two places
- `closestPointOn`   : the closest point of a segment, with longitudes scaled for the latitude

Sine and cosine have no value at an infinity, and a root none below zero; both are the fault
`mathDomain`. "No number" passes through.
-/

namespace StopAlign

open Number

def earthRadius : Float := 6371000.0

def radians (degrees : Float) : Float := degrees * 0.017453292519943295

def sineOf (angle : Float) : Except Fault Float :=
  if angle.isInf then .error .mathDomain else .ok (sine angle)

def cosineOf (angle : Float) : Except Fault Float :=
  if angle.isInf then .error .mathDomain else .ok (cosine angle)

def rootOf (x : Float) : Except Fault Float :=
  if x < 0 then .error .mathDomain else .ok x.sqrt

def squared (x : Float) : Float := x * x

/-- The central angle of a haversine root, which rounding may carry beyond one. -/
def centralAngle (root : Float) : Float :=
  2 * earthRadius * arcsine (if root < 1 then root else 1)

/-- Metres along the great circle between two places. -/
def greatCircle (a b : Point) : Except Fault Float := do
  let lat₁ := radians a.lat
  let lat₂ := radians b.lat
  let north ← sineOf ((lat₂ - lat₁) / 2)
  let narrow₁ ← cosineOf lat₁
  let narrow₂ ← cosineOf lat₂
  let east ← sineOf (radians (b.lon - a.lon) / 2)
  let root ← rootOf (squared north + narrow₁ * narrow₂ * squared east)
  return centralAngle root

/-- The point of the segment from `a` to `b` that is closest to `p`. -/
def closestPointOn (p a b : Point) : Except Fault Point := do
  let scale ← cosineOf (radians p.lat)
  return closestOnSegment scale p a b

end StopAlign
