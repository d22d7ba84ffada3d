import StopAlign.Geo.Distance

/-!
# Polyline — projecting places onto a line

- `Leg`, `legs`             : the segments of a line with their indices
- `Projection`, `nearest`   : the nearest segment, the first one of several
- `Fit`, `closestPoint`     : the line's point that is next to a place
- `Cut`, `cuts`             : where consecutive waypoints cut a line

A segment has the index of the point where it starts.
-/

namespace StopAlign
namespace Polyline

/-! ## Segments -/

structure Leg where
  index : Nat
  start : Point
  finish : Point

/-- The segments of a line whose first one has the given index. -/
def legsFrom (index : Nat) : Polyline → List Leg
  | a :: b :: rest => ⟨index, a, b⟩ :: legsFrom (index + 1) (b :: rest)
  | _ => []

def legs (line : Polyline) : List Leg := legsFrom 0 line

theorem length_legsFrom (index : Nat) (line : Polyline) :
    (legsFrom index line).length = line.length - 1 := by
  induction line generalizing index with
  | nil => rfl
  | cons a tail ih =>
    cases tail with
    | nil => rfl
    | cons b rest => simpa [legsFrom] using ih (index + 1)

/-! ## The nearest segment -/

structure Projection where
  leg : Leg
  point : Point
  distance : Float

def Leg.project (p : Point) (leg : Leg) : Except Fault Projection := do
  let point ← closestPointOn p leg.start leg.finish
  let distance ← greatCircle p point
  return ⟨leg, point, distance⟩

/-- The nearer of two projections, the first one if they are equally near. -/
def Projection.nearer (best other : Projection) : Projection :=
  if other.distance < best.distance then other else best

/-- The projection onto the nearest segment, the first one of several. -/
def nearest (p : Point) (line : Polyline) : Except Fault Projection := do
  match ← (legs line).mapM (Leg.project p) with
  | [] => throw (.shortPolyline line.length)
  | first :: others => return others.foldl Projection.nearer first

/-! ## The closest point of a line -/

structure Fit where
  offset : Int
  distance : Float

/-- The end of the nearest segment that is closer to the place, its start if both are equally
close. A line of fewer than two points answers its beginning. -/
def closestPoint (p : Point) (line : Polyline) : Except Fault Fit := do
  if line.length < 2 then return ⟨0, 0⟩
  let best ← nearest p line
  -- the end is chosen by its own distance, but the answer has that of the segment
  let toStart ← greatCircle p best.leg.start
  let toFinish ← greatCircle p best.leg.finish
  if toStart ≤ toFinish then return ⟨best.leg.index, best.distance⟩
  return ⟨best.leg.index + 1, best.distance⟩

/-! ## Cuts -/

structure Cut where
  point : Point
  segment : Nat

/-- Cut what is left of a line, whose first segment has the given index. The search for a cut
begins with the segment of the previous one. -/
def cutsFrom (index : Nat) (line : Polyline) : List Point → Except Fault (List Cut)
  | [] => return []
  | p :: rest => do
    let best ← nearest p line
    let later ← cutsFrom (index + best.leg.index) (line.drop best.leg.index) rest
    return ⟨best.point, index + best.leg.index⟩ :: later

/-- The cuts of a line at consecutive waypoints. A line without a segment is cut at the waypoints
themselves. -/
def cuts (line : Polyline) (waypoints : List Point) : Except Fault (List Cut) :=
  if line.length < 2 then return waypoints.map fun p => ⟨p, 0⟩
  else cutsFrom 0 line waypoints

end Polyline
end StopAlign
