import StopAlign.Geo.Polyline
import StopAlign.Span

/-!
# Greedy — matching stops from left to right

- `greedyInner`   : the offsets of the stops between the first and the last one
- `greedyOffsets` : the offsets of all stops

Each stop searches the part of the shape behind the previous match that still leaves one point for
every later stop. The first stop keeps the first point and the last stop the last one.
-/

namespace StopAlign

open Polyline

/-- The window of a shape from an offset on; beyond its first point it has `slack` points. -/
def greedyWindow (shape : Polyline) (start slack : Int) : Polyline :=
  Span.slice shape start (start + slack + 1)

/-- The offsets of the stops in the middle. A match beyond the first point of its window uses up
as much of the slack. -/
def greedyInner (shape : Polyline) (start slack : Int) : List Point → Except Fault (List Int)
  | [] => return []
  | p :: rest => do
    let fit ← closestPoint p (greedyWindow shape start slack)
    -- the next window begins behind this match
    let later ← greedyInner shape (start + fit.offset + 1) (slack - fit.offset) rest
    return (start + fit.offset) :: later

def lastOffset (shape : Polyline) : Int := shape.length - 1

def greedyOffsets (shape : Polyline) : List Point → Except Fault (List Int)
  | [] => throw .noStops
  | [_] => return [lastOffset shape]
  | first :: second :: rest => do
    let stops := first :: second :: rest
    -- the slack is the number of points beyond one for each stop
    let inner ← greedyInner shape 1 (shape.length - stops.length) (second :: rest).dropLast
    return 0 :: (inner ++ [lastOffset shape])

end StopAlign
