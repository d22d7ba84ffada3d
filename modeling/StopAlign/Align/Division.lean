import StopAlign.Align.Greedy

/-!
# Division — matching the best stop first, then both sides

- `Anchor`, `Range` : a stop with its final offset; the stops between two anchors
- `Slot`            : a stop between two anchors, with the last fit that was found for it
- `Division`        : the tree of ranges that the search goes through
- `divide`          : fix the stop of least distance, then divide what is on both sides
- `Division.offsets`, `Division.ranges` : the offsets in stop order; all ranges in search order
- `divisionOffsets` : the offsets of all stops

Within a range every stop has a window of points that leaves one point for each other stop. A fit is
kept from range to range as long as it lies in the window, and searched anew otherwise.
-/

namespace StopAlign

open Polyline

structure Anchor where
  stop : Nat
  offset : Int
  deriving DecidableEq

structure Range where
  low : Anchor
  high : Anchor
  deriving DecidableEq

namespace Range

/-- The number of points in the window of each stop. -/
def width (r : Range) : Int :=
  (r.high.offset - r.low.offset) - ((r.high.stop : Int) - r.low.stop) + 1

/-- The first offset in the window of a stop. -/
def windowStart (r : Range) (stop : Nat) : Int :=
  stop + (r.low.offset - r.low.stop)

def window (r : Range) (shape : Polyline) (stop : Nat) : Polyline :=
  Span.slice shape (r.windowStart stop) (r.windowStart stop + r.width)

def admits (r : Range) (stop : Nat) (offset : Int) : Bool :=
  r.windowStart stop ≤ offset && offset < r.windowStart stop + r.width

end Range

structure Slot where
  stop : Nat
  place : Point
  fit : Fit

namespace Slot

def search (shape : Polyline) (r : Range) (s : Slot) : Except Fault Fit := do
  -- the answer counts from the beginning of the window
  let fit ← closestPoint s.place (r.window shape s.stop)
  return ⟨r.windowStart s.stop + fit.offset, fit.distance⟩

/-- Keep the fit if it lies in the window, and search anew otherwise. -/
def refit (shape : Polyline) (r : Range) (s : Slot) : Except Fault Slot :=
  if r.admits s.stop s.fit.offset then return s
  else do
    let fit ← s.search shape r
    return { s with fit }

def anchor (s : Slot) : Anchor := ⟨s.stop, s.fit.offset⟩

end Slot

structure Pick where
  before : List Slot
  best : Slot
  after : List Slot

/-- Cut around the slot of least distance, the first one of several. -/
def pick? : List Slot → Option Pick
  | [] => none
  | s :: rest =>
    match pick? rest with
    | none => some ⟨[], s, []⟩
    | some p =>
      -- of equal distances the earlier slot wins
      if p.best.fit.distance < s.fit.distance then some { p with before := s :: p.before }
      else some ⟨[], s, rest⟩

/-- The tree of ranges. An inner node has the slots of its range after refitting, the chosen one,
and the ranges on both sides of it. -/
inductive Division
  | leaf (range : Range)
  | node (range : Range) (slots : List Slot) (chosen : Slot) (left right : Division)

namespace Division

def chosen : Division → List Slot
  | .leaf _ => []
  | .node _ _ s left right => left.chosen ++ s :: right.chosen

def offsets (d : Division) : List Int := d.chosen.map fun s => s.fit.offset

/-- All ranges, each one before the ranges that it is divided into. -/
def ranges : Division → List Range
  | .leaf r => [r]
  | .node r _ _ left right => r :: (left.ranges ++ right.ranges)

end Division

/-- Divide a range with the given slots; the fuel bounds their number. -/
def divide (shape : Polyline) : Nat → Range → List Slot → Except Fault Division
  | 0, r, _ => return .leaf r
  | fuel + 1, r, slots => do
    let fitted ← slots.mapM (Slot.refit shape r)
    match pick? fitted with
    | none => return .leaf r
    | some p =>
      -- the chosen fit is final and bounds the ranges on both sides
      let left ← divide shape fuel ⟨r.low, p.best.anchor⟩ p.before
      let right ← divide shape fuel ⟨p.best.anchor, r.high⟩ p.after
      return .node r fitted p.best left right

/-- Slots for places, where the first one has the given stop index. Each starts with the first point
of the shape as its fit, at no distance. -/
def slotsFrom (stop : Nat) : List Point → List Slot
  | [] => []
  | p :: rest => ⟨stop, p, ⟨0, 0⟩⟩ :: slotsFrom (stop + 1) rest

def division (shape : Polyline) (stops : List Point) : Except Fault Division :=
  -- the first and the last stop are anchors from the beginning
  let inner := slotsFrom 1 stops.tail.dropLast
  divide shape inner.length ⟨⟨0, 0⟩, ⟨stops.length - 1, lastOffset shape⟩⟩ inner

def divisionOffsets (shape : Polyline) : List Point → Except Fault (List Int)
  | [] => throw .noStops
  | [_] => return [lastOffset shape]
  | first :: second :: rest => do
    let d ← division shape (first :: second :: rest)
    return 0 :: (d.offsets ++ [lastOffset shape])

end StopAlign
