import StopAlign.Trip.Ledger

/-!
# Segments — shapes cut into pieces from stop to stop

- `segments`        : the pieces of a shape between consecutive stops
- `pathSegments`    : the pieces of a trip's shape between given stops
- `TripLine`        : one piece of a trip, as a line of the exported layer
- `oneKind`         : identifiers as a column of the layer holds them
- `tripLines`       : the lines of trips with their pieces
- `matchedSegments` : the pieces of all trips that have offsets

A piece starts and ends at the stops themselves. In between it has the points of the shape from
behind the previous cut up to the next cut; the first and the last point of the shape belong to no
piece.
-/

namespace StopAlign

open Polyline

/-- The points of a shape between two positions, the first one excluded. -/
def between (shape : Polyline) (after upTo : Nat) : Polyline :=
  (shape.take (upTo + 1)).drop (after + 1)

/-- The pieces of a shape behind a position: one for each cut, and the last one. -/
def pieces (shape : Polyline) (after : Nat) : List Cut → List Point → List Polyline
  | cut :: cuts, a :: b :: stops =>
    (a :: (between shape after cut.segment ++ [b])) :: pieces shape cut.segment cuts (b :: stops)
  -- the last piece runs to the end of the shape, without its last point
  | [], [a, b] => [a :: (between shape.dropLast after shape.length ++ [b])]
  | _, _ => []

def segments (shape : Polyline) (stops : List Point) : Except Fault (List Polyline) :=
  if stops.length < 2 then return []
  else do
    let cuts ← cuts shape stops.tail.dropLast
    return pieces shape 0 cuts stops

def pathSegments (net : Network) (l : Ledger) (trip : Ident) (stops : List Ident) :
    Except Fault (List Polyline) := do
  let shape ← l.polyline net.store trip
  match net.places stops with
  | .error stop => throw (.unknownStop stop)
  | .ok places => segments shape places

/-! ## Lines of the exported layer -/

structure TripLine where
  trip : Ident
  index : Nat
  points : Polyline
  deriving DecidableEq

/-- The lines of one trip. A line has no points or at least two. -/
def linesOf (trip : Ident) (pieces : List Polyline) : Except Fault (List TripLine) :=
  pieces.zipIdx.mapM fun (points, index) =>
    if points.length = 1 then throw .onePointLine else return ⟨trip, index, points⟩

def Ident.isGap : Ident → Bool
  | .stray _ | .missing | .absent => true
  | _ => false

def Ident.isText : Ident → Bool
  | .text _ => true
  | _ => false

def Ident.isNumber : Ident → Bool
  | .number n => Span.isWord n
  | .real _ => true
  | _ => false

def Ident.isWhole : Ident → Bool
  | .number _ => true
  | _ => false

/-- An identifier in a column of texts or doubles. -/
def Ident.inColumn : Ident → Ident
  | .number n => .real (Number.ofInteger n)
  | id => if id.isGap then .missing else id

/-- Identifiers as a column holds them. In a column of texts or of numbers all gaps are the same
one, and numbers are doubles unless all of the column are integers. Other columns hold what they are
given. -/
def oneKind (ids : List Ident) : List Ident :=
  -- a column of one kind is left alone
  if ids.all Ident.isWhole || ids.all (· = .absent) then ids
  else if ids.all (fun id => id.isText || id.isGap) || ids.all (fun id => id.isNumber || id.isGap)
  then ids.map Ident.inColumn
  else ids

def tripLines (trips : List (Ident × List Polyline)) : Except Fault (List TripLine) := do
  let lines ← trips.mapM fun (trip, pieces) => linesOf trip pieces
  let all := lines.flatten
  return List.zipWith (fun line trip => { line with trip }) all (oneKind (all.map (·.trip)))

def matchedLines (net : Network) (l : Ledger) (trip : Trip) : Except Fault (List TripLine) := do
  let shape ← l.polyline net.store trip.id
  match shape, net.places trip.stops with
  -- a trip without offsets, or with a stop somewhere unknown, has no lines
  | [], _ => return []
  | _, .error _ => return []
  | shape, .ok stops => linesOf trip.id (← segments shape stops)

def matchedSegments (net : Network) (l : Ledger) (trips : List Trip) :
    Except Fault (List TripLine) := do
  let lines ← trips.mapM (matchedLines net l)
  return lines.flatten

end StopAlign
