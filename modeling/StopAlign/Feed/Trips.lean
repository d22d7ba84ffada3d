import StopAlign.Feed.Table
import StopAlign.Sort
import StopAlign.Table.Numeric
import StopAlign.Trip.Ledger

/-!
# Trips — trips with their stops in visiting order

- `Visit`, `visits`  : a row of the stop times; all rows of a table
- `Schedule`         : the visits of one trip in order
- `schedules`        : the visits of all trips
- `readTrips`        : the trips of a feed, and the lines of the journal

The visits of a trip are in the order of their sequence numbers; equal numbers keep the order of the
file, and visits without a number come last. A trip has distances if every one of its visits has
one. Identifiers are compared as they are.
-/

namespace StopAlign

def tripTableName : String := "trips.txt"

def tripColumns : List String := ["trip_id"]

def stopTimeTableName : String := "stop_times.txt"

def stopTimeColumns : List String := ["stop_id", "stop_sequence", "trip_id"]

/-! ## Visits -/

/-- A row of the stop times. Without a column of distances there is no distance. -/
structure Visit where
  trip : Option String
  stop : Ident
  order : SortKey
  distance : Option Float

def visitsOf : List (Option String) → List (Option String) → List SortKey → List (Option Float) →
    List Visit
  | trip :: trips, stop :: stops, order :: orders, distance :: distances =>
    ⟨trip, Ident.ofCell? stop, order, distance⟩ :: visitsOf trips stops orders distances
  | _, _, _, _ => []

/-- A column to sort by is the only one of its name, which no cell in front of the rows has. -/
def checkSortColumn (t : Table) (name : String) : Except Fault Unit :=
  if t.sheet.rowNames.contains name then throw (.ambiguousColumn name)
  else if t.repeats name then throw (.severalColumns name)
  else return ()

def visits (t : Table) : Except Fault (List Visit) := do
  -- the columns of numbers are read before the sort is checked
  let orders ← sortKeys (← t.numbers "stop_sequence")
  let distances : List (Option Float) :=
    match ← t.numbers? "shape_dist_traveled" with
    | some cells => (reals cells).map some
    | none => t.rows.map fun _ => none
  checkSortColumn t "trip_id"
  checkSortColumn t "stop_sequence"
  return visitsOf (t.cells "trip_id") (t.cells "stop_id") orders distances

/-! ## Schedules -/

structure Schedule where
  trip : String
  visits : List Visit

namespace Schedule

def stops (s : Schedule) : List Ident := s.visits.map (·.stop)

/-- The distances in visiting order, if all visits have one. -/
def travelled? (s : Schedule) : Option (List Float) :=
  s.visits.mapM fun v => v.distance.filter fun x => !x.isNaN

end Schedule

def Visit.le (a b : String × Visit) : Bool :=
  a.1 < b.1 || (a.1 == b.1 && a.2.order.le b.2.order)

def prepend (v : String × Visit) : List Schedule → List Schedule
  | s :: rest =>
    if s.trip = v.1 then { s with visits := v.2 :: s.visits } :: rest else ⟨v.1, [v.2]⟩ :: s :: rest
  | [] => [⟨v.1, [v.2]⟩]

/-- The visits of all trips. Visits without a trip are left out. -/
def schedules (vs : List Visit) : List Schedule :=
  let named := vs.filterMap fun v => v.trip.map fun trip => (trip, v)
  -- visits of equal order keep their order in the file
  (stableSort Visit.le named).foldr prepend []

/-! ## Trips -/

def scheduleOf (all : List Schedule) (trip : Option String) : Option Schedule :=
  trip.bind fun id => all.find? (·.trip = id)

/-- Whether a cell names a shape; a cell that is left out names one that nobody knows. -/
def namesShape (cell : Option String) : Bool := cell ≠ some ""

def shapeIndex? (pass : Pass) (cell : Option String) : Option Int :=
  if namesShape cell then ((ShapeId.ofTableCell? cell).bind pass.find?).map Int.ofNat else none

/-- The stops of a schedule, or of any schedule if several columns hold stops. -/
def stopsOf (times : Table) (s : Schedule) : List Ident :=
  if times.repeats "stop_id" then (times.repeated "stop_id").map Ident.ofCell? else s.stops

def tripOf (pass : Pass) (times : Table) (all : List Schedule) (trip shape : Option String) :
    Trip :=
  let schedule := scheduleOf all trip
  { id := Ident.ofCell? trip
    shape := shapeIndex? pass shape
    stops := (schedule.map (stopsOf times)).getD []
    travelled := (schedule.bind (·.travelled?)).getD [] }

def readTrips (directory : String) (feed : Feed) (pass : Pass) :
    Except Fault (List Trip × List Line) := do
  let trips ← Table.read directory tripTableName feed.trips tripColumns
  let times ← Table.read directory stopTimeTableName feed.stopTimes stopTimeColumns
  let all := schedules (← visits times)
  let ids := trips.listed "trip_id" (trips.cells "trip_id")
  let shapes := trips.listed "shape_id"
    ((trips.cells? "shape_id").getD (trips.rows.map fun _ => some ""))
  let result := (← inStep ids shapes).map fun (trip, shape) => tripOf pass times all trip shape
  -- a shape that is named but not loaded is only counted
  let unknown := shapes.countP fun cell => namesShape cell && (shapeIndex? pass cell).isNone
  let complete := all.countP (·.travelled?.isSome)
  let loaded : Line := .info ("Loaded " ++ toString result.length ++ " trips ("
    ++ toString complete ++ " with stop distances)")
  if unknown = 0 then return (result, [loaded])
  else
    return (result, [.warning (toString unknown
      ++ " trips reference a shape_id missing from shapes.txt"), loaded])

end StopAlign
