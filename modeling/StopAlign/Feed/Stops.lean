import StopAlign.Cell
import StopAlign.Dictionary
import StopAlign.Feed.Table
import StopAlign.Geo.Position
import StopAlign.Journal
import StopAlign.Table.Numeric

/-!
# Stops — the coordinates of stops

- `StopRow`, `stopRows` : identifier, latitude and longitude of each row
- `StopList`            : the identifiers and the places that a table lists
- `readStops`           : the lines of the journal, and the coordinates by identifier

Rows without both coordinates are left out. The last row of an identifier counts, at the place of
the first one.
-/

namespace StopAlign

def stopTableName : String := "stops.txt"

def stopColumns : List String := ["stop_id", "stop_lat", "stop_lon"]

structure StopRow where
  id : Option String
  place : Point

def StopRow.isPlaced (r : StopRow) : Bool :=
  !r.place.lat.isNaN && !r.place.lon.isNaN

def stopRows (t : Table) : Except Fault (List StopRow) := do
  let lats ← t.numbers "stop_lat"
  let lons ← t.numbers "stop_lon"
  let places := List.zipWith Position.mk (reals lats) (reals lons)
  return List.zipWith StopRow.mk (t.cells "stop_id") places

/-- The identifiers and the places that a table of stops lists, and the number of rows that are left
out. -/
structure StopList where
  ids : List Ident
  places : List Point
  left : Nat

namespace StopList

def read (directory : String) (file : Option (List UInt8)) : Except Fault StopList := do
  let t ← Table.read directory stopTableName file stopColumns
  let rows ← stopRows t
  let placed := rows.filter (·.isPlaced)
  return {
    ids := (t.listed "stop_id" (placed.map (·.id))).map Ident.ofCell?
    places := placed.map (·.place)
    left := rows.countP (!·.isPlaced) }

def lines (l : StopList) : List Line :=
  if l.left = 0 then []
  else [.info ("Ignoring " ++ toString l.left ++ " stops without coordinates")]

def coordinates (l : StopList) : Except Fault (Dictionary Ident Point) := do
  return Dictionary.ofList (← inStep l.ids l.places)

end StopList

/-- What reading the stops has brought: lines of the journal, and the coordinates by identifier or a
fault. -/
structure StopReading where
  lines : List Line
  outcome : Except Fault (Dictionary Ident Point)

def readStops (directory : String) (file : Option (List UInt8)) : StopReading :=
  match StopList.read directory file with
  | .error fault => ⟨[], .error fault⟩
  | .ok stops => ⟨stops.lines, stops.coordinates⟩

end StopAlign
