import StopAlign.Table.Csv
import StopAlign.Trip.Ledger

/-!
# Offsets — the table of offsets by trip

- `OffsetRow`, `offsetRow` : trip, shape, row of the offset table and offsets; the row of a trip
- `OffsetRow.cells`        : the row as cells
- `offsetFile`             : the table as a file

A trip without offsets has empty cells in their place. Offsets are separated by semicolons.
-/

namespace StopAlign

/-- The offsets of a trip. The shape is empty if the trip has none. -/
structure OffsetRow where
  trip : Ident
  shape : String
  row : Option Nat
  offsets : Option (List Int)
  deriving DecidableEq

def Pass.id? (p : Pass) (index : Int) : Option ShapeId :=
  if index < p.offset then none else p.ids[(index - p.offset).toNat]?

/-- The row of a trip: its own shape, and what is registered under its identifier. -/
def offsetRow (pass : Pass) (l : Ledger) (trip : Trip) : OffsetRow :=
  { trip := trip.id
    shape := ((trip.shape.bind pass.id?).map ShapeId.shown).getD ""
    row := (l.registered? trip.id).bind (·.row)
    offsets := l.offsets? trip.id }

def offsetRows (pass : Pass) (l : Ledger) (trips : List Trip) : List OffsetRow :=
  trips.map (offsetRow pass l)

def writeOffsets (offsets : List Int) : String :=
  ";".intercalate (offsets.map toString)

namespace OffsetRow

def header : List String := ["trip_id", "shape_id", "offset_index", "offsets"]

/-- The text of a trip's identifier, empty if the row of the trip leaves it out. -/
def tripText (r : OffsetRow) : String :=
  match r.trip with
  | .stray _ | .missing | .absent => ""
  | id => id.shown

def cells (r : OffsetRow) : List String :=
  [r.tripText, r.shape, (r.row.map toString).getD "", (r.offsets.map writeOffsets).getD ""]

end OffsetRow

def offsetFile (rows : List OffsetRow) : List UInt8 :=
  Text.encode ((OffsetRow.header :: rows.map OffsetRow.cells).flatMap fun cells =>
    (Csv.writeRow cells).toList)

end StopAlign
