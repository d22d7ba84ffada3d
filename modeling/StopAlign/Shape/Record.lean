import StopAlign.Fault
import StopAlign.Geo.Position
import StopAlign.Number.Decimal

/-!
# Record — one point of a shape, and how it is read from a row

- `ShapeRecord`      : identifier, place, sequence number, distance travelled
- `ShapeRow`         : the five cells of a row, where a column may be missing
- `Cell.finite?`     : the finite number in a cell
- `Cell.sequence?`   : the whole number in a cell
- `ShapeRow.read`    : the record in a row, or its first fault

Missing columns come first, then the distance, the latitude, the longitude and the sequence number.
A distance that is absent or blank is zero.
-/

namespace StopAlign

open Text Number

structure ShapeRecord where
  id : ShapeId
  place : Point
  sequence : Int
  travelled : Float
  deriving DecidableEq

structure ShapeRow where
  id : Option Cell
  lat : Option Cell
  lon : Option Cell
  sequence : Option Cell
  travelled : Option Cell
  deriving DecidableEq

/-! ## Column names -/

def shapeIdColumn : String := "shape_id"

def shapeLatColumn : String := "shape_pt_lat"

def shapeLonColumn : String := "shape_pt_lon"

def shapeSequenceColumn : String := "shape_pt_sequence"

def shapeTravelledColumn : String := "shape_dist_traveled"

/-! ## Numbers in cells -/

def asciiText? (octets : List UInt8) : Option String :=
  if octets.all (· < 0x80) then some (String.ofList (octets.map fun o => Char.ofNat o.toNat))
  else none

namespace Cell

/-- The number in a cell. A whole number beyond the doubles is a fault of its own. -/
def number? : Cell → Except Fault (Option Float)
  | .text s => return readReal? s
  | .octets os => return (asciiText? os).bind readReal?
  | .real x => return some x
  | .whole n =>
    let x := ofInteger n
    if x.isInf then throw .hugeInteger else return some x
  | .truth b => return some (if b then 1 else 0)
  | .absent => return none

def finite (cell : Cell) (column : String) (row : Int) : Except Fault Float := do
  match ← cell.number? with
  | some x =>
    if x.isFinite then return x
    else throw (.shapeTable (.invalidValue row column cell))
  | none => throw (.shapeTable (.invalidValue row column cell))

def sequenceNumber (cell : Cell) (row : Int) : Except Fault Int :=
  match readWhole? (trim cell.shown) with
  | none => throw (.shapeTable (.invalidValue row shapeSequenceColumn cell))
  | some n =>
    if n < 0 then throw (.shapeTable (.negativeSequence row n)) else return n

/-- Whether a distance cell holds no distance. -/
def holdsNothing : Cell → Bool
  | .absent => true
  | cell => isBlankText cell.shown

end Cell

/-! ## Rows -/

namespace ShapeRow

def required (cell : Option Cell) (column : String) (row : Int) : Except Fault Cell :=
  match cell with
  | some c => return c
  | none => throw (.shapeTable (.missingColumn row column))

/-- The distance in a row, zero if there is none. -/
def distance (cells : ShapeRow) (row : Int) : Except Fault Float :=
  match cells.travelled with
  | none => return 0
  | some c => if c.holdsNothing then return 0 else c.finite shapeTravelledColumn row

def read (cells : ShapeRow) (row : Int) : Except Fault ShapeRecord := do
  let id ← required cells.id shapeIdColumn row
  let lat ← required cells.lat shapeLatColumn row
  let lon ← required cells.lon shapeLonColumn row
  let sequence ← required cells.sequence shapeSequenceColumn row
  let travelled ← cells.distance row
  let lat ← lat.finite shapeLatColumn row
  let lon ← lon.finite shapeLonColumn row
  let sequence ← sequence.sequenceNumber row
  return { id := .ofCell id, place := ⟨lat, lon⟩, sequence, travelled }

end ShapeRow

end StopAlign
