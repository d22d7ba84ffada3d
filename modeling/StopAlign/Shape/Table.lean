import StopAlign.Shape.Record
import StopAlign.Table.Sheet

/-!
# Table — shape records from a file

- `ShapeColumns`  : where the columns of a shape table are
- `shapeTableName` : the name of the file
- `readShapes`    : the records of a file, row by row, up to the first fault

Rows count from one over all blocks. The columns are checked once the first block has been read. A
faulty cell in a block breaks the stream; in front of the blocks it is a fault of the table.
-/

namespace StopAlign

def shapeTableName : String := "shapes.txt"

def shapeColumns : List String :=
  [shapeIdColumn, shapeLatColumn, shapeLonColumn, shapeSequenceColumn]

/-- The number of rows in a block, unless another one is given. -/
def defaultBlockRows : Int := 100000

/-- The raw cell of a named column. A cell that a short row leaves out is no number. -/
def Sheet.shapeCell (s : Sheet) (row : Row) (name : String) : Option Cell :=
  (s.column? name).map fun i =>
    match row.cell? i with
    | some text => .text text
    | none => .left

def Sheet.shapeRow (s : Sheet) (row : Row) : ShapeRow :=
  { id := s.shapeCell row shapeIdColumn
    lat := s.shapeCell row shapeLatColumn
    lon := s.shapeCell row shapeLonColumn
    sequence := s.shapeCell row shapeSequenceColumn
    travelled := s.shapeCell row shapeTravelledColumn }

/-- Read rows whose first one has the given number. -/
def readRecords (rows : List ShapeRow) (number : Nat) (last : Option Fault) : Source ShapeRecord :=
  Source.collect (rows.zipIdx number |>.map fun (row, i) => row.read i) last

section Rows

variable {row : ShapeRow} {number : Nat}

theorem readRecords_ok {r : ShapeRecord} (read : row.read number = .ok r) (rows : List ShapeRow)
    (last : Option Fault) :
    readRecords (row :: rows) number last =
      ⟨r :: (readRecords rows (number + 1) last).items,
        (readRecords rows (number + 1) last).fault⟩ := by
  rw [readRecords, List.zipIdx_cons, List.map_cons]
  dsimp only
  rw [read, Source.collect_ok]
  rfl

theorem readRecords_error {fault : Fault} (read : row.read number = .error fault)
    (rows : List ShapeRow) (last : Option Fault) :
    readRecords (row :: rows) number last = ⟨[], some fault⟩ := by
  rw [readRecords, List.zipIdx_cons, List.map_cons]
  dsimp only
  rw [read, Source.collect_error]

end Rows

def Sheet.shapes (s : Sheet) (size : Nat) : Source ShapeRecord :=
  let blocks := s.blocks size
  let broken := blocks.fault.map Fault.inStream
  -- the columns are only looked at once a block has been read
  match blocks.items, broken with
  | [], some fault => ⟨[], some fault⟩
  | items, fault =>
    match s.missing shapeColumns with
    | [] => readRecords (items.flatten.map s.shapeRow) 1 fault
    | names => ⟨[], some (.shapeTable (.missingColumns shapeTableName names))⟩

/-- The records of a file that is read in blocks of rows. A file that does not exist comes as
`none`. -/
def readShapes (path : String) (file : Option (List UInt8)) (blockRows : Int) :
    Source ShapeRecord :=
  match file with
  | none => ⟨[], some (.missingTable path)⟩
  | some octets =>
    if blockRows < 1 then ⟨[], some .blockRows⟩
    else
      match Sheet.ofRows (.shapeTable (.emptyTable shapeTableName)) (Csv.readRows octets) with
      | .error fault => ⟨[], some fault⟩
      | .ok sheet => sheet.shapes blockRows.toNat

end StopAlign
