import StopAlign.Path
import StopAlign.Table.Sheet

/-!
# Table — the files of a feed

- `Feed`        : the four files, each of which may be missing
- `Table`       : the columns and rows of a file
- `Table.read`  : the table of a file that has the required columns
- `Table.cells` : a column by name
- `Table.numbers?`, `Table.listed` : a column of numbers; the values that a name lists
- `inStep`      : two lists taken in step

Where several columns have one name, it names no column of numbers, and what it lists is the name
itself, once for each of them.
-/

namespace StopAlign

structure Feed where
  shapes : Option (List UInt8)
  trips : Option (List UInt8)
  stopTimes : Option (List UInt8)
  stops : Option (List UInt8)

structure Table where
  sheet : Sheet
  rows : List Row

namespace Table

/-- The table of a file in a directory. The names of the required columns are in alphabetical
order. -/
def read (directory name : String) (file : Option (List UInt8)) (required : List String) :
    Except Fault Table := do
  match file with
  | none => throw (.missingTable (joinPath directory name))
  | some octets =>
    let sheet ← Sheet.ofRows (.emptyTable name) (Csv.readRows octets)
    let rows ← sheet.rows
    match sheet.missing required with
    | [] => return ⟨sheet, rows⟩
    | names => throw (.missingColumns name names)

def cells? (t : Table) (name : String) : Option (List (Option String)) :=
  (t.sheet.column? name).map fun i => t.rows.map (·.cell? i)

def cells (t : Table) (name : String) : List (Option String) :=
  (t.cells? name).getD (t.rows.map fun _ => none)

def repeats (t : Table) (name : String) : Bool :=
  1 < (t.sheet.columnsOf name).length

/-- The cells of a column of numbers, if there is a column of the name. -/
def numbers? (t : Table) (name : String) : Except Fault (Option (List (Option String))) :=
  if t.repeats name then throw .severalNumbers else return t.cells? name

def numbers (t : Table) (name : String) : Except Fault (List (Option String)) := do
  let cells ← t.numbers? name
  return cells.getD (t.rows.map fun _ => none)

/-- The name of columns, once for each of them. -/
def repeated (t : Table) (name : String) : List (Option String) :=
  (t.sheet.columnsOf name).map fun _ => some name

/-- What a name lists, where `cells` belong to the only column of it. -/
def listed (t : Table) (name : String) (cells : List (Option String)) : List (Option String) :=
  if t.repeats name then t.repeated name else cells

end Table

/-- Two lists taken in step; they have to be of one length. -/
def inStep {α β : Type} (as : List α) (bs : List β) : Except Fault (List (α × β)) :=
  if as.length = bs.length then return as.zip bs
  else throw (.outOfStep (bs.length < as.length))

end StopAlign
