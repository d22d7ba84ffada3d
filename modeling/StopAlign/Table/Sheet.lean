import StopAlign.Table.Csv
import StopAlign.Text.Blank

/-!
# Sheet — a table with named columns

- `Sheet`        : columns, rows read ahead, rows not yet read
- `Sheet.ofRows` : the sheet of a file, with its header taken off
- `Sheet.blocks` : the rows in blocks of a size
- `Sheet.columnsOf`, `Sheet.column?`, `Row.cell?` : columns by name

The header is the first row that is not blank. Names are compared without blanks around them; among
columns of the very same name the first counts, and names that are equal only without their blanks
are names of several columns. Two rows are read ahead. If the first of them is longer than the
header, the surplus cells in front of all rows have no name and are dropped. If the second one is as
long as the header and the first one together, the first one names the columns in front of all rows;
these are dropped too, and a name among them is taken: it names no column of the header.
-/

namespace StopAlign

open Text

abbrev Row := List (Option String)

structure Sheet where
  /-- The names of the columns; a column that repeats the very name of another one has none. -/
  columns : List (Option String)
  /-- The number of cells in front of each row that belong to no column. -/
  dropped : Nat
  /-- The names of these cells, if a row names them. -/
  rowNames : List String
  /-- The rows read ahead. -/
  ahead : List (List String)
  /-- The rows not yet read. -/
  rest : List (List String)
  /-- The number of rows read, blank ones and the header included. -/
  position : Nat
  /-- The fault behind the last row. -/
  fault : Option Fault

namespace Sheet

def isBlankRow : List String → Bool
  | [] => true
  | [cell] => isBlankText cell
  | _ => false

/-- The first row that is not blank, the rows behind it and the number of rows up to it. -/
def nextRow? (position : Nat) : List (List String) → Option (List String × List (List String) × Nat)
  | [] => none
  | row :: rest =>
    if isBlankRow row then nextRow? (position + 1) rest else some (row, rest, position + 1)

/-! ## Headers -/

def byteOrderMark : Char := Char.ofNat 0xFEFF

/-- A name without the byte order mark in front of it. A quote behind the mark has to be closed, and
both quotes are dropped. -/
def unmark (name : String) : Except Fault String :=
  match name.toList with
  | c :: cs =>
    if c ≠ byteOrderMark then return name
    else
      match cs with
      | '"' :: inner =>
        if inner.contains '"' then
          return String.ofList (inner.takeWhile (· ≠ '"') ++ (inner.dropWhile (· ≠ '"')).drop 1)
        else throw .openName
      | _ => return String.ofList cs
  | [] => return name

/-- The header of a file, where the mark can only stand in front of the first row. -/
def unmarkHeader (position : Nat) : List String → Except Fault (List String)
  | [] => return []
  | name :: names => do
    if position = 1 then return (← unmark name) :: names else return name :: names

def columnNames (seen : List String) : List String → List (Option String)
  | [] => []
  -- names are compared before their blanks are dropped
  | name :: names =>
    (if seen.contains name then none else some (trim name)) :: columnNames (name :: seen) names

/-! ## Opening -/

def lookAhead (names : List String) (rest : List (List String)) (position : Nat)
    (fault : Option Fault) : Except Fault Sheet :=
  let columns := columnNames [] names
  let ended : Except Fault Unit := match fault with
    | some f => throw f
    | none => return ()
  match nextRow? position rest with
  | none => do
    ended
    return ⟨columns, 0, [], [], [], position + rest.length, fault⟩
  | some (first, rest₁, position₁) =>
    let surplus := first.length - names.length
    match nextRow? position₁ rest₁ with
    | none => do
      ended
      return ⟨columns, surplus, [], [first], [], position₁ + rest₁.length, fault⟩
    | some (second, rest₂, position₂) =>
      if second.length = first.length + names.length then
        -- the first row names the cells in front of the others and is dropped itself
        return ⟨columnNames first names, first.length, first, [second], rest₂, position₂, fault⟩
      else return ⟨columns, surplus, [], [first, second], rest₂, position₂, fault⟩

/-- The sheet of rows. `empty` is the fault of a file without any row. -/
def ofRows (empty : Fault) (rows : Source (List String)) : Except Fault Sheet :=
  match nextRow? 0 rows.items with
  | none => throw (rows.fault.getD empty)
  | some (header, rest, position) => do
    let names ← unmarkHeader position header
    lookAhead names rest position rows.fault

/-! ## Rows -/

def width (s : Sheet) : Nat := s.columns.length + s.dropped

/-- The fault of the first row that is too long, where the rows are the last ones read. -/
def overlong? (s : Sheet) (position : Nat) (rows : List (List String)) : Option Fault :=
  (rows.findIdx? fun row => s.width < row.length).map fun i =>
    .tooManyFields s.width (position - (rows.length - i) + 1)
      ((rows[i]?).getD []).length

def named (s : Sheet) (row : List String) : Row :=
  (List.range s.columns.length).map fun i => row[s.dropped + i]?

/-- Rows in blocks of `size`, where `fuel` bounds their number. Rows are counted before blank ones
are left out. A fault behind the rows is met when a block finds too few of them, and that block is
lost. -/
def blocksFrom (s : Sheet) (size : Nat) :
    Nat → Nat → List (List String) → List (List String) → Source (List Row)
  | 0, _, _, _ => ⟨[], s.fault⟩
  | fuel + 1, position, ahead, rest =>
    let taken := rest.take (size - ahead.length)
    let position := position + taken.length
    -- a block that runs into the fault is lost as a whole
    if ahead.length + taken.length < size && s.fault.isSome then ⟨[], s.fault⟩
    else if ahead.isEmpty && taken.isEmpty then ⟨[], none⟩
    else
      -- the rows read ahead come first, and blank ones have counted by now
      let rows := (ahead.take size ++ taken).filter (!isBlankRow ·)
      match s.overlong? position rows with
      | some f => ⟨[], some f⟩
      | none =>
        let later := s.blocksFrom size fuel position (ahead.drop size)
          (rest.drop (size - ahead.length))
        ⟨rows.map s.named :: later.items, later.fault⟩

def blocks (s : Sheet) (size : Nat) : Source (List Row) :=
  s.blocksFrom size (s.ahead.length + s.rest.length + 1) s.position s.ahead s.rest

def rows (s : Sheet) : Except Fault (List Row) :=
  let all := s.blocks (s.ahead.length + s.rest.length + 1)
  match all.fault with
  | some f => throw f
  | none => return all.items.flatten

/-! ## Columns -/

def columnsOf (s : Sheet) (name : String) : List Nat :=
  (List.range s.columns.length).filter fun i => s.columns[i]? == some (some name)

def column? (s : Sheet) (name : String) : Option Nat :=
  (s.columnsOf name).getLast?

def missing (s : Sheet) (names : List String) : List String :=
  names.filter fun name => (s.column? name).isNone

end Sheet

def Row.cell? (row : Row) (column : Nat) : Option String :=
  (row[column]?).join

end StopAlign
