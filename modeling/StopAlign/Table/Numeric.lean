import StopAlign.Number.Decimal
import StopAlign.Table.Sheet

/-!
# Numeric — columns of numbers

- `readings`     : the cells of a column, read one by one
- `reals`        : the column as doubles, where cells without a number are no number
- `SortKey`, `sortKeys` : the column as keys to sort by, or its first cell that is no number

A column of integers within 64 bits is read as integers, so minus zero is zero in it. Any other
column is read as doubles. A column of integers to sort by is sorted by their values, of any size.
Where it holds one that needs all 64 bits, and also a negative one or a cell without a number, its
cells are sorted as texts.
-/

namespace StopAlign

open Text Number

/-- A cell read as a number. A cell that is left out is blank. -/
def readingOf : Option String → Reading
  | some s => Reading.of (trim s)
  | none => .blank

def readings (cells : List (Option String)) : List Reading := cells.map readingOf

namespace Number.Reading

/-- An integer from 0 on that only fits without a sign. -/
def isUnsigned : Reading → Bool
  | .whole n _ => (unit63 : Int) ≤ n && n < unit64
  | _ => false

def isNegative : Reading → Bool
  | .whole n _ => -(unit63 : Int) ≤ n && n < 0
  | _ => false

def fits : Reading → Bool
  | .whole n _ => -(unit63 : Int) ≤ n && n < unit64
  | _ => false

def isBlank : Reading → Bool
  | .blank => true
  | _ => false

/-- An integer of any size. -/
def isWhole : Reading → Bool
  | .whole .. => true
  | _ => false

def toFloat : Reading → Float
  | .whole _ x => x
  | .real x => x
  | .blank | .long _ | .severed | .wrong => notANumber

def wholeToFloat : Reading → Float
  | .whole n _ => ofInteger n
  | r => r.toFloat

end Number.Reading

def integral (rs : List Reading) : Bool :=
  rs.all Reading.fits && !(rs.any Reading.isUnsigned && rs.any Reading.isNegative)

def reals (cells : List (Option String)) : List Float :=
  let rs := readings cells
  if integral rs then rs.map Reading.wholeToFloat else rs.map Reading.toFloat

/-! ## Sorting -/

/-- A key to sort by. The keys of one column are of one kind, apart from cells without a number,
which come last. -/
inductive SortKey
  | whole (n : Int)
  | real (x : Float)
  | text (s : String)
  | last
  deriving DecidableEq

def SortKey.le : SortKey → SortKey → Bool
  | _, .last => true
  | .last, _ => false
  | .whole a, .whole b => a ≤ b
  | .real a, .real b => a ≤ b
  | .text a, .text b => !(b < a)
  | _, _ => true

def wholeKey : Reading → SortKey
  | .whole n _ => .whole n
  | _ => .last

def realKey : Reading → SortKey
  | .whole _ x => .real x
  | .real x => .real x
  | _ => .last

def textKey : Option String → SortKey
  | some s => .text (trim s)
  | none => .last

/-- What keeps a cell from being sorted as a number. -/
def sortFault? (cell : Option String) (position : Nat) : Option Fault :=
  match readingOf cell with
  | .wrong => some (.nonNumeric (trim (cell.getD "")) position)
  | .long digits => some (.tooManyDigits digits position)
  | .severed => some (.severedInteger (trim (cell.getD "")) position)
  | _ => none

/-- The keys of a column, or the fault of its first cell that is no number. -/
def sortKeys (cells : List (Option String)) : Except Fault (List SortKey) :=
  match cells.zipIdx.findSome? fun (cell, i) => sortFault? cell i with
  | some fault => throw fault
  | none =>
    let rs := readings cells
    -- no kind of number holds all cells of such a column
    if rs.any Reading.isUnsigned && (rs.any Reading.isNegative || rs.any Reading.isBlank) then
      return cells.map textKey
    else if rs.all Reading.isWhole then return rs.map wholeKey
    else return rs.map realKey

end StopAlign
