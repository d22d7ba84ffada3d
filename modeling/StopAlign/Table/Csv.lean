import StopAlign.Source

/-!
# Csv — comma separated rows

- `Scan`, `Scan.step` : the state of the reader, and one more character
- `Scan.finish`       : the rows at the end of the text
- `readRows`          : the rows of a file
- `writeCell`, `writeRow` : a row as it is written, quoted where it has to be

A row ends with a line feed, a carriage return or both. A cell that begins with a quote ends with
the next single quote, and two quotes in it stand for one; after its end only a comma or the end of
the row may follow. Anywhere else a quote is an ordinary character. A cell has at most `cellLimit`
characters.
-/

namespace StopAlign

open Text

namespace Csv

inductive Place
  | rowStart
  | cellStart
  | plain
  | quoted
  /-- After a quote in a quoted cell. -/
  | quoteSeen
  /-- After a carriage return, which ends the row together with a line feed. -/
  | returnSeen
  /-- In a line with a faulty cell. -/
  | spoilt (flaw : CellFlaw)
  /-- Behind a line with a faulty cell. -/
  | broken (flaw : CellFlaw)
  deriving DecidableEq, Repr

/-- The rows, the cells and the characters read so far, each in reverse order, and the number of
these characters. -/
structure Scan where
  place : Place
  chars : List Char
  count : Nat
  cells : List String
  rows : List (List String)
  deriving DecidableEq, Repr

namespace Scan

def start : Scan := ⟨.rowStart, [], 0, [], []⟩

/-- Meet a fault at a character, which may end the line. -/
def spoil (s : Scan) (c : Char) (flaw : CellFlaw) : Scan :=
  { s with place := if c = '\n' ∨ c = '\r' then .broken flaw else .spoilt flaw }

/-- Add a character to the cell, unless it is full. -/
def addChar (s : Scan) (c : Char) (place : Place) : Scan :=
  if s.count < cellLimit then { s with chars := c :: s.chars, count := s.count + 1, place }
  else s.spoil c .tooLong

def endCell (s : Scan) (place : Place) : Scan :=
  { s with chars := [], count := 0, cells := String.ofList s.chars.reverse :: s.cells, place }

def endRow (s : Scan) : Scan :=
  { s with place := .rowStart, cells := [], rows := s.cells.reverse :: s.rows }

/-- A character that ends an unquoted cell or belongs to it. -/
def stepPlain (s : Scan) (c : Char) : Scan :=
  if c = ',' then s.endCell .cellStart
  else if c = '\n' then (s.endCell .rowStart).endRow
  else if c = '\r' then s.endCell .returnSeen
  else s.addChar c .plain

def stepCell (s : Scan) (c : Char) : Scan :=
  if c = '"' then { s with place := .quoted } else s.stepPlain c

def stepRow (s : Scan) (c : Char) : Scan :=
  -- a blank line is a row without cells
  if c = '\n' then s.endRow
  else if c = '\r' then { s with place := .returnSeen }
  else s.stepCell c

def step (s : Scan) (c : Char) : Scan :=
  match s.place with
  | .rowStart => s.stepRow c
  | .cellStart => s.stepCell c
  | .plain => s.stepPlain c
  | .quoted => if c = '"' then { s with place := .quoteSeen } else s.addChar c .quoted
  | .quoteSeen =>
    if c = '"' then s.addChar c .quoted
    else if c = ',' ∨ c = '\n' ∨ c = '\r' then s.stepPlain c
    else s.spoil c .textAfterQuote
  -- a carriage return alone ends the row as well
  | .returnSeen => if c = '\n' then s.endRow else s.endRow.stepRow c
  | .spoilt flaw => s.spoil c flaw
  | .broken _ => s

def run (s : Scan) (cs : List Char) : Scan := cs.foldl step s

/-- The rows before the place where the reader stands. -/
def finished (s : Scan) (fault : Option Fault) : Source (List String) :=
  ⟨s.rows.reverse, fault⟩

def finish (s : Scan) : Source (List String) :=
  match s.place with
  | .rowStart => s.finished none
  | .cellStart | .plain | .quoteSeen => (s.endCell .rowStart).endRow.finished none
  -- the cell in quotes is given up with its row
  | .quoted => s.finished (some (.badCell .openQuote))
  | .returnSeen => s.endRow.finished none
  | .spoilt flaw | .broken flaw => s.finished (some (.badCell flaw))

theorem run_append (s : Scan) (cs ds : List Char) : s.run (cs ++ ds) = (s.run cs).run ds := by
  simp [run]

@[simp]
theorem run_nil (s : Scan) : s.run [] = s := rfl

@[simp]
theorem run_cons (s : Scan) (c : Char) (cs : List Char) : s.run (c :: cs) = (s.step c).run cs := rfl

end Scan

/-- The rows of decoded text. Where octets are no text, only rows that have ended before count. -/
def rowsOf (text : Decoded) : Source (List String) :=
  let s := Scan.start.run text.chars
  match text.failure with
  | none => s.finish
  | some failure =>
    match s.place with
    -- a fault of an earlier line is met before the octets that are no text
    | .broken _ => s.finish
    | _ => s.finished (some (.undecodable failure))

def readRows (octets : List UInt8) : Source (List String) :=
  rowsOf (decode octets)

/-! ## Writing -/

/-- Whether a character makes quotes necessary. -/
def needsQuotes (c : Char) : Bool :=
  c == ',' || c == '"' || c == '\n'

def doubled (cs : List Char) : List Char :=
  cs.flatMap fun c => if c = '"' then ['"', '"'] else [c]

def writeCell (s : String) : String :=
  if s.toList.any needsQuotes then "\"" ++ String.ofList (doubled s.toList) ++ "\"" else s

def writeRow (cells : List String) : String :=
  ",".intercalate (cells.map writeCell) ++ "\n"

end Csv

end StopAlign
