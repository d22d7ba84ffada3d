import StopAlign.Cell

/-!
# Fault — everything that can go wrong, and how it is said

- `ShapeFault`      : a shape table that cannot be read
- `CellFlaw`        : a cell that breaks the rules of quoting or is too long
- `PathFlaw`        : a path that does not lead where it should
- `Fault`           : the causes of failure
- `Fault.message`   : the text of each
- `Fault.isRefusal` : the faults of the input, which a run of the program reports and survives
-/

namespace StopAlign

open Text

def listColumns (names : List String) : String :=
  "[" ++ ", ".intercalate (names.map quoteText) ++ "]"

inductive ShapeFault
  | emptyTable (table : String)
  | missingColumns (table : String) (columns : List String)
  | missingColumn (row : Int) (column : String)
  | invalidValue (row : Int) (column : String) (cell : Cell)
  | negativeSequence (row : Int) (sequence : Int)
  deriving DecidableEq

namespace ShapeFault

def message : ShapeFault → String
  | .emptyTable table => table ++ " is empty"
  | .missingColumns table columns =>
    table ++ " is missing required columns: " ++ listColumns columns
  | .missingColumn row column =>
    "Row " ++ toString row ++ ": missing required column '" ++ column ++ "'"
  | .invalidValue row column cell =>
    "Row " ++ toString row ++ ": invalid " ++ column ++ " value " ++ cell.quoted
  | .negativeSequence row sequence =>
    "Row " ++ toString row ++ ": shape_pt_sequence must be non-negative, got "
      ++ toString sequence

end ShapeFault

inductive CellFlaw
  | textAfterQuote
  | openQuote
  | tooLong
  deriving DecidableEq, Repr

/-- The largest number of characters in a cell. -/
def cellLimit : Nat := 131072

def CellFlaw.message : CellFlaw → String
  | .textAfterQuote => "',' expected after '\"'"
  | .openQuote => "unexpected end of data"
  | .tooLong => "field larger than field limit (" ++ toString cellLimit ++ ")"

inductive PathFlaw
  | absent
  | taken
  | throughFile
  | directory
  | longName
  deriving DecidableEq, Repr

namespace PathFlaw

def number : PathFlaw → Nat
  | .absent => 2
  | .taken => 17
  | .throughFile => 20
  | .directory => 21
  | .longName => 36

def text : PathFlaw → String
  | .absent => "No such file or directory"
  | .taken => "File exists"
  | .throughFile => "Not a directory"
  | .directory => "Is a directory"
  | .longName => "File name too long"

end PathFlaw

/-- The causes of failure. -/
inductive Fault
  /-- The sine or cosine of an infinity, or the root of a negative number. -/
  | mathDomain
  | shortPolyline (points : Nat)
  | unknownAlgorithm (name : String)
  | shapeIndex (index : Int) (shapes : Nat)
  | boundaryIndex (index : Int) (size : Nat)
  /-- A boundary, or the index of one, beyond the signed words. -/
  | boundaryRange
  /-- The index of a boundary beyond all words. -/
  | boundaryKind
  | tableIndex
  /-- An index into a list beyond the signed words. -/
  | indexRange
  | noStops
  | boundaryEnd (last : Int) (points : Nat)
  | missingArray (path : String)
  | damagedArray (path : String)
  | missingTable (path : String)
  | shapeTable (fault : ShapeFault)
  | emptyTable (table : String)
  | missingColumns (table : String) (columns : List String)
  | nonNumeric (cell : String) (position : Nat)
  | tooManyDigits (digits position : Nat)
  /-- An integer that a null character cuts short. -/
  | severedInteger (cell : String) (position : Nat)
  /-- Several columns with the name of a column of numbers. -/
  | severalNumbers
  | severalColumns (name : String)
  /-- A name of the rows that is also the name of a column. -/
  | ambiguousColumn (name : String)
  /-- Two lists to be taken in step, the second of which is too short or too long. -/
  | outOfStep (short : Bool)
  | undecodable (failure : DecodeFailure)
  | tooManyFields (expected line seen : Nat)
  /-- A faulty cell in a table that is read as a whole, or in front of its first block. -/
  | badCell (flaw : CellFlaw)
  /-- A faulty cell met while blocks are read. -/
  | brokenStream (flaw : CellFlaw)
  | openName
  | blockRows
  | interval (every : Int)
  | onePointLine
  | unknownStop (stop : Ident)
  | hugeInteger
  | badPath (flaw : PathFlaw) (path : String)
  /-- A null character in a path. -/
  | nullInPath
  /-- A table to be written into a directory that does not exist. -/
  | noDirectory (path : String)
  /-- A layer to be written where no file can be. -/
  | layerPath (flaw : PathFlaw) (path : String)
  /-- A text that names no level. -/
  | unknownLevel (name : String)
  /-- A value that is no level. -/
  | levelKind (shown : String)
  deriving DecidableEq

def Text.Flaw.message : Flaw → String
  | .start => "invalid start byte"
  | .continuation => "invalid continuation byte"
  | .truncated => "unexpected end of data"

def Text.DecodeFailure.message (f : DecodeFailure) : String :=
  let place :=
    match f.octets with
    | [o] =>
      "byte 0x" ++ String.ofList (hexDigits 2 o.toNat) ++ " in position " ++ toString f.position
    | os =>
      "bytes in position " ++ toString f.position ++ "-" ++ toString (f.position + os.length - 1)
  "'utf-8' codec can't decode " ++ place ++ ": " ++ f.flaw.message

def shorten (count : Nat) (s : String) : String :=
  String.ofList (s.toList.take count)

/-- The text about the cell of a row whose place in the trip cannot be read. -/
def badOrder (cause : String) (position : Nat) : String :=
  "stop_times.txt has a non-numeric stop_sequence: " ++ cause ++ " at position "
    ++ toString position

namespace Fault

def message : Fault → String
  | .mathDomain => "math domain error"
  | .shortPolyline points => "Polyline needs at least 2 points, got " ++ toString points
  | .unknownAlgorithm name => quoteText name ++ " is not a valid ShapeMatchingAlgorithm"
  | .shapeIndex index shapes =>
    "Shape index " ++ toString index ++ " out of range (storage holds " ++ toString shapes
      ++ " shapes)"
  | .boundaryIndex index size =>
    "index " ++ toString index ++ " is out of bounds for axis 0 with size " ++ toString size
  | .boundaryRange => "Python int too large to convert to C long"
  | .boundaryKind =>
    "only integers, slices (`:`), ellipsis (`...`), numpy.newaxis (`None`) and integer or boolean "
      ++ "arrays are valid indices"
  | .tableIndex => "list index out of range"
  | .indexRange => "cannot fit 'int' into an index-sized integer"
  | .noStops => "list assignment index out of range"
  | .boundaryEnd last points =>
    "Bucket boundaries end at " ++ toString last ++ " but storage holds " ++ toString points
      ++ " points"
  | .missingArray path => "Shape storage file not found: " ++ path
  | .damagedArray path => "Shape storage file damaged: " ++ path
  | .missingTable path => "Required GTFS file not found: " ++ path
  | .shapeTable fault => fault.message
  | .emptyTable table => table ++ " is empty"
  | .missingColumns table columns =>
    table ++ " is missing required columns: " ++ listColumns columns
  | .nonNumeric cell position =>
    badOrder ("Unable to parse string " ++ quoteText cell) position
  | .tooManyDigits digits position =>
    badOrder ("Exceeds the limit (4300 digits) for integer string conversion: value has "
      ++ toString digits ++ " digits; use sys.set_int_max_str_digits() to increase the limit")
      position
  | .severedInteger cell position =>
    badOrder ("invalid literal for int() with base 10: " ++ shorten 200 (quoteText cell)) position
  | .severalNumbers => "'DataFrame' object has no attribute 'str'"
  | .severalColumns name => "The column label '" ++ name ++ "' is not unique."
  | .ambiguousColumn name =>
    "'" ++ name ++ "' is both an index level and a column label, which is ambiguous."
  | .outOfStep true => "zip() argument 2 is shorter than argument 1"
  | .outOfStep false => "zip() argument 2 is longer than argument 1"
  | .undecodable failure => failure.message
  | .tooManyFields expected line seen =>
    "Expected " ++ toString expected ++ " fields in line " ++ toString line ++ ", saw "
      ++ toString seen
  | .badCell flaw | .brokenStream flaw => flaw.message
  | .openName => "substring not found"
  | .blockRows => "'chunksize' must be an integer >=1"
  | .interval every => "Progress interval must be positive, got " ++ toString every
  | .onePointLine => "IllegalArgumentException: point array must contain 0 or >1 elements\n"
  | .unknownStop stop => stop.quoted
  | .hugeInteger => "int too large to convert to float"
  | .badPath flaw path =>
    "[Errno " ++ toString flaw.number ++ "] " ++ flaw.text ++ ": " ++ quoteText path
  | .nullInPath => "embedded null byte"
  | .noDirectory path => "Cannot save file into a non-existent directory: '" ++ path ++ "'"
  | .layerPath flaw path =>
    "Failed to create GeoJSON datasource: " ++ path ++ ": " ++ path ++ ": " ++ flaw.text
  | .unknownLevel name => "Unknown level: " ++ quoteText name
  | .levelKind shown => "Level not an integer or a valid string: " ++ shown

/-- The faults of the input and of the settings. A run reports them and ends with status 1; the
others are faults in the use of the library. -/
def isRefusal : Fault → Bool
  | .shapeIndex .. | .boundaryIndex .. | .boundaryRange | .boundaryKind => false
  | .tableIndex | .indexRange | .noStops | .onePointLine | .unknownStop _ | .hugeInteger => false
  | .severalNumbers | .brokenStream _ => false
  | .badPath flaw _ => flaw = .absent
  | .noDirectory _ | .layerPath .. | .levelKind _ => false
  | _ => true

/-- A fault of a table that is met while blocks are read. -/
def inStream : Fault → Fault
  | .badCell flaw => .brokenStream flaw
  | fault => fault

end Fault

end StopAlign
