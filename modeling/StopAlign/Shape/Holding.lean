import StopAlign.Shape.ArrayFile
import StopAlign.Shape.Loading

/-!
# Holding — stores in memory and in mapped files

- `Held`           : an array in memory, or one that is mapped from a file
- `Held.rows`      : what it holds at present
- `Holding`        : the two arrays of a store
- `Holding.fromFiles` : open the files of a store
- `Holding.save`   : write them
- `Use`, `Yield`   : what is asked of a store, and what it answers
- `Use.on`         : on arrays, with what they become
- `Holding.use`    : on a store that is held somewhere

A mapped array is read from its file at each use, so what is written there later shows in it. Arrays
that grow are taken into memory; files are only written when a store is saved.
-/

namespace StopAlign

open ArrayFile

/-! ## Arrays -/

/-- An array in memory, or one whose rows stand in a file. -/
inductive Held (α : Type)
  | own (rows : Array α)
  | mapped (place : Location) (layout : Layout)
  deriving DecidableEq

namespace Held

variable {α : Type}

/-- The rows at present. Behind the end of its file a mapped array shows zeros, as the rest of the
last page does; beyond that page it cannot be read, and nothing is said here of a program that
tries. -/
def rows (f : Format α) (disk : Disk) : Held α → Array α
  | own rows => rows
  | mapped place layout => f.rowsAt layout (disk.octetsAt place)

/-- Where the rows stand, if they are mapped. -/
def place? : Held α → Option Location
  | own _ => none
  | mapped place _ => some place

/-- Open the file at a path, if there is one of the format. -/
def fromFile (f : Format α) (disk : Disk) (path : String) (mapped : Bool) : Option (Held α) :=
  match disk.locate path with
  | .error _ => none
  | .ok place =>
    let file := disk.octetsAt place
    (f.layout? file).map fun layout =>
      if mapped then .mapped place layout else .own (f.rowsAt layout file)

end Held

/-! ## Stores -/

/-- The two arrays of a store, wherever they are. -/
structure Holding where
  points : Held PointBits
  starts : Held Int
  deriving DecidableEq

namespace Holding

def own (a : Arrays PointBits) : Holding := ⟨.own a.points, .own a.starts⟩

def arrays (disk : Disk) (h : Holding) : Arrays PointBits :=
  ⟨h.points.rows pointFormat disk, h.starts.rows boundaryFormat disk⟩

def places (h : Holding) : List Location := h.points.place?.toList ++ h.starts.place?.toList

/-- Open the files of a directory, which are read once or mapped. Their arrays have to fit. -/
def fromFiles (disk : Disk) (directory : String) (mapped : Bool) : Except Fault Holding :=
  let pointPath := joinPath directory pointFileName
  let boundaryPath := joinPath directory boundaryFileName
  match disk.read? pointPath, disk.read? boundaryPath with
  | none, _ => throw (.missingArray pointPath)
  | _, none => throw (.missingArray boundaryPath)
  | some _, some _ =>
    match Held.fromFile pointFormat disk pointPath mapped,
      Held.fromFile boundaryFormat disk boundaryPath mapped with
    | none, _ => throw (.damagedArray pointPath)
    | _, none => throw (.damagedArray boundaryPath)
    | some points, some starts =>
      let h : Holding := ⟨points, starts⟩
      (ShapeStore.new (h.arrays disk)).map fun _ => h

/-- Write the files of a store. An array that is mapped from one of them is read when the file has
only a header yet. -/
def save (h : Holding) (directory : String) (disk : Disk) : Except Fault Disk :=
  saveArrays (h.points.rows pointFormat) (h.starts.rows boundaryFormat) directory disk

/-- Take arrays that have changed into memory. -/
def become (disk : Disk) (h : Holding) (after : Arrays PointBits) : Holding :=
  if after = h.arrays disk then h else own after

end Holding

/-! ## Uses -/

/-- What is asked of a store. -/
inductive Use
  | append (shapes : List (List PointBits))
  | load (source : Source ShapeRecord)
  | shape (index : Option Int)
  | size (index : Int)

inductive Yield
  | appended
  | loaded (l : Loaded (Arrays PointBits))
  | points (ps : List PointBits)
  | count (n : Int)

def Arrays.load (source : Source ShapeRecord) (a : Arrays PointBits) : Loaded (Arrays PointBits) :=
  loadWith (fun a shapes => a.add (shapes.map (·.map .ofPoint))) a.size source a

/-- What a use yields, and what the arrays are then. -/
def Use.on : Use → Arrays PointBits → Except Fault Yield × Arrays PointBits
  | .append shapes, a => (.ok .appended, a.add shapes)
  | .load source, a => (.ok (.loaded (a.load source)), (a.load source).store)
  | .shape index, a => ((a.shape index).map .points, a)
  | .size index, a => ((a.shapeSize index).map .count, a)

/-- What a use yields, and where the store is held then. -/
def Holding.use (disk : Disk) (h : Holding) (u : Use) : Except Fault Yield × Holding :=
  let (yield, after) := u.on (h.arrays disk)
  (yield, h.become disk after)

end StopAlign
