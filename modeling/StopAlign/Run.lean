import StopAlign.Export.Layer
import StopAlign.Export.Offsets
import StopAlign.Feed.Stops
import StopAlign.Feed.Trips
import StopAlign.Progress
import StopAlign.Shape.ArrayFile
import StopAlign.Shape.Table
import StopAlign.Trip.Matching

/-!
# Run — from the files of a feed to the files of offsets

- `Settings`       : where the files are, and what is to be done
- `Effects`        : lines of the journal, and the disk
- `Job`            : a computation with effects that a fault can end
- `align`          : the whole run
- `Session`, `session` : a run with its exit status

A fault ends a run where it arises; what has been written by then stays. A run knows the directory
of the feed, the directories that it makes, and no others.
-/

namespace StopAlign

structure Settings where
  feedDirectory : String
  outputDirectory : String
  strategy : Strategy := .greedy
  offsetsName : String := "trip_shape_offsets.csv"
  exportSegments : Bool := true
  segmentsName : String := "trip_shape_segments.geojson"
  storeDirectory : Option String := none
  threshold : Threshold := .named "INFO"
  progressEvery : Int := 100000

/-! ## Jobs -/

/-- What a run does to the world: lines of the journal, and the disk that it leaves. -/
structure Effects where
  lines : Array Line
  disk : Disk
  deriving DecidableEq

/-- The disk before a run, as far as it is known. -/
def Settings.disk (s : Settings) : Disk :=
  match Disk.empty.make s.feedDirectory with
  | .ok disk => disk
  | .error _ => .empty

def Effects.start (s : Settings) : Effects := ⟨#[], s.disk⟩

/-- A computation with effects that a fault can end. -/
abbrev Job (α : Type) := ExceptT Fault (StateM Effects) α

namespace Job

def log (lines : List Line) : Job Unit :=
  modify fun e => { e with lines := e.lines ++ lines }

def attempt {α : Type} (result : Except Fault α) : Job α :=
  ExceptT.mk (pure result)

def onDisk (change : Disk → Except Fault Disk) : Job Unit := do
  let disk ← Job.attempt (change (← get).disk)
  modify fun e => { e with disk }

end Job

/-! ## The run -/

structure Alignment where
  pass : Pass
  store : ShapeStore
  trips : List Trip
  ledger : Ledger
  rows : List OffsetRow
  lines : Option (List TripLine)

def loadShapes (s : Settings) (feed : Feed) : Job (Pass × ShapeStore) := do
  Job.log [.info ("Loading shapes from: " ++ normalPath s.feedDirectory)]
  let meter ← Job.attempt (Meter.new "Parse shapes" none s.progressEvery)
  let path := joinPath s.feedDirectory shapeTableName
  let loaded := load (readShapes path feed.shapes defaultBlockRows) .empty
  Job.log (loaded.lines fun n => meter.lines n)
  let (pass, store) ← Job.attempt loaded.outcome
  if !pass.disorders.isEmpty then
    Job.log [.warning (toString pass.disorders.length
      ++ " non monotonic shape point sequences corrected")]
  return (pass, store)

def matchAll (s : Settings) (net : Network) (trips : List Trip) : Job Ledger := do
  let meter ← Job.attempt
    (Meter.new "Calculating shape offsets" (some trips.length) s.progressEvery)
  let matching := matchTrips net (fun n => meter.lines n) trips
  Job.log matching.journal
  Job.attempt matching.outcome

/-- A disk with a table at a path, whose directory has to be there. -/
def writeTable (path : String) (octets : List UInt8) (disk : Disk) : Except Fault Disk :=
  let directory := parentPath path
  match disk.locate directory with
  | .error .longName => throw (.badPath .longName directory)
  | _ =>
    if !disk.isDirectory directory then throw (.noDirectory directory)
    else if Disk.hasNull path then throw .nullInPath
    else
      match disk.write path octets with
      | .ok disk => return disk
      | .error flaw => throw (.badPath flaw path)

def writeLayer (path : String) (octets : List UInt8) (disk : Disk) : Except Fault Disk :=
  if Disk.hasNull path then throw .nullInPath
  else
    match disk.write path octets with
    | .ok disk => return disk
    | .error .directory => throw (.badPath .directory path)
    | .error flaw => throw (.layerPath flaw path)

def writeOffsetTable (s : Settings) (rows : List OffsetRow) : Job Unit := do
  Job.onDisk (·.make (normalPath s.outputDirectory))
  let path := joinPath s.outputDirectory s.offsetsName
  Job.onDisk (writeTable path (offsetFile rows))
  Job.log [.info ("Wrote: " ++ path)]

def writeSegments (s : Settings) (net : Network) (ledger : Ledger) (trips : List Trip) :
    Job (List TripLine) := do
  let lines ← Job.attempt (matchedSegments net ledger trips)
  let path := joinPath s.outputDirectory s.segmentsName
  if lines.isEmpty then Job.log [.info ("No matched trips; skipping " ++ path)]
  else
    Job.onDisk (writeLayer path (layerFile s.segmentsName lines))
    Job.log [.info ("Wrote: " ++ path)]
  return lines

def saveStore (directory : String) (store : ShapeStore) : Job Unit := do
  Job.onDisk (store.saveTo directory)
  Job.log [store.savedLine (normalPath directory)]

def align (s : Settings) (feed : Feed) : Job Alignment := do
  -- the feed is read to its end before anything is matched
  let (pass, store) ← loadShapes s feed
  let reading := readStops s.feedDirectory feed.stops
  Job.log reading.lines
  let stops ← Job.attempt reading.outcome
  let (trips, tripLines) ← Job.attempt (readTrips s.feedDirectory feed pass)
  Job.log tripLines
  let net : Network := ⟨store, pass, stops, s.strategy⟩
  let ledger ← matchAll s net trips
  -- from here on files are written
  let rows := offsetRows pass ledger trips
  writeOffsetTable s rows
  let lines ←
    if s.exportSegments then some <$> writeSegments s net ledger trips else pure none
  match s.storeDirectory with
  | some directory => saveStore directory store
  | none => pure ()
  return ⟨pass, store, trips, ledger, rows, lines⟩

/-! ## Sessions -/

/-- A run with its exit status, which is missing if a fault of another kind than a refusal has ended
it. Lines are shown from the rank `least` on. -/
structure Session where
  effects : Effects
  least : Int
  status : Option Nat
  fault : Option Fault

def runShown (s : Settings) (least : Int) (feed : Feed) (start : Effects) : Session :=
  match (align s feed).run.run start with
  | (.ok _, effects) => ⟨effects, least, some 0, none⟩
  | (.error fault, effects) =>
    if fault.isRefusal then
      let line : Line := .error ("Shape offset matching failed: " ++ fault.message)
      ⟨{ effects with lines := effects.lines.push line }, least, some 1, none⟩
    else ⟨effects, least, none, some fault⟩

/-- Run on a disk, unless the threshold is none. -/
def session (s : Settings) (feed : Feed) (disk : Disk := s.disk) : Session :=
  match s.threshold.rank with
  | .ok least => runShown s least feed ⟨#[], disk⟩
  | .error fault => ⟨⟨#[], disk⟩, 0, none, some fault⟩

def Session.shown (r : Session) : List String :=
  (shownLines r.least r.effects.lines.toList).map Line.shown

end StopAlign
