import StopAlign.Run
import Std.Time

/-!
# Main — the command line

Reads the files of a feed, runs, shows the journal with the time of day, writes the files and ends
with the status of the run.
-/

namespace StopAlign

def defaultSettings : Settings :=
  { feedDirectory := "/path/to/gtfs_directory"
    outputDirectory := "./output/shape_offsets" }

def readFile? (path : String) : IO (Option (List UInt8)) := do
  try
    let bytes ← IO.FS.readBinFile path
    return some bytes.toList
  catch _ => return none

def readFeed (directory : String) : IO Feed := do
  let shapes ← readFile? (joinPath directory shapeTableName)
  let trips ← readFile? (joinPath directory tripTableName)
  let stopTimes ← readFile? (joinPath directory stopTimeTableName)
  let stops ← readFile? (joinPath directory stopTableName)
  return ⟨shapes, trips, stopTimes, stops⟩

def timeOfDay : IO String := do
  let now ← Std.Time.PlainTime.now
  return now.format "HH:mm:ss"

def pathTo : Location → String
  | "/" :: steps => pathOf "/" steps
  | steps => pathOf "" steps

/-- Carry out what a session has decided, where `known` is the disk before it. -/
def carryOut (r : Session) (known : Disk) : IO UInt32 := do
  let time ← timeOfDay
  for line in r.shown do
    IO.println (time ++ "  " ++ line)
  for l in r.effects.disk.directories do
    if !known.holdsDirectory l then IO.FS.createDirAll (pathTo l)
  for (l, octets) in r.effects.disk.files do
    IO.FS.writeBinFile (pathTo l) ⟨octets.toArray⟩
  if let some fault := r.fault then IO.eprintln fault.message
  return UInt32.ofNat (r.status.getD 1)

end StopAlign

def main : IO UInt32 := do
  let settings := StopAlign.defaultSettings
  let feed ← StopAlign.readFeed settings.feedDirectory
  StopAlign.carryOut (StopAlign.session settings feed) settings.disk
