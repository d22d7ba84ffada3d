import StopAlign.Dictionary
import StopAlign.Fault
import StopAlign.Path

/-!
# Disk — directories and files

- `Location`, `Node` : the steps from the start to a directory or file; what can be there
- `Disk.locate`      : where a path leads
- `Disk.make`        : make a directory, with all directories on the way
- `Disk.write`, `Disk.read?`, `Disk.remove` : a file by its path; what is written is read
- `Disk.octetsAt`    : a file by its location

A path is walked step by step, and all steps but the last one have to be directories. A step back
leads to the directory above.
-/

namespace StopAlign

/-- The steps from the start. A path from the root has the root as its first step. -/
abbrev Location := List String

inductive Node
  | directory
  | file (octets : List UInt8)
  deriving DecidableEq

structure Disk where
  nodes : Dictionary Location Node
  deriving DecidableEq

namespace Disk

/-- The longest name of a file, in octets. -/
def nameLimit : Nat := 255

def hasNull (path : String) : Bool := path.toList.any (·.toNat == 0)

def holdsDirectory (d : Disk) (l : Location) : Bool := d.nodes.find? l = some .directory

def origin (path : String) : Location := if fromRoot path then ["/"] else []

def onward (l : Location) (step : String) : Location :=
  -- nothing is above the root
  if step = ".." then (if l = ["/"] then l else l.dropLast) else l ++ [step]

/-! ## Walking -/

def walk (d : Disk) (l : Location) : List String → Except PathFlaw Location
  | [] => return l
  | step :: steps =>
    match d.nodes.find? l with
    | none => throw .absent
    | some (.file _) => throw .throughFile
    | some .directory =>
      -- the length of a name counts only once it is looked up
      if nameLimit < step.utf8ByteSize then throw .longName else d.walk (onward l step) steps

def locate (d : Disk) (path : String) : Except PathFlaw Location :=
  d.walk (origin path) (pathSteps path)

def isDirectory (d : Disk) (path : String) : Bool :=
  match d.locate path with
  | .ok l => !hasNull path && d.holdsDirectory l
  | .error _ => false

/-! ## Directories -/

def empty : Disk := ⟨⟨[([], .directory), (["/"], .directory)]⟩⟩

/-- Put a directory where nothing is. -/
def settle (d : Disk) (l : Location) : Disk :=
  if d.nodes.contains l then d else ⟨d.nodes.put l .directory⟩

def makeAlong (d : Disk) (l : Location) : List String → Except PathFlaw Disk
  | [] => if d.holdsDirectory l then return d else throw .taken
  | step :: steps =>
    if !d.holdsDirectory l then throw .throughFile
    else if nameLimit < step.utf8ByteSize then throw .longName
    else (d.settle (onward l step)).makeAlong (onward l step) steps

def make (d : Disk) (path : String) : Except Fault Disk :=
  if hasNull path then throw .nullInPath
  else
    match d.makeAlong (origin path) (pathSteps path) with
    | .ok d => return d
    | .error flaw => throw (.badPath flaw path)

/-- The directories but the start and the root, in the order in which they were made. -/
def directories (d : Disk) : List Location :=
  (d.nodes.entries.filter fun e => e.2 = .directory ∧ e.1 ≠ [] ∧ e.1 ≠ ["/"]).map (·.1)

/-! ## Files -/

def write (d : Disk) (path : String) (octets : List UInt8) : Except PathFlaw Disk :=
  match d.locate path with
  | .error flaw => throw flaw
  | .ok l =>
    if d.holdsDirectory l then throw .directory else return ⟨d.nodes.put l (.file octets)⟩

def read? (d : Disk) (path : String) : Option (List UInt8) :=
  match d.locate path with
  | .error _ => none
  | .ok l =>
    match d.nodes.find? l with
    | some (.file octets) => some octets
    | _ => none

/-- The octets of the file at a location, none if there is no file. -/
def octetsAt (d : Disk) (l : Location) : List UInt8 :=
  match d.nodes.find? l with
  | some (.file octets) => octets
  | _ => []

def remove (d : Disk) (path : String) : Except Fault Disk := do
  match d.locate path with
  | .error flaw => throw (.badPath flaw path)
  | .ok l =>
    match d.nodes.find? l with
    | none => throw (.badPath .absent path)
    | some .directory => throw (.badPath .directory path)
    | some (.file _) => return ⟨d.nodes.erase l⟩

/-- The files with their locations, in the order in which they were first written. -/
def files (d : Disk) : List (Location × List UInt8) :=
  d.nodes.entries.filterMap fun e =>
    match e.2 with
    | .file octets => some (e.1, octets)
    | .directory => none

/-- The files in a directory, its own directories left out. -/
def filesIn (d : Disk) (l : Location) : List (String × List UInt8) :=
  d.files.filterMap fun e =>
    if e.1.dropLast = l then e.1.getLast?.map fun name => (name, e.2) else none

/-! ## What is written is read -/

/-- A file at a location that is no directory turns no walk aside. -/
theorem walk_put_file {d : Disk} {l : Location} (h : d.holdsDirectory l = false)
    (octets : List UInt8) {start goal : Location} {steps : List String}
    (walked : d.walk start steps = .ok goal) :
    walk ⟨d.nodes.put l (.file octets)⟩ start steps = .ok goal := by
  induction steps generalizing start with
  | nil => exact walked
  | cons step steps ih =>
    rw [walk] at walked ⊢
    cases found : d.nodes.find? start with
    | none =>
      rw [found] at walked
      cases walked
    | some node =>
      cases node with
      | file _ =>
        rw [found] at walked
        cases walked
      | directory =>
        rw [found] at walked
        have other : l ≠ start := by
          intro same
          subst same
          simp [holdsDirectory, found] at h
        simp only [Dictionary.find?_put, if_neg other, found]
        simp only at walked
        by_cases long : nameLimit < step.utf8ByteSize
        · rw [if_pos long] at walked
          cases walked
        · rw [if_neg long] at walked ⊢
          exact ih walked

theorem read?_write {d after : Disk} {path : String} {octets : List UInt8}
    (h : d.write path octets = .ok after) : after.read? path = some octets := by
  cases located : d.locate path with
  | error flaw =>
    simp only [write, located] at h
    cases h
  | ok l =>
    cases held : d.holdsDirectory l with
    | true =>
      simp only [write, located, if_pos held] at h
      cases h
    | false =>
      simp only [write, located, if_neg (Bool.eq_false_iff.mp held)] at h
      cases h
      have again : locate ⟨d.nodes.put l (.file octets)⟩ path = .ok l :=
        walk_put_file held octets located
      simp only [read?, again, Dictionary.find?_put_self]

end Disk

end StopAlign
