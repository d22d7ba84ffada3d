import StopAlign.Align.Travelled
import StopAlign.Journal
import StopAlign.Shape.Record
import StopAlign.Shape.Store
import StopAlign.Sort
import StopAlign.Source

/-!
# Loading — a stream of shape records into a store

- `Disorder`          : a sequence number that does not exceed its predecessor's
- `Track`             : the records of one shape in input order
- `Loader`, `Loader.accept` : the shapes seen so far; take one more record
- `Track.points`, `Track.table` : the points and the gap table of a finished shape
- `Pass`              : identifiers, gap tables and warnings of a finished stream
- `Loaded`            : what a stream has left, whether it came to its end or not
- `loadWith`, `load`  : the whole stream, committed to the store at its end or not at all

A shape gets its index when its identifier appears first. A shape whose sequence numbers did not
ascend is sorted, records of equal number in input order.
-/

namespace StopAlign

/-- A sequence number that does not exceed its predecessor's. -/
structure Disorder where
  id : ShapeId
  previous : Int
  sequence : Int
  deriving DecidableEq

def Disorder.message (d : Disorder) : String :=
  "Non monotonic sequence for shape_id '" ++ d.id.shown ++ "': Sequence number "
    ++ toString d.previous ++ " followed by " ++ toString d.sequence

/-! ## Tracks -/

structure Track where
  id : ShapeId
  records : Array ShapeRecord
  disordered : Bool

namespace Track

/-- The disorder that a record brings to a track. -/
def disorder? (t : Track) (r : ShapeRecord) : Option Disorder :=
  match t.records.back? with
  -- a number that comes twice is out of order, too
  | some last => if last.sequence ≥ r.sequence then some ⟨r.id, last.sequence, r.sequence⟩ else none
  | none => none

def push (t : Track) (r : ShapeRecord) : Track :=
  let disordered := t.disordered || (t.disorder? r).isSome
  { t with records := t.records.push r, disordered }

def sorted (t : Track) : List ShapeRecord :=
  -- a track that is not marked ascends, so it is in order
  if t.disordered then stableSort (fun a b => a.sequence ≤ b.sequence) t.records.toList
  else t.records.toList

def points (t : Track) : Polyline := t.sorted.map (·.place)

def table (t : Track) : List Float := gapTable (t.sorted.map (·.travelled))

end Track

/-! ## The loader -/

inductive LoadEvent
  | disorder (d : Disorder)
  | counted (records : Nat)

/-- The shapes seen so far, the one of the last record, and what has happened. -/
structure Loader where
  tracks : Array Track
  current : Option Nat
  events : Array LoadEvent
  count : Nat

namespace Loader

def start : Loader := ⟨#[], none, #[], 0⟩

/-- The shape of the last record, if it has the identifier. -/
def currentOf (l : Loader) (id : ShapeId) : Option Nat :=
  l.current.filter fun i => l.tracks[i]?.any (·.id = id)

/-- The index of the shape of an identifier, which is new if none has it. -/
def indexOf (l : Loader) (id : ShapeId) : Nat :=
  match l.currentOf id with
  | some i => i
  | none => (l.tracks.findIdx? (·.id = id)).getD l.tracks.size

/-- Tracks with one for a new shape, if the index is beyond them. -/
def room (tracks : Array Track) (index : Nat) (id : ShapeId) : Array Track :=
  if index < tracks.size then tracks else tracks.push ⟨id, #[], false⟩

def accept (l : Loader) (r : ShapeRecord) : Loader :=
  -- an identifier that has not been seen gets the next index
  let index := l.indexOf r.id
  let ⟨tracks, _, events, count⟩ := l
  let tracks := room tracks index r.id
  let events :=
    match (tracks[index]?).bind (·.disorder? r) with
    | some d => events.push (.disorder d)
    | none => events
  { tracks := tracks.modify index (·.push r)
    current := some index
    events := events.push (.counted (count + 1))
    count := count + 1 }

def ofRecords (records : List ShapeRecord) : Loader := records.foldl accept start

def disorders (l : Loader) : List Disorder :=
  l.events.toList.filterMap fun
    | .disorder d => some d
    | .counted _ => none

end Loader

/-! ## Passes -/

/-- What a finished stream has brought: the number of shapes before it, the identifiers of its
shapes, their gap tables and the disorders. -/
structure Pass where
  offset : Nat
  ids : List ShapeId
  tables : List (List Float)
  disorders : List Disorder
  deriving DecidableEq

namespace Pass

def find? (p : Pass) (id : ShapeId) : Option Nat :=
  (p.ids.findIdx? (· = id)).map (p.offset + ·)

/-- The gap table of a shape of this pass; no gaps for any other index. -/
def gaps (p : Pass) (index : Int) : List Float :=
  if index < p.offset then [] else (p.tables[(index - p.offset).toNat]?).getD []

end Pass

namespace Loader

def pass (l : Loader) (offset : Nat) : Pass :=
  { offset
    ids := l.tracks.toList.map (·.id)
    tables := l.tracks.toList.map (·.table)
    disorders := l.disorders }

def summary (l : Loader) : Line :=
  .info ("Loaded " ++ toString l.count ++ " shape points into " ++ toString l.tracks.size
    ++ " shapes (" ++ toString (l.tracks.toList.countP (·.disordered)) ++ " re-sorted)")

def lines (l : Loader) (meter : Nat → List Line) : List Line :=
  l.events.toList.flatMap fun
    | .disorder d => [.warning d.message]
    | .counted n => meter n

end Loader

/-- What a stream has left: what the loader has seen, the pass or the fault that ended the stream,
and the store, which is there in either case. -/
structure Loaded (σ : Type) where
  loader : Loader
  result : Except Fault Pass
  store : σ

namespace Loaded

variable {σ : Type}

/-- The pass with the store, if the stream came to its end. -/
def outcome (r : Loaded σ) : Except Fault (Pass × σ) :=
  match r.result with
  | .ok pass => .ok (pass, r.store)
  | .error fault => .error fault

def lines (r : Loaded σ) (meter : Nat → List Line) : List Line :=
  match r.result with
  | .ok _ => r.loader.lines meter ++ [r.loader.summary]
  | .error _ => r.loader.lines meter

end Loaded

/-- Read a stream to its end and add its shapes to a store of some size. A stream that ends with a
fault adds none. -/
def loadWith {σ : Type} (add : σ → List Polyline → σ) (size : Nat) (source : Source ShapeRecord)
    (store : σ) : Loaded σ :=
  let loader := Loader.ofRecords source.items
  match source.fault with
  | some fault => ⟨loader, .error fault, store⟩
  | none => ⟨loader, .ok (loader.pass size), add store (loader.tracks.toList.map (·.points))⟩

def load (source : Source ShapeRecord) (store : ShapeStore) : Loaded ShapeStore :=
  loadWith .add store.size source store

end StopAlign
