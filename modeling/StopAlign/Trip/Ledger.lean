import StopAlign.Align.Strategy
import StopAlign.Dictionary
import StopAlign.Shape.Loading

/-!
# Ledger — every trip its offset list

- `Trip`, `Pattern`  : a trip; a shape with the stops in visiting order
- `Network`          : shapes, gap tables, stop coordinates and the strategy
- `Network.find`     : the offsets of a pattern, or why there are none
- `Ledger`           : results by pattern, the table of offset lists, the register of trips, counts
- `Ledger.resolve`, `Ledger.assign` : the result for a pattern; the same for a trip, registered
- `Ledger.offsets?`, `Ledger.shape?` : what is registered for a trip

The first trip of a pattern has its offsets found and put into the table; later trips of the same
pattern share the result. Identifiers are compared in their plain forms. A fault leaves the ledger
as it is.
-/

namespace StopAlign

/-! ## Trips and patterns -/

structure Trip where
  id : Ident
  shape : Option Int
  stops : List Ident
  travelled : List Float
  deriving DecidableEq

structure Pattern where
  shape : Option Int
  stops : List Ident
  deriving DecidableEq

def Trip.pattern (t : Trip) : Pattern := ⟨t.shape, t.stops⟩

/-- The pattern with its stops in their plain forms, which equal patterns share. -/
def Pattern.plain (p : Pattern) : Pattern := ⟨p.shape, p.stops.map Ident.plain⟩

@[simp]
theorem Pattern.plain_plain (p : Pattern) : p.plain.plain = p.plain := by
  simp [Pattern.plain, Function.comp_def]

inductive Reason
  | noShape
  | tooFewStops
  | shapeTooShort
  | missingCoordinates
  deriving DecidableEq, Repr

namespace Reason

def name : Reason → String
  | .noShape => "no_shape"
  | .tooFewStops => "too_few_stops"
  | .shapeTooShort => "shape_too_short"
  | .missingCoordinates => "missing_stop_coordinates"

def all : List Reason := [.missingCoordinates, .noShape, .shapeTooShort, .tooFewStops]

end Reason

/-- Offsets by distance or by place, or the reason why there are none. A stop without coordinates
is named. -/
inductive Finding
  | byDistance (offsets : List Nat)
  | byPlace (offsets : List Int)
  | without (reason : Reason) (stop : Option Ident)
  deriving DecidableEq

/-! ## Networks -/

/-- What trips are matched against. Coordinates are under the plain forms of their stops. -/
structure Network where
  store : ShapeStore
  pass : Pass
  stops : Dictionary Ident Point
  strategy : Strategy

namespace Network

def places (net : Network) : List Ident → Except Ident (List Point)
  | [] => return []
  | stop :: rest =>
    match net.stops.find? stop.plain with
    | none => throw stop
    | some p => do return p :: (← net.places rest)

def findByPlace (net : Network) (shape : Polyline) (stops : List Ident) :
    Except Fault Finding :=
  match net.places stops with
  | .error stop => return .without .missingCoordinates (some stop)
  | .ok places => do
    match ← placedOffsets net.strategy shape places with
    | none => return .without .shapeTooShort none
    | some offsets => return .byPlace offsets

/-- The offsets of a pattern. Distances count if there is one for every stop and the shape has a
gap table. -/
def find (net : Network) (pattern : Pattern) (travelled : List Float) : Except Fault Finding :=
  match pattern.shape with
  | none => return .without .noShape none
  | some index =>
    if pattern.stops.length < 2 then return .without .tooFewStops none
    else
      let gaps := net.pass.gaps index
      -- distances go before places
      if travelled.length = pattern.stops.length ∧ comparable travelled gaps then
        return .byDistance (travelledOffsets travelled gaps)
      else do
        let shape ← net.store.shape (some index)
        -- the number of points comes before the coordinates of the stops
        if shape.length < pattern.stops.length then return .without .shapeTooShort none
        else net.findByPlace shape pattern.stops

end Network

/-! ## The ledger -/

inductive Entry
  | row (index : Nat)
  | without (reason : Reason)
  deriving DecidableEq, Repr

def Entry.row? : Entry → Option Nat
  | .row i => some i
  | .without _ => none

/-- What is registered for a trip, under the identifier that came first. -/
structure Registered where
  trip : Ident
  shape : Option Int
  row : Option Nat
  deriving DecidableEq

/-- Counts of a ledger. `without` has the reason of each trip that got no offsets. -/
structure Counts where
  trips : Nat
  hits : Nat
  byDistance : Nat
  byPlace : Nat
  without : List Reason
  deriving DecidableEq, Repr

def Counts.computations (c : Counts) : Nat := c.byDistance + c.byPlace

/-- Results by pattern, the table of offset lists, the register of trips, and counts. Patterns and
trips have their plain forms. -/
structure Ledger where
  entries : Dictionary Pattern Entry
  table : Array (List Int)
  trips : Dictionary Ident Registered
  counts : Counts
  deriving DecidableEq

/-- What a request has brought: the ledger after it, its result, the finding if one had to be made
for it, and its lines of the journal. -/
structure Answer where
  ledger : Ledger
  result : Except Fault Entry
  found : Option Finding
  lines : List Line

namespace Ledger

def start (table : Array (List Int)) : Ledger :=
  ⟨.empty, table, .empty, ⟨0, 0, 0, 0, []⟩⟩

def enter (l : Ledger) (pattern : Pattern) : Finding → Ledger × Entry
  | .byDistance offsets =>
    let entry := Entry.row l.table.size
    ({ l with
        entries := l.entries.put pattern entry
        table := l.table.push (offsets.map Int.ofNat)
        counts := { l.counts with byDistance := l.counts.byDistance + 1 } }, entry)
  | .byPlace offsets =>
    let entry := Entry.row l.table.size
    ({ l with
        entries := l.entries.put pattern entry
        table := l.table.push offsets
        counts := { l.counts with byPlace := l.counts.byPlace + 1 } }, entry)
  | .without reason _ =>
    let entry := Entry.without reason
    ({ l with entries := l.entries.put pattern entry }, entry)

def findingLines : Finding → List Line
  | .without _ (some stop) => [.debug ("No coordinates for stop " ++ stop.quoted)]
  | _ => []

/-- The result for a pattern, which is found only once. -/
def resolve (net : Network) (l : Ledger) (pattern : Pattern) (travelled : List Float) : Answer :=
  match l.entries.find? pattern.plain with
  | some entry =>
    ⟨{ l with counts := { l.counts with hits := l.counts.hits + 1 } }, .ok entry, none, []⟩
  | none =>
    match net.find pattern travelled with
    -- a fault leaves no entry behind
    | .error fault => ⟨l, .error fault, none, []⟩
    | .ok finding =>
      let (l, entry) := l.enter pattern.plain finding
      ⟨l, .ok entry, some finding, findingLines finding⟩

def registered? (l : Ledger) (trip : Ident) : Option Registered :=
  l.trips.find? trip.plain

def register (l : Ledger) (trip : Trip) (entry : Entry) : Ledger :=
  -- a trip that comes again keeps the form of its identifier
  let first := ((l.registered? trip.id).map (·.trip)).getD trip.id
  { l with
    trips := l.trips.put trip.id.plain ⟨first, trip.shape, entry.row?⟩
    counts :=
      { l.counts with
        trips := l.counts.trips + 1
        without :=
          match entry with
          | .row _ => l.counts.without
          | .without reason => reason :: l.counts.without } }

def registerLines (trip : Trip) : Entry → List Line
  | .row _ => []
  | .without reason =>
    [.debug ("Trip " ++ trip.id.shown ++ " has no usable shape (" ++ reason.name ++ ")")]

def assign (net : Network) (l : Ledger) (trip : Trip) : Answer :=
  let answer := l.resolve net trip.pattern trip.travelled
  match answer.result with
  | .error fault => ⟨answer.ledger, .error fault, answer.found, answer.lines⟩
  | .ok entry =>
    ⟨answer.ledger.register trip entry, .ok entry, answer.found,
      answer.lines ++ registerLines trip entry⟩

/-! ## Requests -/

inductive Request
  | resolve (pattern : Pattern) (travelled : List Float)
  | assign (trip : Trip)
  deriving DecidableEq

def answer (net : Network) (l : Ledger) : Request → Answer
  | .resolve pattern travelled => l.resolve net pattern travelled
  | .assign trip => l.assign net trip

/-! ## Reading -/

def shape? (l : Ledger) (trip : Ident) : Option Int :=
  (l.registered? trip).bind (·.shape)

def offsets? (l : Ledger) (trip : Ident) : Option (List Int) :=
  ((l.registered? trip).bind (·.row)).bind (l.table[·]?)

def row (l : Ledger) (i : Int) : Except Fault (List Int) :=
  match Span.at? l.table i with
  | some offsets => return offsets
  | none => throw (if Span.isWord i then .tableIndex else .indexRange)

/-- The points of a trip's shape, none if the trip has no offsets. -/
def polyline (l : Ledger) (store : ShapeStore) (trip : Ident) : Except Fault Polyline :=
  store.shape (if (l.offsets? trip).isSome then l.shape? trip else none)

end Ledger

end StopAlign
