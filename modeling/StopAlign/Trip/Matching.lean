import StopAlign.Trip.Ledger

/-!
# Matching — one pass over all trips

- `Matching`, `Matching.step` : how far the pass has come; one more trip
- `matchTrips`                : the whole pass, up to the first fault
- `Ledger.summary`            : the closing lines of the journal
-/

namespace StopAlign

/-- How far a pass has come: the ledger, the lines of the journal, the number of trips and the fault
that has ended it. -/
structure Matching where
  ledger : Ledger
  lines : Array Line
  done : Nat
  fault : Option Fault

def Ledger.summary (l : Ledger) : List Line :=
  let c := l.counts
  let resolved : Line :=
    .info ("Resolved " ++ toString c.trips ++ " trips: " ++ toString l.table.size
      ++ " offset lists (" ++ toString c.byDistance ++ " by distance, " ++ toString c.byPlace
      ++ " geometric), " ++ toString c.hits ++ " cache hits")
  if c.without.isEmpty then [resolved]
  else
    let seen := Reason.all.filter c.without.contains
    let shares := seen.map fun r => r.name ++ ": " ++ toString (c.without.count r)
    [resolved, .warning (toString c.without.length ++ " of " ++ toString c.trips
      ++ " trips have no usable shape (" ++ ", ".intercalate shares ++ ")")]

namespace Matching

/-- Match one more trip, unless a fault has ended the pass. -/
def step (net : Network) (meter : Nat → List Line) (m : Matching) (trip : Trip) : Matching :=
  if m.fault.isSome then m
  else
    let answer := m.ledger.assign net trip
    match answer.result with
    -- the ledger of a failed trip is the one before it
    | .error fault => { m with lines := m.lines ++ answer.lines, fault := some fault }
    | .ok _ =>
      { m with
        ledger := answer.ledger
        lines := m.lines ++ answer.lines ++ meter (m.done + 1)
        done := m.done + 1 }

def journal (m : Matching) : List Line :=
  match m.fault with
  | some _ => m.lines.toList
  | none => m.lines.toList ++ m.ledger.summary

def outcome (m : Matching) : Except Fault Ledger :=
  match m.fault with
  | some fault => throw fault
  | none => return m.ledger

end Matching

def matchTrips (net : Network) (meter : Nat → List Line) (trips : List Trip) : Matching :=
  trips.foldl (Matching.step net meter) ⟨.start #[], #[], 0, none⟩

end StopAlign
