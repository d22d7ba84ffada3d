import StopAlign.Fault
import StopAlign.Journal
import StopAlign.Number.Fixed

/-!
# Progress — a line of the journal every so many items

- `Meter`       : label, expected total and interval of a count
- `Meter.new`   : a meter with a positive interval
- `Meter.lines` : what a count brings to the journal
- `Meter.observe` : the same for any count, of which one beyond the doubles has no percentage

A line comes with every multiple of the interval and with the total. With a total it tells the
percentage, with one place.
-/

namespace StopAlign

open Number

structure Meter where
  label : String
  total : Option Int
  every : Int

namespace Meter

/-- A meter; its interval has to be positive. -/
def new (label : String) (total : Option Int) (every : Int) : Except Fault Meter :=
  if every < 1 then .error (.interval every) else .ok ⟨label, total, every⟩

def percentage (done total : Int) : Float :=
  100.0 * ofInteger done / ofInteger total

def text (m : Meter) (done : Int) : String :=
  let front := m.label ++ ": " ++ toString done
  match m.total with
  | none | some 0 => front
  | some total =>
    front ++ " / " ++ toString total ++ " (" ++ writeFixed 1 (percentage done total) ++ "%)"

/-- Whether a count brings a line. -/
def isDue (m : Meter) (done : Int) : Bool :=
  done % m.every = 0 ∨ m.total = some done

def lines (m : Meter) (done : Int) : List Line :=
  if m.isDue done then [.info (m.text done)] else []

/-- Whether the percentage of a count cannot be told. -/
def isBeyond (m : Meter) (done : Int) : Bool :=
  match m.total with
  | none | some 0 => false
  | some total => (ofInteger done).isInf || (ofInteger total).isInf

def observe (m : Meter) (done : Int) : Except Fault (List Line) :=
  if m.isDue done && m.isBeyond done then throw .hugeInteger else return m.lines done

end Meter

end StopAlign
