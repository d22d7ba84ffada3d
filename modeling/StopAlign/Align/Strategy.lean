import StopAlign.Align.Division

/-!
# Strategy — the two ways to match stops by their places

- `Strategy`, `Strategy.ofName` : the strategies and their names
- `placedOffsets`               : the offsets of stops on a shape that has a point for each of them
-/

namespace StopAlign

inductive Strategy
  | greedy
  | division
  deriving DecidableEq, Repr

namespace Strategy

def name : Strategy → String
  | .greedy => "best_fit_linear"
  | .division => "minimal_distance_global"

def ofName (name : String) : Except Fault Strategy :=
  if name = Strategy.greedy.name then .ok .greedy
  else if name = Strategy.division.name then .ok .division
  else .error (.unknownAlgorithm name)

def offsets : Strategy → Polyline → List Point → Except Fault (List Int)
  | .greedy => greedyOffsets
  | .division => divisionOffsets

end Strategy

/-- The offsets of at least two stops on a shape that has a point for each of them. -/
def placedOffsets (strategy : Strategy) (shape : Polyline) (stops : List Point) :
    Except Fault (Option (List Int)) :=
  if stops.length < 2 ∨ shape.length < stops.length then return none
  else some <$> strategy.offsets shape stops

end StopAlign
