/-!
# Travelled — matching stops by the distance travelled

- `gapTable`        : the distances half way between consecutive points of a shape
- `lowerBound`      : binary search from a position on
- `travelledOffsets` : the offset of each stop
- `comparable`      : whether a trip and a shape both carry distances

Gap `k` lies between the points `k` and `k + 1`. A stop belongs to the point before the first gap
that is not below its own distance, so to the nearer one of the two points around the gap. The
search position carries over from stop to stop.
-/

namespace StopAlign

section Gaps

variable {α : Type} [Add α] [Div α] [OfNat α 0] [OfNat α 2] [LT α] [DecidableLT α]

def midpoints (ds : List α) : List α :=
  List.zipWith (fun a b => (a + b) / 2) ds ds.tail

/-- The gap table of a shape. Without a positive entry there are no distances to go by, and the
table is empty. -/
def gapTable (ds : List α) : List α :=
  let gaps := midpoints ds
  if gaps.any fun gap => decide (0 < gap) then gaps else []

end Gaps

theorem length_midpoints {α : Type} [Add α] [Div α] [OfNat α 2] (ds : List α) :
    (midpoints ds).length = ds.length - 1 := by
  simp [midpoints]

section Search

/-- Binary search between two positions for the first one that is not below. The fuel bounds the
number of steps. -/
def search (below : Nat → Bool) : Nat → Nat → Nat → Nat
  | 0, low, _ => low
  | fuel + 1, low, high =>
    if low < high then
      let middle := (low + high) / 2
      if below middle then search below fuel (middle + 1) high else search below fuel low middle
    else low

variable {α : Type} [LT α] [DecidableLT α]

/-- The first position from `low` on whose gap is not below `x`, or the number of gaps. -/
def lowerBound (gaps : List α) (x : α) (low : Nat) : Nat :=
  search (fun i => gaps[i]?.any fun gap => decide (gap < x)) gaps.length low gaps.length

def offsetsFrom (gaps : List α) (position : Nat) : List α → List Nat
  | [] => []
  | x :: rest =>
    -- the search never goes back
    let next := lowerBound gaps x position
    next :: offsetsFrom gaps next rest

def travelledOffsets (stops gaps : List α) : List Nat :=
  offsetsFrom gaps 0 stops

theorem length_offsetsFrom (gaps : List α) (position : Nat) (stops : List α) :
    (offsetsFrom gaps position stops).length = stops.length := by
  induction stops generalizing position with
  | nil => rfl
  | cons x rest ih => simp [offsetsFrom, ih]

end Search

/-- Whether a trip and a shape both carry distances. -/
def comparable {α : Type} (stops gaps : List α) : Bool :=
  !stops.isEmpty && !gaps.isEmpty

end StopAlign
