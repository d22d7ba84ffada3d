import StopAlign.Proofs.Geo.Nearest

/-!
# Scan — the nearest segment, found in one pass from infinity

- `readAt`            : a member of a list, where an index beyond it is a fault
- `scan`, `scan_eq`   : one pass over the indices of a line that begins with an infinite distance
- `scannedPoint_eq`   : the closest point, with the ends of the segment read again by index
- `nearest_scan`      : what the pass finds, and which end of it is answered

A pass that begins with infinity finds a segment only if the distance of some segment is below it.
Every distance is, because the haversine root is cut back to one before its angle is taken, also
where it is no number.
-/

namespace StopAlign

open Outcome Number

/-! ## Reading by index -/

/-- The member of a list at an index. -/
def readAt {α : Type} (xs : List α) (i : Nat) : Except Fault α :=
  match xs[i]? with
  | some x => .ok x
  | none => .error .tableIndex

theorem readAt_eq_ok {α : Type} {xs : List α} {i : Nat} {x : α} (h : xs[i]? = some x) :
    readAt xs i = .ok x := by
  unfold readAt
  rw [h]

namespace Polyline

/-! ## One pass -/

/-- What a pass has found so far: the index of a segment, its distance and its point. -/
structure Sighting where
  index : Nat
  distance : Float
  point : Point

def Sighting.orNearer (best other : Sighting) : Sighting :=
  if other.distance < best.distance then other else best

def Projection.sighting (q : Projection) : Sighting := ⟨q.leg.index, q.distance, q.point⟩

/-- Look at the segment that starts at an index. -/
def look (p : Point) (points : Polyline) (best : Sighting) (i : Nat) : Except Fault Sighting := do
  let a ← readAt points i
  let b ← readAt points (i + 1)
  let point ← closestPointOn p a b
  let distance ← greatCircle p point
  return best.orNearer ⟨i, distance, point⟩

/-- Look at all segments in their order. Nothing has been found in front of the first one. -/
def scan (p : Point) (points : Polyline) : Except Fault Sighting := do
  if points.length < 2 then throw (.shortPolyline points.length)
  let first ← readAt points 0
  (List.range (points.length - 1)).foldlM (look p points) ⟨0, positiveInfinity, first⟩

/-- The closest point of a line after such a pass, which reads the ends of the segment again. -/
def scannedPoint (p : Point) (points : Polyline) : Except Fault Fit := do
  if points.length < 2 then return ⟨0, 0⟩
  let best ← scan p points
  let start ← readAt points best.index
  let finish ← readAt points (best.index + 1)
  let toStart ← greatCircle p start
  let toFinish ← greatCircle p finish
  if toStart ≤ toFinish then return ⟨best.index, best.distance⟩
  return ⟨best.index + 1, best.distance⟩

theorem look_eq {p : Point} {points : Polyline} {i : Nat} {a b : Point} (here : points[i]? = some a)
    (next : points[i + 1]? = some b) (best : Sighting) :
    look p points best i =
      (Leg.project p ⟨i, a, b⟩).map fun q => best.orNearer q.sighting := by
  unfold look Leg.project
  rw [readAt_eq_ok here, readAt_eq_ok next]
  show (closestPointOn p a b >>= _) = (closestPointOn p a b >>= _).map _
  cases closestPointOn p a b with
  | error fault => rfl
  | ok point =>
    show (greatCircle p point >>= _) = (greatCircle p point >>= _).map _
    cases greatCircle p point with
    | error fault => rfl
    | ok distance => rfl

/-- From any index on, a pass measures the segments and keeps the nearest one. -/
theorem foldlM_look {p : Point} {points rest : Polyline} {k : Nat}
    (behind : ∀ i, points[k + i]? = rest[i]?) (best : Sighting) :
    (List.range' k (rest.length - 1)).foldlM (look p points) best =
      ((legsFrom k rest).mapM (Leg.project p)).map fun projections =>
        (projections.map Projection.sighting).foldl Sighting.orNearer best := by
  induction rest generalizing k best with
  | nil => rfl
  | cons a tail ih =>
    cases tail with
    | nil => rfl
    | cons b rest =>
      have next : ∀ i, points[k + 1 + i]? = (b :: rest)[i]? := by
        intro i
        rw [Nat.add_right_comm]
        exact behind (i + 1)
      have later := fun best => ih next best
      have here : points[k]? = some a := behind 0
      have count : (a :: b :: rest).length - 1 = ((b :: rest).length - 1) + 1 := rfl
      rw [count, List.range'_succ, List.foldlM_cons, look_eq here (behind 1), legsFrom,
        List.mapM_cons]
      cases Leg.project p ⟨k, a, b⟩ with
      | error fault => rfl
      | ok q =>
        refine (later _).trans ?_
        show _ = (List.mapM (Leg.project p) (legsFrom (k + 1) (b :: rest)) >>= _).map _
        cases List.mapM (Leg.project p) (legsFrom (k + 1) (b :: rest)) with
        | error fault => rfl
        | ok projections => rfl

theorem foldl_orNearer (first : Projection) (others : List Projection) :
    (others.map Projection.sighting).foldl Sighting.orNearer first.sighting =
      (others.foldl Projection.nearer first).sighting := by
  have each : ∀ best q : Projection, best.sighting.orNearer q.sighting =
      (best.nearer q).sighting := by
    intro best q
    unfold Sighting.orNearer Projection.nearer
    exact (apply_ite Projection.sighting _ _ _).symm
  rw [List.foldl_map]
  exact List.foldl_hom Projection.sighting each

/-- The pass finds the nearest segment, and fails where measuring fails. -/
theorem scan_eq (p : Point) (points : Polyline) :
    scan p points = (nearest p points).map Projection.sighting := by
  unfold scan nearest
  match points with
  | [] => rfl
  | [a] => rfl
  | a :: b :: rest =>
    show (List.range ((a :: b :: rest).length - 1)).foldlM (look p (a :: b :: rest))
      ⟨0, positiveInfinity, a⟩ = _
    rw [List.range_eq_range', foldlM_look (k := 0) fun i => by rw [Nat.zero_add]]
    show (List.mapM (Leg.project p) (legs (a :: b :: rest))).map _ =
      (List.mapM (Leg.project p) (legs (a :: b :: rest)) >>= _).map _
    cases all : List.mapM (Leg.project p) (legs (a :: b :: rest)) with
    | error fault => rfl
    | ok projections =>
      cases projections with
      | nil => cases (mapM_eq_ok all).length_eq
      | cons first others =>
        -- the first segment replaces the beginning, since its distance is finite
        rcases mem_of_mapM all List.mem_cons_self with ⟨leg, -, projected⟩
        have finite := (greatCircle_bounds (project_eq_ok.mp projected).2.2).2
        have begin : Sighting.orNearer ⟨0, positiveInfinity, a⟩ first.sighting = first.sighting :=
          if_pos finite
        show Except.ok (((first :: others).map Projection.sighting).foldl Sighting.orNearer _) =
          Except.ok (others.foldl Projection.nearer first).sighting
        rw [List.map_cons, List.foldl_cons, begin, foldl_orNearer]

theorem scannedPoint_eq (p : Point) (points : Polyline) :
    scannedPoint p points = closestPoint p points := by
  unfold scannedPoint closestPoint
  by_cases short : points.length < 2
  · rw [if_pos short, if_pos short]
  rw [if_neg short, if_neg short, scan_eq]
  show ((nearest p points).map Projection.sighting >>= _) = (nearest p points >>= _)
  cases near : nearest p points with
  | error fault => rfl
  | ok best =>
    rcases mem_legs.mp (nearest_eq_ok.mp near).mem with ⟨start, finish⟩
    show (readAt points best.leg.index >>= _) = _
    rw [readAt_eq_ok start]
    show (readAt points (best.leg.index + 1) >>= _) = _
    rw [readAt_eq_ok finish]
    rfl

/-! ## What the pass finds -/

/-- A segment of least distance, the first one of several, with its own distance and point. -/
structure Sighted (p : Point) (points : Polyline) (best : Sighting) : Prop where
  /-- The point and the distance are those of the segment. -/
  own : ∃ a b, points[best.index]? = some a ∧ points[best.index + 1]? = some b ∧
    closestPointOn p a b = .ok best.point ∧ greatCircle p best.point = .ok best.distance
  /-- The distance is a finite number. -/
  finite : 0 ≤ best.distance ∧ best.distance < positiveInfinity
  /-- It is below that of every segment before, and not above that of any segment behind. -/
  least : ∀ j a b, points[j]? = some a → points[j + 1]? = some b → ∃ point distance,
    closestPointOn p a b = .ok point ∧ greatCircle p point = .ok distance ∧
      (j < best.index → best.distance < distance) ∧ (best.index < j → best.distance ≤ distance)

theorem sighted_of_nearest {p : Point} {points : Polyline} {best : Projection}
    (h : nearest p points = .ok best) : Sighted p points best.sighting := by
  have near := nearest_eq_ok.mp h
  rcases mem_legs.mp near.mem with ⟨start, finish⟩
  rcases project_eq_ok.mp near.projected with ⟨-, closest, far⟩
  refine ⟨⟨_, _, start, finish, closest, far⟩, greatCircle_bounds far, ?_⟩
  intro j a b here next
  rcases near.least ⟨j, a, b⟩ (mem_legs.mpr ⟨here, next⟩) with ⟨other, projected, le, first⟩
  rcases project_eq_ok.mp projected with ⟨-, closest', far'⟩
  exact ⟨_, _, closest', far', first, fun _ => le⟩

/-- On a line of two points or more whose segments can be measured, the pass finds the first segment
of least distance. The closest point is the end of this segment that is closer, its start if both are
equally close, and has the distance of the segment. -/
theorem nearest_scan (p : Point) {points : Polyline} (two : 2 ≤ points.length)
    (measured : ∀ leg ∈ legs points, ∃ q, leg.project p = .ok q) :
    ∃ best, nearest p points = .ok best ∧ scan p points = .ok best.sighting ∧
      Sighted p points best.sighting ∧
      ∀ toStart toFinish, greatCircle p best.leg.start = .ok toStart →
        greatCircle p best.leg.finish = .ok toFinish → ∃ offset : Nat,
          offset = (if toStart ≤ toFinish then best.leg.index else best.leg.index + 1) ∧
          offset < points.length ∧
          closestPoint p points = .ok ⟨offset, best.distance⟩ ∧
          scannedPoint p points = .ok ⟨offset, best.distance⟩ := by
  rcases exists_nearest two measured with ⟨best, near⟩
  have found : scan p points = .ok best.sighting := by
    rw [scan_eq, near]
    rfl
  refine ⟨best, near, found, sighted_of_nearest near, fun toStart toFinish start finish => ?_⟩
  have last := (List.getElem?_eq_some_iff.mp (mem_legs.mp (nearest_eq_ok.mp near).mem).2).1
  have closest := (closestPoint_eq_ok two).mpr
    ⟨best, toStart, toFinish, near, start, finish, rfl⟩
  rw [scannedPoint_eq]
  split_ifs at closest ⊢
  · exact ⟨_, rfl, by omega, closest, closest⟩
  · exact ⟨_, rfl, last, closest, closest⟩

/-- A line that ends at no place. -/
def openEnded : Polyline := [⟨0, 0⟩, ⟨0, 0.001⟩, ⟨0, 0.002⟩, ⟨notANumber, 0⟩]

/-- Its second point, which is on two segments. -/
def joint : Point := ⟨0, 0.001⟩

/-- The first of the two segments is the nearest one, and its end the closest point. -/
theorem nearest_scan_joint :
    2 ≤ openEnded.length ∧ (∀ leg ∈ legs openEnded, ∃ q, leg.project joint = .ok q) ∧
      (∃ best, nearest joint openEnded = .ok best ∧ scan joint openEnded = .ok best.sighting ∧
        Sighted joint openEnded best.sighting ∧ best.leg.index = 0) ∧
      (closestPoint joint openEnded).toOption.map (·.offset) = some 1 := by
  have measured : ∀ leg ∈ legs openEnded, ∃ q, leg.project joint = .ok q := by
    have calm : ∀ leg ∈ legs openEnded, (leg.project joint).toOption.isSome = true := by
      decide +kernel
    intro leg member
    have projected := calm leg member
    cases h : leg.project joint with
    | error fault =>
      rw [h] at projected
      cases projected
    | ok q => exact ⟨q, rfl⟩
  refine ⟨by decide, measured, ?_, by decide +kernel⟩
  rcases nearest_scan joint (by decide) measured with ⟨best, near, found, sighted, -⟩
  have first : (nearest joint openEnded).toOption.map (·.leg.index) = some 0 := by decide +kernel
  rw [near] at first
  exact ⟨best, near, found, sighted, Option.some.inj first⟩

end Polyline

end StopAlign
