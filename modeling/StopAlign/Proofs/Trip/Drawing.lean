import StopAlign.Proofs.Job
import StopAlign.Proofs.Trip.Lines
import StopAlign.Proofs.Trip.Segments

/-!
# Drawing — the lines of trips run from stop to stop

- `two_le_of_segments`     : a piece of a shape has two points or more
- `writeSegments_ne_onePointLine` : so no line has a single one
- `Drawn`                  : one line for each stop but the first one, from stop to stop
- `drawn_of_segments`      : the lines of the pieces of a shape
- `Located`, `RowLines`    : the lines of a trip, if it has offsets and all of its stops have places
- `matchedSegments_blocks` : the lines of all trips are those of each trip, one after the other
-/

namespace StopAlign

open Outcome Polyline

/-! ## Pieces -/

/-- A piece has the two stops that it runs between. -/
theorem two_le_of_mem_pieces {shape : Polyline} {after : Nat} {cuts : List Cut}
    {stops : List Point} {piece : Polyline} (h : piece ∈ pieces shape after cuts stops) :
    2 ≤ piece.length := by
  fun_induction pieces shape after cuts stops with
  | case1 after cut cuts a b stops ih =>
    rcases List.mem_cons.mp h with rfl | later
    · simp
    · exact ih later
  | case2 after a b =>
    cases List.mem_singleton.mp h
    simp
  | case3 => cases h

theorem two_le_of_segments {shape : Polyline} {stops : List Point} {found : List Polyline}
    (h : segments shape stops = .ok found) : ∀ piece ∈ found, 2 ≤ piece.length := by
  unfold segments at h
  split at h
  · cases h
    intro piece member
    cases member
  · rcases bind_eq_ok.mp h with ⟨_, -, last⟩
    cases last
    exact fun _ member => two_le_of_mem_pieces member

/-! ## Lines -/

/-- The lines of pieces of two points or more are numbered in their order. -/
theorem linesOf_eq_ok (trip : Ident) {pieces : List Polyline}
    (long : ∀ piece ∈ pieces, 2 ≤ piece.length) :
    linesOf trip pieces = .ok (pieces.zipIdx.map fun piece => ⟨trip, piece.2, piece.1⟩) := by
  apply mapM_of_forall₂
  rw [List.forall₂_map_right_iff, List.forall₂_same]
  rintro ⟨points, index⟩ member
  have two := long points (List.fst_mem_of_mem_zipIdx member)
  simp only
  rw [if_neg (by omega)]
  rfl

theorem Arrays.shape_eq_error {α : Type} {a : Arrays α} {index : Option Int} {fault : Fault}
    (h : a.shape index = .error fault) : ∃ i, fault = .shapeIndex i a.size := by
  unfold shape at h
  split at h
  · cases h
  · split at h
    · split at h
      · cases h
        exact ⟨_, rfl⟩
      · cases h
    · cases h
      exact ⟨_, rfl⟩

/-- Drawing the lines of a trip never comes upon a line of one point. -/
theorem matchedLines_ne_onePointLine (net : Network) (l : Ledger) (t : Trip) :
    matchedLines net l t ≠ .error .onePointLine := by
  intro failed
  rcases bind_eq_error.mp failed with undrawn | ⟨shape, -, failed⟩
  · rcases Arrays.shape_eq_error undrawn with ⟨_, other⟩
    cases other
  · split at failed
    · cases failed
    · cases failed
    · rcases bind_eq_error.mp failed with cutting | ⟨pieces, cut, drawing⟩
      · cases (segments_error cutting).1
      · cases (linesOf_eq_ok t.id (two_le_of_segments cut)).symm.trans drawing

theorem matchedSegments_ne_onePointLine (net : Network) (l : Ledger) (trips : List Trip) :
    matchedSegments net l trips ≠ .error .onePointLine := by
  intro failed
  rcases bind_eq_error.mp failed with failed | ⟨_, -, last⟩
  · rcases mapM_eq_error failed with ⟨t, -, failed⟩
    exact matchedLines_ne_onePointLine net l t failed
  · cases last

/-- Nor does writing the layer. -/
theorem writeSegments_ne_onePointLine (s : Settings) (net : Network) (l : Ledger)
    (trips : List Trip) (e f : Effects) :
    (writeSegments s net l trips).run.run e ≠ (.error .onePointLine, f) := by
  intro failed
  rcases Job.run_bind_eq_error.mp failed with drawing | ⟨lines, e₁, -, failed⟩
  · exact matchedSegments_ne_onePointLine net l trips (Prod.mk.inj drawing).1
  by_cases none : lines.isEmpty = true
  · simp only [if_pos none] at failed
    cases failed
  · simp only [if_neg none] at failed
    rcases Job.run_bind_eq_error.mp failed with writing | ⟨_, _, -, last⟩
    · have failed := (Job.run_onDisk_eq_error.mp writing).1
      unfold writeLayer at failed
      split at failed
      · cases failed
      · split at failed <;> cases failed
    · cases last

/-! ## From stop to stop -/

/-- A place as the layer has it, longitude first. -/
def Point.coordinate (p : Point) : Float × Float := (p.lon, p.lat)

def TripLine.coordinates (line : TripLine) : List (Float × Float) :=
  line.points.map Point.coordinate

/-- Where a stop of a trip is, if that is known. -/
def stopAt? (stops : Dictionary Ident Point) (t : Trip) (k : Nat) : Option (Float × Float) :=
  (t.stops[k]?).bind fun stop => (stops.find? stop.plain).map Point.coordinate

/-- One line for each stop of a trip but the first one, numbered from zero on, from each stop to the
next one. -/
structure Drawn (stops : Dictionary Ident Point) (t : Trip) (lines : List TripLine) : Prop where
  two : 2 ≤ t.stops.length
  count : lines.length = t.stops.length - 1
  numbered : ∀ (k : Nat) line, lines[k]? = some line → line.trip = t.id ∧ line.index = k
  ends : ∀ (k : Nat) line, lines[k]? = some line → ∃ a b, stopAt? stops t k = some a ∧
    stopAt? stops t (k + 1) = some b ∧ line.coordinates.head? = some a ∧
      line.coordinates.getLast? = some b
  joined : ∀ (k : Nat) line next, lines[k]? = some line → lines[k + 1]? = some next →
    line.coordinates.getLast? = next.coordinates.head?
  long : ∀ line ∈ lines, 2 ≤ line.coordinates.length

section Places

variable {net : Network}

theorem Network.getElem?_places {stops : List Ident} {places : List Point}
    (h : net.places stops = .ok places) (k : Nat) :
    places[k]? = (stops[k]?).bind fun stop => net.stops.find? stop.plain := by
  induction stops generalizing places k with
  | nil =>
    cases h
    rfl
  | cons stop stops ih =>
    unfold Network.places at h
    cases found : net.stops.find? stop.plain with
    | none =>
      rw [found] at h
      cases h
    | some p =>
      rw [found] at h
      rcases bind_eq_ok.mp h with ⟨rest, later, last⟩
      cases last
      cases k with
      | zero => exact found.symm
      | succ k => exact ih later k

theorem Network.places_isOk_iff {stops : List Ident} :
    (∃ places, net.places stops = .ok places) ↔
      ∀ stop ∈ stops, (net.stops.find? stop.plain).isSome = true := by
  induction stops with
  | nil =>
    constructor
    · intro _ stop member
      cases member
    · intro _
      exact ⟨[], rfl⟩
  | cons stop stops ih =>
    unfold Network.places
    rw [List.forall_mem_cons, ← ih]
    cases net.stops.find? stop.plain with
    | none =>
      constructor
      · rintro ⟨_, h⟩
        cases h
      · rintro ⟨h, -⟩
        cases h
    | some p =>
      constructor
      · rintro ⟨_, h⟩
        rcases bind_eq_ok.mp h with ⟨rest, later, -⟩
        exact ⟨rfl, rest, later⟩
      · rintro ⟨-, rest, later⟩
        exact ⟨p :: rest, bind_eq_ok.mpr ⟨rest, later, rfl⟩⟩

end Places

theorem tiles_of_segments {shape : Polyline} {stops : List Point} {found : List Polyline}
    (two : 2 ≤ stops.length) (h : segments shape stops = .ok found) :
    Tiles stops (shape.dropLast.drop 1) found := by
  unfold segments at h
  rw [if_neg (by omega)] at h
  rcases bind_eq_ok.mp h with ⟨cs, cut, last⟩
  cases last
  rcases cuts_eq_ok cut with ⟨count, ahead, inside⟩
  refine pieces_tile shape ?_ ahead inside
  rw [count, List.length_dropLast, List.length_tail]
  omega

/-- The lines of the pieces of a shape run from stop to stop. -/
theorem drawn_of_segments {net : Network} {t : Trip} {shape : Polyline} {places : List Point}
    {found : List Polyline} (two : 2 ≤ t.stops.length) (placed : net.places t.stops = .ok places)
    (cut : segments shape places = .ok found) :
    Drawn net.stops t (found.zipIdx.map fun piece => ⟨t.id, piece.2, piece.1⟩) := by
  have all := Network.length_places placed
  have tiles := tiles_of_segments (by omega) cut
  have each : ∀ (k : Nat) line,
      (found.zipIdx.map fun piece => (⟨t.id, piece.2, piece.1⟩ : TripLine))[k]? = some line →
        ∃ piece, found[k]? = some piece ∧ line = ⟨t.id, k, piece⟩ := by
    intro k line here
    rw [List.getElem?_map, List.getElem?_zipIdx, Option.map_map] at here
    rcases Option.map_eq_some_iff.mp here with ⟨piece, found, rfl⟩
    exact ⟨piece, found, by simp⟩
  have known : ∀ (k : Nat) p, places[k]? = some p → stopAt? net.stops t k = some p.coordinate := by
    intro k p here
    rw [Network.getElem?_places placed] at here
    rcases Option.bind_eq_some_iff.mp here with ⟨stop, member, place⟩
    simp [stopAt?, member, place]
  have ends : ∀ (k : Nat) line,
      (found.zipIdx.map fun piece => (⟨t.id, piece.2, piece.1⟩ : TripLine))[k]? = some line →
        ∃ a b, stopAt? net.stops t k = some a ∧ stopAt? net.stops t (k + 1) = some b ∧
          line.coordinates.head? = some a ∧ line.coordinates.getLast? = some b := by
    intro k line here
    rcases each k line here with ⟨piece, found, rfl⟩
    rcases tiles.ends k piece found with ⟨a, b, mid, first, second, rfl⟩
    refine ⟨a.coordinate, b.coordinate, known k a first, known (k + 1) b second, rfl, ?_⟩
    simp only [TripLine.coordinates, List.map_cons, List.map_append, List.map_nil]
    rw [← List.cons_append, List.getLast?_concat]
  refine
    { two := two
      count := ?_
      numbered := ?_
      ends := ends
      joined := ?_
      long := ?_ }
  · have count := tiles.count
    rw [List.length_map, List.length_zipIdx]
    omega
  · intro k line here
    rcases each k line here with ⟨piece, -, rfl⟩
    exact ⟨rfl, rfl⟩
  · -- both are at the stop between them
    intro k line next here there
    rcases ends k line here with ⟨-, b, -, stop, -, last⟩
    rcases ends (k + 1) next there with ⟨a, -, stop', -, first, -⟩
    rw [last, first, ← stop, ← stop']
  · intro line member
    rcases List.mem_map.mp member with ⟨piece, among, rfl⟩
    have two := two_le_of_segments cut piece.1 (List.fst_mem_of_mem_zipIdx among)
    rwa [TripLine.coordinates, List.length_map]

/-! ## Trips -/

/-- A trip that has offsets, and stops that all have places. -/
def Drawable (stops : Dictionary Ident Point) (l : Ledger) (t : Trip) : Prop :=
  (l.offsets? t.id).isSome = true ∧ ∀ stop ∈ t.stops, (stops.find? stop.plain).isSome = true

/-- The lines of a trip, or none at all. -/
structure RowLines (stops : Dictionary Ident Point) (l : Ledger) (t : Trip)
    (lines : List TripLine) : Prop where
  drawn : Drawable stops l t → Drawn stops t lines
  skipped : ¬Drawable stops l t → lines = []

section Trips

variable {net : Network} {l : Ledger}

theorem rowLines_of_matchedLines {t : Trip} {lines : List TripLine}
    (matched : (l.offsets? t.id).isSome = true → 2 ≤ t.stops.length ∧
      ∃ shape, l.polyline net.store t.id = .ok shape ∧ shape ≠ [])
    (h : matchedLines net l t = .ok lines) : RowLines net.stops l t lines := by
  rcases bind_eq_ok.mp h with ⟨shape, points, h⟩
  constructor
  · rintro ⟨offsets, located⟩
    rcases matched offsets with ⟨two, shape', points', filled⟩
    cases points.symm.trans points'
    rcases Network.places_isOk_iff.mpr located with ⟨places, placed⟩
    rw [placed] at h
    split at h
    · exact absurd rfl filled
    · rename_i same
      cases same
    · rename_i same
      cases same
      rcases bind_eq_ok.mp h with ⟨found, cut, drawing⟩
      rw [linesOf_eq_ok t.id (two_le_of_segments cut)] at drawing
      cases drawing
      exact drawn_of_segments two placed cut
  · intro undrawable
    by_cases offsets : (l.offsets? t.id).isSome = true
    · -- then some stop has no place
      have nowhere : ¬∃ places, net.places t.stops = .ok places := fun placed =>
        undrawable ⟨offsets, Network.places_isOk_iff.mp placed⟩
      split at h
      · cases h
        rfl
      · cases h
        rfl
      · rename_i places _ placed
        exact absurd ⟨places, placed⟩ nowhere
    · rw [Ledger.polyline, if_neg offsets] at points
      cases points
      cases h
      rfl

/-- The lines of all trips are those of each trip, one after the other. -/
theorem matchedSegments_blocks {trips : List Trip} {lines : List TripLine}
    (h : matchedSegments net l trips = .ok lines) :
    ∃ blocks, lines = blocks.flatten ∧
      List.Forall₂ (fun t block => matchedLines net l t = .ok block) trips blocks := by
  rcases bind_eq_ok.mp h with ⟨blocks, each, last⟩
  cases last
  exact ⟨blocks, rfl, mapM_eq_ok each⟩

end Trips

end StopAlign
