import StopAlign.Proofs.Job
import StopAlign.Proofs.Shape.Renumbering
import StopAlign.Proofs.Trip.Fitting
import StopAlign.Shape.Table

/-!
# Stages — a run in two parts

- `Matched`            : what a run has before it writes anything
- `matching`, `ending` : the part of a run up to there, and the part from there on, which is
  `writeOffsetTable`, `exporting` and `keeping`
- `align_eq`           : a run is the one part and then the other
- `Reached`, `matching_quiet` : the first part leaves the disk alone, and each of its steps has
  returned if it returns
- `align_exports`, `align_eq_ok` : a run that returns has written what it was asked for, and brings
  what it has matched
-/

namespace StopAlign

open Outcome

/-- What a run has before it writes anything. -/
structure Matched where
  pass : Pass
  store : ShapeStore
  stops : Dictionary Ident Point
  trips : List Trip
  ledger : Ledger

/-- The shapes, stops and strategy that the trips were matched with. -/
def Matched.net (m : Matched) (s : Settings) : Network := ⟨m.store, m.pass, m.stops, s.strategy⟩

def Matched.rows (m : Matched) : List OffsetRow := offsetRows m.pass m.ledger m.trips

/-- Read the feed and match its trips. -/
def matching (s : Settings) (feed : Feed) : Job Matched := do
  let (pass, store) ← loadShapes s feed
  let reading := readStops s.feedDirectory feed.stops
  Job.log reading.lines
  let stops ← Job.attempt reading.outcome
  let (trips, tripLines) ← Job.attempt (readTrips s.feedDirectory feed pass)
  Job.log tripLines
  let ledger ← matchAll s ⟨store, pass, stops, s.strategy⟩ trips
  return ⟨pass, store, stops, trips, ledger⟩

/-- Write the layer of segments, if it is asked for. -/
def exporting (s : Settings) (m : Matched) : Job (Option (List TripLine)) :=
  if s.exportSegments then some <$> writeSegments s (m.net s) m.ledger m.trips else pure none

/-- Save the store, if it is asked for. -/
def keeping (s : Settings) (m : Matched) : Job Unit :=
  match s.storeDirectory with
  | some directory => saveStore directory m.store
  | none => pure ()

/-- Write the table, and what else is asked for. -/
def ending (s : Settings) (m : Matched) : Job Alignment := do
  writeOffsetTable s m.rows
  let lines ← exporting s m
  keeping s m
  return ⟨m.pass, m.store, m.trips, m.ledger, m.rows, lines⟩

theorem align_eq (s : Settings) (feed : Feed) :
    align s feed = matching s feed >>= ending s := by
  unfold align matching ending exporting keeping
  simp only [bind_assoc, pure_bind]
  -- the two parts differ in where the questions of the settings are asked
  cases s.exportSegments <;> cases s.storeDirectory <;> simp <;> rfl

/-! ## Up to the first file -/

/-- Each step of a run up to the first file has returned. -/
structure Reached (s : Settings) (feed : Feed) (m : Matched) : Prop where
  loaded : (load (readShapes (joinPath s.feedDirectory shapeTableName) feed.shapes
    defaultBlockRows) .empty).outcome = .ok (m.pass, m.store)
  placed : (readStops s.feedDirectory feed.stops).outcome = .ok m.stops
  read : ∃ lines, readTrips s.feedDirectory feed m.pass = .ok (m.trips, lines)
  ended : ∃ meter, (matchTrips (m.net s) meter m.trips).outcome = .ok m.ledger

theorem Reached.sound {s : Settings} {feed : Feed} {m : Matched} (reached : Reached s feed m) :
    (m.net s).Sound :=
  sound_of_load [] reached.loaded m.stops s.strategy

theorem loadShapes_quiet (s : Settings) (feed : Feed) :
    Job.Quiet (loadShapes s feed) fun loaded =>
      (load (readShapes (joinPath s.feedDirectory shapeTableName) feed.shapes
        defaultBlockRows) .empty).outcome = .ok loaded := by
  unfold loadShapes
  refine .bind (.log _) fun _ _ => ?_
  refine .bind (.attempt _) fun meter _ => ?_
  refine .bind (.log _) fun _ _ => ?_
  refine .bind (.attempt _) ?_
  rintro ⟨pass, store⟩ loaded
  dsimp only
  split
  · exact .bind (.log _) fun _ _ => .pure loaded
  · exact .pure loaded

theorem matchAll_quiet (s : Settings) (net : Network) (trips : List Trip) :
    Job.Quiet (matchAll s net trips) fun l =>
      ∃ meter, (matchTrips net meter trips).outcome = .ok l := by
  unfold matchAll
  refine .bind (.attempt _) fun meter _ => ?_
  refine .bind (.log _) fun _ _ => ?_
  exact .weaken (.attempt _) fun l ended => ⟨_, ended⟩

/-- Nothing is written before all trips are matched. -/
theorem matching_quiet (s : Settings) (feed : Feed) :
    Job.Quiet (matching s feed) (Reached s feed) := by
  unfold matching
  refine .bind (loadShapes_quiet s feed) ?_
  rintro ⟨pass, store⟩ loaded
  refine .bind (.log _) fun _ _ => ?_
  refine .bind (.attempt _) fun stops placed => ?_
  refine .bind (.attempt _) ?_
  rintro ⟨trips, lines⟩ read
  refine .bind (.log _) fun _ _ => ?_
  refine .bind (matchAll_quiet s _ trips) fun l ended => ?_
  exact .pure ⟨loaded, placed, ⟨lines, read⟩, ended⟩

/-! ## Runs that return -/

/-- A run that returns has reached its first file, and its layer is written if it is asked for. -/
theorem align_exports {s : Settings} {feed : Feed} {e f : Effects} {a : Alignment}
    (h : (align s feed).run.run e = (.ok a, f)) :
    ∃ m lines, Reached s feed m ∧ (∃ e₁ e₂, (exporting s m).run.run e₁ = (.ok lines, e₂)) ∧
      a = ⟨m.pass, m.store, m.trips, m.ledger, m.rows, lines⟩ := by
  rw [align_eq] at h
  rcases Job.run_bind_eq_ok.mp h with ⟨m, e₁, first, h⟩
  have reached : Reached s feed m := by
    have known := (matching_quiet s feed e).2 m
    rw [first] at known
    exact known rfl
  rcases Job.run_bind_eq_ok.mp h with ⟨_, e₂, -, h⟩
  rcases Job.run_bind_eq_ok.mp h with ⟨lines, e₃, exported, h⟩
  rcases Job.run_bind_eq_ok.mp h with ⟨_, e₄, -, last⟩
  cases last
  exact ⟨m, lines, reached, ⟨e₂, e₃, exported⟩, rfl⟩

/-- It brings what it has matched. -/
theorem align_eq_ok {s : Settings} {feed : Feed} {e f : Effects} {a : Alignment}
    (h : (align s feed).run.run e = (.ok a, f)) :
    ∃ m lines, Reached s feed m ∧ a = ⟨m.pass, m.store, m.trips, m.ledger, m.rows, lines⟩ := by
  rcases align_exports h with ⟨m, lines, reached, -, rfl⟩
  exact ⟨m, lines, reached, rfl⟩

end StopAlign
