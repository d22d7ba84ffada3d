import StopAlign.Proofs.Run.Rows
import StopAlign.Proofs.Trip.Drawing

/-!
# Lines — what the layer of segments says of the rows of trips

- `Reached.stops_eq`   : trips of one identifier have the same stops
- `Reached.drawn`      : a trip with offsets has two stops or more, and a shape with points
- `exporting_eq_ok`    : the lines of a run are those of its trips
- `Segmented`, `align_lines` : what a run that returns has drawn for each row

The offsets of a row are those of the last row with the same trip, and so is the shape that is cut.
-/

namespace StopAlign

open Outcome

/-! ## Trips with offsets -/

section Reached

variable {s : Settings} {feed : Feed} {m : Matched} (reached : Reached s feed m)

include reached

/-- The stops of a trip depend on its identifier only. -/
theorem Reached.stops_eq {t u : Trip} (member : t ∈ m.trips) (member' : u ∈ m.trips)
    (same : t.id.plain = u.id.plain) : t.stops = u.stops := by
  rcases reached.read with ⟨_, read⟩
  rcases readTrips_eq_ok read with ⟨table, times, vs, -, -, -, -, trips⟩
  rw [trips] at member member'
  rcases List.mem_iff_getElem?.mp member with ⟨_, place⟩
  rcases List.mem_iff_getElem?.mp member' with ⟨_, place'⟩
  rcases List.getElem?_zipWith_eq_some.mp place with ⟨id, _, -, -, rfl⟩
  rcases List.getElem?_zipWith_eq_some.mp place' with ⟨id', _, -, -, rfl⟩
  have plain : (Ident.ofCell? id).plain = (Ident.ofCell? id').plain := same
  rw [Ident.plain_ofCell?, Ident.plain_ofCell?] at plain
  cases Ident.ofCell?_injective plain
  rfl

/-- A trip with offsets has two stops or more, and a shape with points. -/
theorem Reached.drawn {t : Trip} (member : t ∈ m.trips)
    (matched : (m.ledger.offsets? t.id).isSome = true) :
    2 ≤ t.stops.length ∧
      ∃ shape, m.ledger.polyline (m.net s).store t.id = .ok shape ∧ shape ≠ [] := by
  rcases reached.ended with ⟨meter, ended⟩
  rcases matchTrips_eq_ok.mp ended with ⟨-, run⟩
  rcases registered_of_pass ended member with ⟨j, last, e, named, entry, registered⟩
  rcases Option.isSome_iff_exists.mp matched with ⟨offsets, own⟩
  have row : m.ledger.offsets? t.id = e.row?.bind (m.ledger.table[·]?) :=
    congrArg (Option.bind · (m.ledger.table[·]?)) registered
  cases e with
  | without reason =>
    rw [row] at own
    cases own
  | row i =>
    -- the register has the last trip of this identifier, which has the same stops
    have stops : last.stops = t.stops :=
      reached.stops_eq (List.mem_of_getElem? named.place) member named.named
    have two : 2 ≤ last.stops.length := two_le_of_entry ended entry
    rcases offsets_of_entry reached.sound ended entry with ⟨list, _, _, listed, filled, -⟩
    have same : offsets = list := Option.some.inj (own.symm.trans (row.trans listed))
    -- an offset lies on the shape, so there are points on it
    have fitted := Ledger.fitted_of_sound reached.sound #[] (m.trips.map .assign)
    rw [run] at fitted
    rcases fitted.matched t.id offsets own with ⟨_, shape, -, -, bounds, drawn⟩
    refine ⟨stops ▸ two, shape, drawn, ?_⟩
    rcases List.exists_mem_of_ne_nil list filled with ⟨o, among⟩
    have bound := bounds o (same ▸ among)
    intro none
    rw [none, List.length_nil] at bound
    omega

end Reached

/-! ## Runs -/

/-- The lines of a run are those of its trips. -/
theorem exporting_eq_ok {s : Settings} {m : Matched} {e f : Effects}
    {lines : Option (List TripLine)} (h : (exporting s m).run.run e = (.ok lines, f))
    (wanted : s.exportSegments = true) :
    ∃ all, lines = some all ∧ matchedSegments (m.net s) m.ledger m.trips = .ok all := by
  unfold exporting at h
  rw [if_pos wanted, map_eq_pure_bind] at h
  rcases Job.run_bind_eq_ok.mp h with ⟨all, e₁, writing, last⟩
  cases last
  rcases Job.run_bind_eq_ok.mp writing with ⟨drawn, e₂, drawing, writing⟩
  refine ⟨all, rfl, (Prod.mk.inj drawing).1.trans (congrArg Except.ok ?_)⟩
  by_cases none : drawn.isEmpty = true
  · simp only [if_pos none] at writing
    cases writing
    rfl
  · simp only [if_neg none] at writing
    rcases Job.run_bind_eq_ok.mp writing with ⟨_, _, -, writing⟩
    cases writing
    rfl

/-- What a run has drawn for each row of the table of trips, in the order of the rows. -/
structure Segmented (table : Table) (stops : Dictionary Ident Point) (a : Alignment)
    (lines : List TripLine) (blocks : List (List TripLine)) : Prop where
  whole : lines = blocks.flatten
  count : blocks.length = table.tripIds.length
  each : ∀ (i : Nat) (id : Option String), table.tripIds[i]? = some id →
    ∃ shape t block, Listed table a i id shape t ∧ blocks[i]? = some block ∧
      RowLines stops a.ledger t block

/-- A run that returns and is asked for segments has drawn the lines of each row that has offsets
and whose stops all have places, and none for another row. A line of one point never turns up. -/
theorem align_lines {s : Settings} {feed : Feed} {e f : Effects} {a : Alignment}
    (h : (align s feed).run.run e = (.ok a, f)) (wanted : s.exportSegments = true) :
    ∃ table stops lines blocks,
      Table.read s.feedDirectory tripTableName feed.trips tripColumns = .ok table ∧
      (table.repeats "trip_id" = false →
        table.tripIds = table.rows.map (table.cell "trip_id")) ∧
      (readStops s.feedDirectory feed.stops).outcome = .ok stops ∧ a.lines = some lines ∧
      Segmented table stops a lines blocks ∧
      ∀ net l trips e₁ e₂,
        (writeSegments s net l trips).run.run e₁ ≠ (.error .onePointLine, e₂) := by
  rcases align_exports h with ⟨m, lines, reached, ⟨e₁, e₂, exported⟩, rfl⟩
  rcases exporting_eq_ok exported wanted with ⟨all, rfl, drawn⟩
  rcases matchedSegments_blocks drawn with ⟨blocks, whole, each⟩
  rcases reached.read with ⟨told, read⟩
  rcases readTrips_eq_ok read with ⟨table, times, vs, opened, -, -, same, trips⟩
  have count : m.trips.length = table.tripIds.length := by
    rw [trips, List.length_zipWith, ← same, Nat.min_self]
  refine ⟨table, m.stops, all, blocks, opened, Table.tripIds_eq, reached.placed, rfl,
    ⟨whole, each.length_eq.symm.trans count, ?_⟩, writeSegments_ne_onePointLine s⟩
  intro i id ids
  rcases trip_of_tripIds m.pass times (schedules vs) same ids with ⟨shape, shapes, place⟩
  rw [← trips] at place
  rcases List.getElem?_eq_some_iff.mp place with ⟨within, here⟩
  have within' : i < blocks.length := each.length_eq ▸ within
  have own := each.get within within'
  refine ⟨shape, _, blocks[i], ⟨ids, shapes, place, rfl, rfl⟩, List.getElem?_eq_getElem within', ?_⟩
  rw [← here]
  exact rowLines_of_matchedLines (reached.drawn (List.getElem_mem within)) own

/-! ## Rows with lines and without -/

/-- A trip that is matched by place, one that is matched by distance although a stop of it is
nowhere, and one on a shape that is not known. -/
def threeRows : Feed :=
  feedOf
    [["p", "0", "0", "1", ""], ["p", "0", "1", "2", ""], ["p", "0", "2", "3", ""],
      ["q", "5", "0", "1", "0"], ["q", "5", "1", "2", "1"], ["q", "5", "2", "3", "2"]]
    [["t", "p"], ["u", "q"], ["v", "r"]]
    [["t", "a", "1", ""], ["t", "b", "2", ""], ["t", "c", "3", ""], ["u", "a", "1", "0"],
      ["u", "lost", "2", "2"], ["v", "a", "1", ""], ["v", "c", "2", ""]]
    [["a", "0", "0"], ["b", "0", "0.5"], ["c", "0", "2"]]

theorem align_lines_threeRows :
    ∃ a f table stops lines blocks,
      (align plainSettings threeRows).run.run (.start plainSettings) = (.ok a, f) ∧
        plainSettings.exportSegments = true ∧
        Table.read "feed" tripTableName threeRows.trips tripColumns = .ok table ∧
        (readStops "feed" threeRows.stops).outcome = .ok stops ∧ a.lines = some lines ∧
        Segmented table stops a lines blocks := by
  have returns : (aligned? plainSettings threeRows).isSome = true := by decide +kernel
  rcases Option.isSome_iff_exists.mp returns with ⟨a, brought⟩
  rcases aligned?_eq_some brought with ⟨f, run⟩
  rcases align_lines run rfl with ⟨table, stops, lines, blocks, opened, -, placed, drawn, all, -⟩
  exact ⟨a, f, table, stops, lines, blocks, run, rfl, opened, placed, drawn, all⟩

-- the second line has the point of the shape that is left between its stops
example : (aligned? plainSettings threeRows).bind (·.lines) =
    some [⟨.text "t", 0, [⟨0, 0⟩, ⟨0, 0.5⟩]⟩, ⟨.text "t", 1, [⟨0, 0.5⟩, ⟨0, 1⟩, ⟨0, 2⟩]⟩] := by
  decide +kernel

end StopAlign
