import StopAlign.Proofs.Run
import StopAlign.Proofs.Run.Stages
import StopAlign.Proofs.Trip.Register

/-!
# Rows — what the table of offsets says of the rows of trips

- `shapeText`          : the shape that a row names, if it is a known one
- `shapeIndex?_passOf` : a shape that is named, in the pass and in the store
- `Listed`, `LastRow`  : a row of the table of trips, and the last one with its trip
- `Told`, `align_rows` : what a run that returns has written for each row
- `Told.own`           : a row whose trip is listed once has the result of its own

A row tells the trip and the shape of its own, but the offsets of the last row with the same trip.
Two rows of one trip that name different shapes share the offsets of the second one.
-/

namespace StopAlign

open Outcome

/-! ## Shapes that rows name -/

/-- The shape that a cell names, or nothing if no record has it. -/
def shapeText (records : List ShapeRecord) : Option String → String
  | some name => if ShapeId.text name ∈ shapeIds records then name else ""
  | none => ""

/-- The number of points of the shape with a name. -/
def pointCount (records : List ShapeRecord) (name : String) : Nat :=
  (recordsOf (.text name) records).length

/-- A cell names a shape of the pass, or no shape at all. -/
theorem shapeIndex?_passOf (records : List ShapeRecord) (cell : Option String) :
    (∃ k : Nat, shapeIndex? (passOf records) cell = some (k : Int) ∧
        (shapeIds records)[k]? = some (.text (shapeText records cell))) ∨
      (shapeIndex? (passOf records) cell = none ∧ shapeText records cell = "") := by
  cases cell with
  | none => exact .inr ⟨rfl, rfl⟩
  | some name =>
    by_cases empty : name = ""
    · subst empty
      exact .inr ⟨rfl, ite_self _⟩
    -- only a name that is not empty is looked up
    have names : namesShape (some name) = true := by
      simpa [namesShape] using empty
    have index : shapeIndex? (passOf records) (some name) =
        ((passOf records).find? (.text name)).map Int.ofNat := if_pos names
    rw [index, shapeText]
    by_cases known : ShapeId.text name ∈ shapeIds records
    · left
      have here := List.getElem?_idxOf known
      rw [if_pos known, (load_inside records here).1]
      exact ⟨_, rfl, here⟩
    · right
      have unknown : (passOf records).find? (.text name) = none :=
        Pass.find?_eq_none _ _ (by rwa [ids_passOf])
      rw [if_neg known, unknown]
      exact ⟨rfl, rfl⟩

/-- The shape that the row of a trip tells. -/
theorem shape_offsetRow {records : List ShapeRecord} {l : Ledger} {t : Trip} {cell : Option String}
    (h : t.shape = shapeIndex? (passOf records) cell) :
    (offsetRow (passOf records) l t).shape = shapeText records cell := by
  rw [offsetRow, h]
  rcases shapeIndex?_passOf records cell with ⟨k, index, here⟩ | ⟨index, text⟩
  · rw [index, Option.bind_some, (load_inside records here).2.1]
    rfl
  · rw [index, text]
    rfl

/-- The shape that a cell names has as many points as records. -/
theorem length_of_shapeIndex? {records : List ShapeRecord} {cell : Option String} {i : Int}
    {shape : Polyline} (h : shapeIndex? (passOf records) cell = some i)
    (points : (storeOf records).shape (some i) = .ok shape) :
    shape.length = pointCount records (shapeText records cell) := by
  rcases shapeIndex?_passOf records cell with ⟨k, index, here⟩ | ⟨index, -⟩
  · cases h.symm.trans index
    cases points.symm.trans (load_inside records here).2.2.2
    rw [List.length_map, length_inOrder, pointCount]
  · cases h.symm.trans index

/-! ## Rows of the table of trips -/

/-- A row of the table of trips, with its trip. -/
structure Listed (table : Table) (a : Alignment) (i : Nat) (id shape : Option String) (t : Trip) :
    Prop where
  ids : table.tripIds[i]? = some id
  shapes : table.tripShapes[i]? = some shape
  trip : a.trips[i]? = some t
  id_eq : t.id = Ident.ofCell? id
  shape_eq : t.shape = shapeIndex? a.pass shape

/-- The last row of the table of trips with an identifier, and the shape in it. -/
structure LastRow (table : Table) (id : Option String) (j : Nat) (shape : Option String) :
    Prop where
  ids : table.tripIds[j]? = some id
  shapes : table.tripShapes[j]? = some shape
  others : ∀ k, j < k → table.tripIds[k]? ≠ some id

theorem Ident.ofCell?_injective : Function.Injective Ident.ofCell? := by
  intro a b same
  cases a with
  | none =>
    cases b with
    | none => rfl
    | some text => cases same
  | some text =>
    cases b with
    | none => cases same
    | some other =>
      cases same
      rfl

theorem tripText_ofCell? {r : OffsetRow} {id : Option String} (h : r.trip = Ident.ofCell? id) :
    r.tripText = id.getD "" := by
  rw [OffsetRow.tripText, h]
  cases id <;> rfl

/-- The last trip with an identifier is the one of the last row with it. -/
theorem lastRow_of_lastNamed {pass : Pass} {times : Table} {all : List Schedule} {table : Table}
    (same : table.tripIds.length = table.tripShapes.length) {trips : List Trip}
    (h : trips = List.zipWith (tripOf pass times all) table.tripIds table.tripShapes)
    {id : Option String} {j : Nat} {last : Trip} (named : LastNamed trips (Ident.ofCell? id) j last) :
    ∃ shape, LastRow table id j shape ∧ last = tripOf pass times all id shape := by
  subst h
  have place := named.place
  rcases List.getElem?_zipWith_eq_some.mp place with ⟨id', shape, ids, shapes, rfl⟩
  have equal : id' = id := by
    have plain : (Ident.ofCell? id').plain = (Ident.ofCell? id).plain := named.named
    rw [Ident.plain_ofCell?, Ident.plain_ofCell?] at plain
    exact Ident.ofCell?_injective plain
  subst equal
  refine ⟨shape, ⟨ids, shapes, ?_⟩, rfl⟩
  intro k later again
  rcases trip_of_tripIds pass times all same again with ⟨other, -, there⟩
  exact named.others k _ later there rfl

/-- What a run has written for each row of the table of trips: its trip, its shape if that one is
known, and the result for its stops on the shape of the last row with its trip. The offsets lie on
the shape that the last row names, so they lie on the row's own shape if the two name the same. -/
structure Told (table : Table) (records : List ShapeRecord) (a : Alignment) : Prop where
  count : a.rows.length = table.tripIds.length
  each : ∀ (i : Nat) (id : Option String), table.tripIds[i]? = some id →
    ∃ shape t j last index cell, Listed table a i id shape t ∧ LastRow table id j last ∧
      (a.rows.map OffsetRow.cells)[i]? =
        some [id.getD "", shapeText records shape, index, cell] ∧
      Shows a.ledger (Pattern.plain ⟨shapeIndex? a.pass last, t.stops⟩)
        (pointCount records (shapeText records last)) index cell

theorem align_rows {s : Settings} {feed : Feed} {e f : Effects} {a : Alignment}
    (h : (align s feed).run.run e = (.ok a, f)) :
    ∃ table records, Table.read s.feedDirectory tripTableName feed.trips tripColumns = .ok table ∧
      (table.repeats "trip_id" = false →
        table.tripIds = table.rows.map (table.cell "trip_id")) ∧
      readShapes (joinPath s.feedDirectory shapeTableName) feed.shapes defaultBlockRows =
        ⟨records, none⟩ ∧
      Told table records a := by
  rcases align_eq_ok h with ⟨m, lines, reached, rfl⟩
  rcases reached.read with ⟨told, read⟩
  rcases readTrips_eq_ok read with ⟨table, times, vs, opened, -, -, same, trips⟩
  rcases load_empty_eq_ok reached.loaded with ⟨records, stream, pass, store⟩
  rcases reached.ended with ⟨meter, ended⟩
  have count : m.trips.length = table.tripIds.length := by
    rw [trips, List.length_zipWith, ← same, Nat.min_self]
  refine ⟨table, records, opened, Table.tripIds_eq, stream, ?_, ?_⟩
  · simp only [Matched.rows, offsetRows, List.length_map, count]
  intro i id ids
  -- the trip of row `i`
  rcases trip_of_tripIds m.pass times (schedules vs) same ids with ⟨shape, shapes, place⟩
  rw [← trips] at place
  generalize made : tripOf m.pass times (schedules vs) id shape = t at place
  have idEq : t.id = Ident.ofCell? id := made ▸ rfl
  have shapeEq : t.shape = shapeIndex? m.pass shape := made ▸ rfl
  -- the register has the last trip of its identifier, which is the one of row `j`
  rcases shows_of_pass reached.sound ended (List.mem_of_getElem? place) with
    ⟨j, last, index, cell, lastNamed, cells, shows⟩
  rw [idEq] at lastNamed
  rcases lastRow_of_lastNamed same trips lastNamed with ⟨shape', lastRow, rfl⟩
  -- the stops of a trip depend on its identifier only
  have stops : (tripOf m.pass times (schedules vs) id shape').stops = t.stops := made ▸ rfl
  refine ⟨shape, t, j, shape', index, cell, ⟨ids, shapes, place, idEq, shapeEq⟩, lastRow, ?_, ?_⟩
  · have row : m.rows[i]? = some (offsetRow m.pass m.ledger t) := by
      rw [Matched.rows, offsetRows, List.getElem?_map, place, Option.map_some]
    have text : (offsetRow m.pass m.ledger t).tripText = id.getD "" := tripText_ofCell? idEq
    have own : (offsetRow m.pass m.ledger t).shape = shapeText records shape := by
      rw [pass] at shapeEq ⊢
      exact shape_offsetRow shapeEq
    rw [List.getElem?_map, row, Option.map_some]
    refine congrArg some (cells.trans ?_)
    simp only [Matched.net, text, own]
  · -- offsets lie on the shape of the last trip, whose points are the records under its name
    rw [← stops]
    apply shows
    intro index points known here
    have known : shapeIndex? m.pass shape' = some index := known
    rw [pass] at known
    exact length_of_shapeIndex? known (store ▸ here)

/-- A row whose trip no other row has shows the result of its own trip, and offsets on the shape
that it names. -/
theorem Told.own {table : Table} {records : List ShapeRecord} {a : Alignment}
    (told : Told table records a) {i : Nat} {id : Option String} (ids : table.tripIds[i]? = some id)
    (once : ∀ k, table.tripIds[k]? = some id → k = i) :
    ∃ shape t index cell, Listed table a i id shape t ∧
      (a.rows.map OffsetRow.cells)[i]? =
        some [id.getD "", shapeText records shape, index, cell] ∧
      Shows a.ledger t.pattern.plain (pointCount records (shapeText records shape)) index cell := by
  rcases told.each i id ids with ⟨shape, t, j, last, index, cell, listed, lastRow, row, shows⟩
  cases once j lastRow.ids
  cases lastRow.shapes.symm.trans listed.shapes
  have pattern : t.pattern = ⟨shapeIndex? a.pass shape, t.stops⟩ := by
    rw [Trip.pattern, listed.shape_eq]
  exact ⟨shape, t, index, cell, listed, row, pattern ▸ shows⟩

/-! ## A trip that is listed twice -/

/-- Two rows of one trip, which name shapes of three points and of two points. -/
def listedTwice : Feed :=
  feedOf
    [["p", "0", "0", "1", ""], ["p", "0", "1", "2", ""], ["p", "0", "2", "3", ""],
      ["q", "5", "0", "1", ""], ["q", "5", "2", "2", ""]]
    [["t", "p"], ["t", "q"]] [["t", "a", "1", ""], ["t", "b", "2", ""]]
    [["a", "0", "0"], ["b", "0", "2"]]

/-- What a run brings, if it returns. -/
def aligned? (s : Settings) (feed : Feed) : Option Alignment :=
  ((align s feed).run.run (.start s)).1.toOption

theorem aligned?_eq_some {s : Settings} {feed : Feed} {a : Alignment}
    (h : aligned? s feed = some a) : ∃ f, (align s feed).run.run (.start s) = (.ok a, f) := by
  unfold aligned? at h
  rcases run : (align s feed).run.run (.start s) with ⟨outcome, effects⟩
  rw [run] at h
  cases outcome with
  | error fault => cases h
  | ok b =>
    cases h
    exact ⟨effects, rfl⟩

theorem align_rows_listedTwice :
    ∃ a f table records,
      (align plainSettings listedTwice).run.run (.start plainSettings) = (.ok a, f) ∧
        Table.read "feed" tripTableName listedTwice.trips tripColumns = .ok table ∧
        readShapes "feed/shapes.txt" listedTwice.shapes defaultBlockRows = ⟨records, none⟩ ∧
        Told table records a := by
  have returns : (aligned? plainSettings listedTwice).isSome = true := by decide +kernel
  rcases Option.isSome_iff_exists.mp returns with ⟨a, brought⟩
  rcases aligned?_eq_some brought with ⟨f, run⟩
  rcases align_rows run with ⟨table, records, opened, -, stream, told⟩
  have path : joinPath "feed" shapeTableName = "feed/shapes.txt" := by decide +kernel
  exact ⟨a, f, table, records, run, opened, path ▸ stream, told⟩

/-- The first row names a shape on which its trip has a result of its own, and has another one. -/
theorem exists_foreign_row :
    ∃ a f t, (align plainSettings listedTwice).run.run (.start plainSettings) = (.ok a, f) ∧
      a.trips[0]? = some t ∧ a.ledger.entries.find? t.pattern.plain = some (.row 0) ∧
      a.ledger.table[0]? = some [0, 2] ∧
      a.rows[0]? = some ⟨.text "t", "p", some 1, some [0, 1]⟩ := by
  have looked : (aligned? plainSettings listedTwice).bind (fun a => (a.trips[0]?).map fun t =>
      (a.ledger.entries.find? t.pattern.plain, a.ledger.table[0]?, a.rows[0]?)) =
      some (some (.row 0), some [0, 2], some ⟨.text "t", "p", some 1, some [0, 1]⟩) := by
    decide +kernel
  rcases Option.bind_eq_some_iff.mp looked with ⟨a, run, looked⟩
  rcases Option.map_eq_some_iff.mp looked with ⟨t, trip, same⟩
  rcases aligned?_eq_some run with ⟨f, run⟩
  simp only [Prod.mk.injEq] at same
  rcases same with ⟨entry, table, row⟩
  exact ⟨a, f, t, run, trip, entry, table, row⟩

end StopAlign
