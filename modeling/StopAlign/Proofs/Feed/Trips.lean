import StopAlign.Feed.Trips
import StopAlign.Proofs.Feed.Stops
import StopAlign.Proofs.Sequences
import StopAlign.Proofs.Trip.Renumbering

/-!
# Trips — trips whose stop times come in another order

- `Table.visit`, `visits_eq_ok` : the visit in a row, once it is known what the columns hold
- `ToldApart`       : visits of one trip have different numbers
- `Table.ApartAsRead`, `Table.ApartAsWritten` : so they have as read, and as written
- `Table.tripIds`, `Table.tripShapes` : what the table of trips lists
- `readTrips_eq_ok`, `trip_of_tripIds` : the trips of a feed are those of its table, one for each row
- `schedules_perm`  : the schedules of such visits do not depend on their order
- `readTrips_reordered` : the trips of a feed whose shapes and stop times come in another order

Of two visits of one trip the order of their numbers says which is the first one; only where numbers
tie would the order of the file tell.
-/

namespace StopAlign

open Number Outcome

/-! ## Visits -/

namespace Table

/-- The distance in a row, if there is a column of distances. -/
def distance? (t : Table) (row : Row) : Option Float :=
  (t.sheet.column? "shape_dist_traveled").map fun _ => t.real "shape_dist_traveled" row

/-- The visit in a row. -/
def visit (t : Table) (row : Row) : Visit :=
  { trip := t.cell "trip_id" row
    stop := Ident.ofCell? (t.cell "stop_id" row)
    order := keyOf (readings (t.rows.map (t.cell "stop_sequence"))) (t.cell "stop_sequence" row)
    distance := t.distance? row }

/-- The distances in the cells of a column, if there is one. -/
def distances (t : Table) : Option (List (Option String)) → List (Option Float)
  | some cells => (reals cells).map some
  | none => t.rows.map fun _ => none

theorem distances_cells? (t : Table) :
    t.distances (t.cells? "shape_dist_traveled") = t.rows.map t.distance? := by
  have whole := t.reals_cells "shape_dist_traveled"
  unfold distances cells? distance?
  cases column : t.sheet.column? "shape_dist_traveled" with
  | none => rfl
  | some i =>
    have cells : t.cell "shape_dist_traveled" = (·.cell? i) := by
      funext row
      rw [cell, column, Option.bind_some]
    rw [cells] at whole
    simp only [Option.map_some, whole, List.map_map]
    rfl

end Table

theorem visitsOf_map {α : Type} (rows : List α) (trip stop : α → Option String)
    (order : α → SortKey) (distance : α → Option Float) :
    visitsOf (rows.map trip) (rows.map stop) (rows.map order) (rows.map distance) =
      rows.map fun row => ⟨trip row, Ident.ofCell? (stop row), order row, distance row⟩ := by
  induction rows with
  | nil => rfl
  | cons row rows ih => simp only [List.map_cons, visitsOf, ih]

/-- The columns of a table from which visits are made. -/
structure Table.Sortable (t : Table) : Prop where
  numbers : ∀ cell ∈ t.rows.map (t.cell "stop_sequence"), ∀ i, sortFault? cell i = none
  sequence : t.repeats "stop_sequence" = false
  distance : t.repeats "shape_dist_traveled" = false
  trips : checkSortColumn t "trip_id" = .ok ()
  sequences : checkSortColumn t "stop_sequence" = .ok ()

theorem visits_eq_ok {t : Table} {vs : List Visit} :
    visits t = .ok vs ↔ t.Sortable ∧ vs = t.rows.map t.visit := by
  have made : visitsOf (t.cells "trip_id") (t.cells "stop_id")
      ((t.rows.map (t.cell "stop_sequence")).map
        (keyOf (readings (t.rows.map (t.cell "stop_sequence")))))
      (t.distances (t.cells? "shape_dist_traveled")) = t.rows.map t.visit := by
    rw [Table.cells_eq, Table.cells_eq, Table.distances_cells?, List.map_map, visitsOf_map]
    rfl
  constructor
  · intro h
    rcases bind_eq_ok.mp h with ⟨cells, numbers, h⟩
    rcases bind_eq_ok.mp h with ⟨orders, sorted, h⟩
    rcases bind_eq_ok.mp h with ⟨given, distances, h⟩
    rcases bind_eq_ok.mp h with ⟨_, trips, h⟩
    rcases bind_eq_ok.mp h with ⟨_, sequences, h⟩
    rcases Table.numbers_eq_ok.mp numbers with ⟨one, rfl⟩
    rcases sortKeys_eq_ok.mp sorted with ⟨calm, rfl⟩
    rcases Table.numbers?_eq_ok.mp distances with ⟨once, rfl⟩
    exact ⟨⟨calm, one, once, trips, sequences⟩, (Except.ok.inj h).symm.trans made⟩
  · rintro ⟨sortable, rfl⟩
    refine bind_eq_ok.mpr ⟨_, Table.numbers_eq_ok.mpr ⟨sortable.sequence, rfl⟩, ?_⟩
    refine bind_eq_ok.mpr ⟨_, sortKeys_eq_ok.mpr ⟨sortable.numbers, rfl⟩, ?_⟩
    refine bind_eq_ok.mpr ⟨_, Table.numbers?_eq_ok.mpr ⟨sortable.distance, rfl⟩, ?_⟩
    refine bind_eq_ok.mpr ⟨_, sortable.trips, bind_eq_ok.mpr ⟨_, sortable.sequences, ?_⟩⟩
    exact congrArg Except.ok made

namespace Table.Reordered

variable {t u : Table} (same : t.Reordered u)

include same

theorem visit_eq : u.visit = t.visit := by
  funext row
  simp only [visit, distance?, same.cell_eq, same.column?_eq, same.real_eq,
    keyOf_perm (same.map_perm _)]

theorem checkSortColumn_eq (name : String) : checkSortColumn u name = checkSortColumn t name := by
  rw [checkSortColumn, checkSortColumn, same.rowNames, same.repeats_eq]

theorem sortable (sortable : t.Sortable) : u.Sortable where
  numbers := by
    intro cell member
    rw [same.cell_eq] at member
    exact sortable.numbers cell ((same.map_perm _).mem_iff.mp member)
  sequence := (same.repeats_eq _).trans sortable.sequence
  distance := (same.repeats_eq _).trans sortable.distance
  trips := (same.checkSortColumn_eq _).trans sortable.trips
  sequences := (same.checkSortColumn_eq _).trans sortable.sequences

/-- The visits of a table with the same rows in another order. -/
theorem visits_perm {vs : List Visit} (h : visits t = .ok vs) :
    ∃ ws, visits u = .ok ws ∧ ws.Perm vs := by
  rcases visits_eq_ok.mp h with ⟨sortable, rfl⟩
  refine ⟨u.rows.map u.visit, visits_eq_ok.mpr ⟨same.sortable sortable, rfl⟩, ?_⟩
  rw [same.visit_eq]
  exact same.map_perm t.visit

end Table.Reordered

/-! ## Schedules -/

/-- Every visit has a number, and those of one trip have different ones. -/
def ToldApart (vs : List Visit) : Prop :=
  (∀ v ∈ vs, v.order.isNumber = true) ∧
    vs.Pairwise fun v w => v.trip ≠ none → v.trip = w.trip → v.order.ties w.order = false

/-- The stop times of a table are told apart by the numbers that are read in it. -/
def Table.ApartAsRead (t : Table) : Prop := ∀ vs, visits t = .ok vs → ToldApart vs

instance (vs : List Visit) : Decidable (ToldApart vs) :=
  inferInstanceAs (Decidable (_ ∧ _))

instance (t : Table) : Decidable t.ApartAsRead :=
  inferInstanceAs (Decidable (∀ vs, visits t = .ok vs → ToldApart vs))

/-- The stop times of a table all have numbers, and those of one trip are written with different
ones. -/
def Table.ApartAsWritten (t : Table) : Prop :=
  (∀ row ∈ t.rows, (numberIn? (t.cell "stop_sequence" row)).isSome = true) ∧
    t.rows.Pairwise fun r q => t.cell "trip_id" r ≠ none → t.cell "trip_id" r = t.cell "trip_id" q →
      numberIn? (t.cell "stop_sequence" r) ≠ numberIn? (t.cell "stop_sequence" q)

instance (t : Table) : Decidable t.ApartAsWritten :=
  inferInstanceAs (Decidable (_ ∧ _))

/-- In a column of integers, different numbers are read as such. -/
theorem Table.ApartAsWritten.asRead {t : Table} (written : t.ApartAsWritten)
    (whole : ∀ row ∈ t.rows, (readingOf (t.cell "stop_sequence" row)).isWhole = true) :
    t.ApartAsRead := by
  intro vs visited
  have made := (visits_eq_ok.mp visited).2
  subst made
  have integers : (readings (t.rows.map (t.cell "stop_sequence"))).all Reading.isWhole = true := by
    rw [readings, List.map_map, List.all_map, List.all_eq_true]
    exact whole
  constructor
  · intro v member
    rcases List.mem_map.mp member with ⟨row, here, rfl⟩
    exact keyOf_isNumber integers (whole row here)
  · rw [List.pairwise_map]
    refine written.2.imp_of_mem fun hr hq different present same => ?_
    exact keyOf_untied integers (whole _ hr) (whole _ hq) (different present same)

/-! ### Their order -/

/-- The numbers of visits are of one kind. -/
def OfOneKind (vs : List Visit) : Prop :=
  ∀ v ∈ vs, ∀ w ∈ vs, v.order.isNumber = true → w.order.isNumber = true →
    v.order.alike w.order = true

theorem ofOneKind_visits {t : Table} {vs : List Visit} (h : visits t = .ok vs) : OfOneKind vs := by
  have made := (visits_eq_ok.mp h).2
  subst made
  intro v hv w hw
  rcases List.mem_map.mp hv with ⟨a, -, rfl⟩
  rcases List.mem_map.mp hw with ⟨b, -, rfl⟩
  exact keyOf_alike _

/-- Where the visit of a trip stands among all visits. -/
def Visit.standing (v : String × Visit) : String ×ₗ Number.Standing ×ₗ String :=
  toLex (v.1, v.2.order.rank)

theorem Visit.le_eq_standing {v w : String × Visit} (kind : v.2.order.alike w.2.order = true)
    (hv : v.2.order.isNumber = true) (hw : w.2.order.isNumber = true) :
    Visit.le v w = decide (standing v ≤ standing w) := by
  rw [Visit.le, SortKey.le_eq_rank kind hv hw, Bool.eq_iff_iff, decide_eq_true_iff]
  rw [standing, standing, Prod.Lex.toLex_le_toLex]
  simp only [Bool.or_eq_true, Bool.and_eq_true, decide_eq_true_iff, beq_iff_eq]

/-- The visits with a trip, each under its trip. -/
def named (vs : List Visit) : List (String × Visit) :=
  vs.filterMap fun v => v.trip.map fun trip => (trip, v)

theorem mem_named {vs : List Visit} {v : String × Visit} (h : v ∈ named vs) :
    v.2 ∈ vs ∧ v.2.trip = some v.1 := by
  rcases List.mem_filterMap.mp h with ⟨w, member, found⟩
  rcases Option.map_eq_some_iff.mp found with ⟨trip, here, rfl⟩
  exact ⟨member, here⟩

/-- Visits that are told apart stand at different places. -/
theorem standing_injOn {vs : List Visit} (apart : ToldApart vs) (kind : OfOneKind vs) :
    ∀ v ∈ named vs, ∀ w ∈ named vs, Visit.standing v = Visit.standing w → v = w := by
  intro v hv w hw same
  rcases mem_named hv with ⟨hv, tripv⟩
  rcases mem_named hw with ⟨hw, tripw⟩
  rcases Prod.ext_iff.mp (toLex.injective same) with ⟨trip, rank⟩
  simp only at trip rank
  have numberv := apart.1 v.2 hv
  have numberw := apart.1 w.2 hw
  refine Prod.ext trip ?_
  by_contra different
  -- at one place the two are of one trip and neither goes before the other one
  have ties : v.2.order.ties w.2.order = true := by
    rw [SortKey.ties, SortKey.le_eq_rank (kind _ hv _ hw numberv numberw) numberv numberw,
      SortKey.le_eq_rank (kind _ hw _ hv numberw numberv) numberw numberv, rank]
    simp
  have symmetric : Std.Symm fun a b : Visit =>
      a.trip ≠ none → a.trip = b.trip → a.order.ties b.order = false := by
    refine ⟨fun a b h present equal => ?_⟩
    rw [SortKey.ties, Bool.and_comm]
    exact h (equal ▸ present) equal.symm
  have present : v.2.trip ≠ none := by
    rw [tripv]
    exact Option.some_ne_none _
  have untied := apart.2.forall hv hw different present (by rw [tripv, tripw, trip])
  rw [ties] at untied
  cases untied

/-- The schedules of visits that are told apart do not depend on the order of these. -/
theorem schedules_perm {vs ws : List Visit} (perm : ws.Perm vs) (apart : ToldApart vs)
    (kind : OfOneKind vs) : schedules ws = schedules vs := by
  have same : (named ws).Perm (named vs) := perm.filterMap _
  have compare : ∀ v ∈ named vs, ∀ w ∈ named vs,
      Visit.le v w = decide (Visit.standing v ≤ Visit.standing w) := by
    intro v hv w hw
    rcases mem_named hv with ⟨hv, -⟩
    rcases mem_named hw with ⟨hw, -⟩
    have numberv := apart.1 v.2 hv
    have numberw := apart.1 w.2 hw
    exact Visit.le_eq_standing (kind _ hv _ hw numberv numberw) numberv numberw
  -- no two visits stand at one place, so that sorting by it forgets the order they came in
  have sorted : stableSort Visit.le (named ws) = stableSort Visit.le (named vs) := by
    calc
      stableSort Visit.le (named ws)
          = stableSort (fun v w => Visit.standing v ≤ Visit.standing w) (named ws) :=
            stableSort_congr fun v hv w hw =>
              compare v (same.mem_iff.mp hv) w (same.mem_iff.mp hw)
      _ = stableSort (fun v w => Visit.standing v ≤ Visit.standing w) (named vs) :=
            (stableSort_perm Visit.standing same.symm (standing_injOn apart kind)).symm
      _ = stableSort Visit.le (named vs) := (stableSort_congr compare).symm
  exact congrArg (List.foldr prepend []) sorted

/-! ## Trips -/

/-- The identifiers that a table of trips lists. -/
def Table.tripIds (t : Table) : List (Option String) := t.listed "trip_id" (t.cells "trip_id")

/-- The shapes that a table of trips lists. Without a column of them no row names one. -/
def Table.tripShapes (t : Table) : List (Option String) :=
  t.listed "shape_id" ((t.cells? "shape_id").getD (t.rows.map fun _ => some ""))

/-- Where a table has one column of identifiers, it lists the cells of its rows. -/
theorem Table.tripIds_eq {t : Table} (h : t.repeats "trip_id" = false) :
    t.tripIds = t.rows.map (t.cell "trip_id") := by
  rw [tripIds, listed, if_neg (Bool.eq_false_iff.mp h), cells_eq]

/-- The trips of a feed are those of its table, one for each row. -/
theorem readTrips_eq_ok {directory : String} {feed : Feed} {pass : Pass} {found : List Trip}
    {lines : List Line} (h : readTrips directory feed pass = .ok (found, lines)) :
    ∃ table times vs, Table.read directory tripTableName feed.trips tripColumns = .ok table ∧
      Table.read directory stopTimeTableName feed.stopTimes stopTimeColumns = .ok times ∧
      visits times = .ok vs ∧ table.tripIds.length = table.tripShapes.length ∧
      found = List.zipWith (tripOf pass times (schedules vs)) table.tripIds table.tripShapes := by
  unfold readTrips at h
  rcases bind_eq_ok.mp h with ⟨table, opened, h⟩
  rcases bind_eq_ok.mp h with ⟨times, opened', h⟩
  rcases bind_eq_ok.mp h with ⟨vs, visited, h⟩
  rcases bind_eq_ok.mp h with ⟨pairs, stepped, h⟩
  refine ⟨table, times, vs, opened, opened', visited, ?_⟩
  unfold inStep at stepped
  split at stepped
  · rename_i same
    cases stepped
    refine ⟨same, ?_⟩
    rw [← List.map_uncurry_zip_eq_zipWith]
    simp only at h
    split at h
    · cases h
      rfl
    · cases h
      rfl
  · cases stepped

/-- A row that a table lists has a trip. -/
theorem trip_of_tripIds (pass : Pass) (times : Table) (all : List Schedule) {table : Table}
    (same : table.tripIds.length = table.tripShapes.length) {i : Nat} {id : Option String}
    (ids : table.tripIds[i]? = some id) :
    ∃ shape, table.tripShapes[i]? = some shape ∧
      (List.zipWith (tripOf pass times all) table.tripIds table.tripShapes)[i]? =
        some (tripOf pass times all id shape) := by
  have inside : i < table.tripShapes.length := same ▸ (List.getElem?_eq_some_iff.mp ids).1
  have shapes := List.getElem?_eq_getElem inside
  exact ⟨_, shapes, List.getElem?_zipWith_eq_some.mpr ⟨id, _, ids, shapes, rfl⟩⟩

/-- A trip of a feed has the index of a shape that was loaded, or none. -/
theorem shape_of_readTrips {directory : String} {feed : Feed} {pass : Pass} {found : List Trip}
    {lines : List Line} (h : readTrips directory feed pass = .ok (found, lines)) {t : Trip}
    (member : t ∈ found) {index : Int} (here : t.shape = some index) :
    ∃ id i, pass.find? id = some i ∧ index = (i : Int) := by
  rcases readTrips_eq_ok h with ⟨table, times, vs, -, -, -, -, rfl⟩
  rcases List.mem_iff_getElem?.mp member with ⟨k, place⟩
  rcases List.getElem?_zipWith_eq_some.mp place with ⟨trip, shape, -, -, rfl⟩
  have named : shapeIndex? pass shape = some index := here
  unfold shapeIndex? at named
  split at named
  · rcases Option.map_eq_some_iff.mp named with ⟨i, known, rfl⟩
    rcases Option.bind_eq_some_iff.mp known with ⟨id, -, found⟩
    exact ⟨id, i, found, rfl⟩
  · cases named

section Trips

variable {σ : Int → Int} {pass other : Pass} {store grown : ShapeStore}
  (renumbers : Renumbers σ pass other store grown)

include renumbers

theorem shapeIndex?_renumber (cell : Option String) :
    shapeIndex? other cell = (shapeIndex? pass cell).map σ := by
  unfold shapeIndex?
  by_cases names : namesShape cell = true
  · rw [if_pos names, if_pos names]
    cases ShapeId.ofTableCell? cell with
    | none => rfl
    | some id => exact renumbers.found id
  · rw [if_neg names, if_neg names]
    rfl

theorem tripOf_renumber {t u : Table} (same : t.Reordered u) (all : List Schedule)
    (trip shape : Option String) :
    tripOf other u all trip shape = (tripOf pass t all trip shape).renumber σ := by
  have stops : stopsOf u = stopsOf t := by
    funext s
    rw [stopsOf, stopsOf, same.repeats_eq, same.repeated_eq]
  simp only [tripOf, Trip.renumber, shapeIndex?_renumber renumbers, stops]

/-- The trips of a feed whose shapes have other indices and whose stop times come in another
order. -/
theorem readTrips_reordered {directory : String} {feed feed' : Feed}
    (trips : feed'.trips = feed.trips)
    (reordered : Option.Rel Csv.Reordered feed.stopTimes feed'.stopTimes)
    (apart : ∀ t, Table.read directory stopTimeTableName feed.stopTimes stopTimeColumns = .ok t →
      t.ApartAsRead)
    {found : List Trip} {lines : List Line}
    (h : readTrips directory feed pass = .ok (found, lines)) :
    readTrips directory feed' other = .ok (found.map (Trip.renumber σ), lines) := by
  unfold readTrips at h ⊢
  rw [trips]
  rcases bind_eq_ok.mp h with ⟨table, opened, h⟩
  rcases bind_eq_ok.mp h with ⟨t, times, h⟩
  rcases bind_eq_ok.mp h with ⟨vs, visited, h⟩
  rcases bind_eq_ok.mp h with ⟨pairs, inStep, h⟩
  rcases Table.read_reordered reordered times with ⟨u, times', same⟩
  rcases same.visits_perm visited with ⟨ws, visited', perm⟩
  -- from here on the stop times only count as sorted
  have all := schedules_perm perm (apart t times vs visited) (ofOneKind_visits visited)
  refine bind_eq_ok.mpr ⟨table, opened, bind_eq_ok.mpr ⟨u, times', ?_⟩⟩
  refine bind_eq_ok.mpr ⟨ws, visited', ?_⟩
  rw [all]
  refine bind_eq_ok.mpr ⟨pairs, inStep, ?_⟩
  have each : (pairs.map fun x => tripOf other u (schedules vs) x.1 x.2) =
      (pairs.map fun x => tripOf pass t (schedules vs) x.1 x.2).map (Trip.renumber σ) := by
    rw [List.map_map]
    exact List.map_congr_left fun x _ => tripOf_renumber renumbers same _ _ _
  simp only [each, shapeIndex?_renumber renumbers, Option.isNone_map, List.length_map] at h ⊢
  split at h
  · rename_i known
    cases h
    rw [if_pos known]
    rfl
  · rename_i unknown
    cases h
    rw [if_neg unknown]
    rfl

end Trips

end StopAlign
