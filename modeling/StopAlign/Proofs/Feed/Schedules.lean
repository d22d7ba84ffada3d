import StopAlign.Proofs.Feed.Trips
import StopAlign.Proofs.Table.Doubles

/-!
# Schedules — the stop times of each trip, in visiting order

- `find?_foldr_prepend` : the schedule of a trip among visits that are sorted by trips
- `Table.visiting`      : the rows of a trip in the order in which they are visited
- `visiting_stable`     : they are in stable order by any key that compares as the sort does
- `Table.InTurn`        : the order, by what the column of sequence numbers holds
- `scheduleOf_visits`   : the schedule of a trip holds the visits in its rows
- `Table.Travelled`     : the distances along some rows
- `Table.TripIn`        : a trip is what a row and the stop times make of it
- `readTrips_rows`      : so is every trip that is read, row by row
- `Feed.ReadsExactly`, `not_readsExactly` : the order of exact numbers, and feeds without it

A column of integers is sorted by their exact values, and any other column of numbers by its
doubles. A column that no kind of number holds stays one of texts, and nothing is said of its order.
-/

namespace StopAlign

open Number Outcome

/-! ## A trip among the schedules -/

/-- The visits of a trip. -/
def visitsTo (trip : String) (vs : List (String × Visit)) : List Visit :=
  (vs.filter fun v => v.1 = trip).map (·.2)

theorem visitsTo_cons_self (trip : String) (v : Visit) (vs : List (String × Visit)) :
    visitsTo trip ((trip, v) :: vs) = v :: visitsTo trip vs := by
  rw [visitsTo, List.filter_cons_of_pos (by simp)]
  rfl

theorem visitsTo_cons_of_ne {trip : String} {v : String × Visit} (other : v.1 ≠ trip)
    (vs : List (String × Visit)) : visitsTo trip (v :: vs) = visitsTo trip vs := by
  rw [visitsTo, List.filter_cons_of_neg (by simpa using other)]
  rfl

/-- A visit goes into the first schedule if this is the one of its trip, else in front of it. -/
theorem head?_foldr_prepend (vs : List (String × Visit)) :
    (vs.foldr prepend []).head?.map (·.trip) = vs.head?.map (·.1) := by
  cases vs with
  | nil => rfl
  | cons v vs =>
    rw [List.foldr_cons]
    unfold prepend
    split
    · split_ifs with same
      · exact congrArg some same
      · rfl
    · rfl

theorem find?_prepend_of_ne {v : String × Visit} {trip : String} (other : v.1 ≠ trip)
    (all : List Schedule) :
    (prepend v all).find? (·.trip = trip) = all.find? (·.trip = trip) := by
  unfold prepend
  split
  · rename_i s rest
    split_ifs with same
    · rw [List.find?_cons_of_neg (by simpa [same] using other),
        List.find?_cons_of_neg (by simpa [same] using other)]
    · rw [List.find?_cons_of_neg (by simpa using other)]
  · rw [List.find?_cons_of_neg (by simpa using other)]

/-- Where the visits are sorted by trips, the schedule of a trip has all of its visits. -/
theorem find?_foldr_prepend {vs : List (String × Visit)}
    (ascending : vs.Pairwise fun v w => v.1 ≤ w.1) (trip : String) :
    (vs.foldr prepend []).find? (·.trip = trip) =
      if visitsTo trip vs = [] then none else some ⟨trip, visitsTo trip vs⟩ := by
  induction vs with
  | nil => rfl
  | cons v vs ih =>
    rcases List.pairwise_cons.mp ascending with ⟨least, later⟩
    have ih := ih later
    have head := head?_foldr_prepend vs
    rw [List.foldr_cons]
    by_cases mine : v.1 = trip
    swap
    · rw [find?_prepend_of_ne mine, visitsTo_cons_of_ne mine, ih]
    rcases v with ⟨name, v⟩
    subst mine
    rw [visitsTo_cons_self, if_neg (List.cons_ne_nil _ _)]
    generalize vs.foldr prepend [] = all at head ih ⊢
    unfold prepend
    split
    · rename_i s rest
      split_ifs with joins
      · -- the first schedule is the one of this trip, and holds its later visits
        rw [List.find?_cons_of_pos (by simpa using joins)] at ih ⊢
        split_ifs at ih
        cases Option.some.inj ih
        rfl
      · -- the trips of all later visits come behind this one
        have none : visitsTo name vs = [] := by
          refine List.map_eq_nil_iff.mpr (List.filter_eq_nil_iff.mpr fun w hw => ?_)
          cases vs with
          | nil => cases hw
          | cons u us =>
            have first : s.trip = u.1 := Option.some.inj head
            have below : name < u.1 :=
              lt_of_le_of_ne (least u List.mem_cons_self) fun same => joins (first.trans same.symm)
            have behind : u.1 ≤ w.1 := by
              rcases List.mem_cons.mp hw with rfl | hw
              · exact le_rfl
              · exact (List.pairwise_cons.mp later).1 w hw
            simpa using (below.trans_le behind).ne'
        rw [List.find?_cons_of_pos (by simp), none]
    · have none : vs = [] := List.head?_eq_none_iff.mp (Option.map_eq_none_iff.mp head.symm)
      rw [List.find?_cons_of_pos (by simp), none]
      rfl

/-! ## The rows of a trip -/

namespace Table

variable (t : Table)

/-- The rows of a trip, as they are in the file. A row without a trip belongs to none. -/
def stopTimesOf (trip : Option String) : List Row :=
  t.rows.filter fun row => (t.cell "trip_id" row).isSome && t.cell "trip_id" row = trip

/-- The rows that have a trip. -/
def withTrip : List Row := t.rows.filter fun row => (t.cell "trip_id" row).isSome

/-- The visit in a row, under the trip of the row. -/
def visitUnder (row : Row) : String × Visit := ((t.cell "trip_id" row).getD "", t.visit row)

/-- All rows that have a trip, trip by trip, and those of a trip in visiting order. -/
def arranged : List Row :=
  stableSort (fun a b => Visit.le (t.visitUnder a) (t.visitUnder b)) t.withTrip

/-- The rows of a trip in visiting order. -/
def visiting (trip : Option String) : List Row :=
  t.arranged.filter fun row => t.cell "trip_id" row = trip

theorem named_visits : named (t.rows.map t.visit) = t.withTrip.map t.visitUnder := by
  unfold named withTrip
  induction t.rows with
  | nil => rfl
  | cons row rows ih =>
    rw [List.map_cons, List.filterMap_cons]
    have here : (t.visit row).trip = t.cell "trip_id" row := rfl
    cases trip : t.cell "trip_id" row with
    | none =>
      rw [here, trip, List.filter_cons_of_neg (by simp [trip])]
      exact ih
    | some id =>
      rw [here, trip, List.filter_cons_of_pos (by simp [trip]), List.map_cons, visitUnder, trip]
      exact congrArg _ ih

theorem schedules_visits :
    schedules (t.rows.map t.visit) = (t.arranged.map t.visitUnder).foldr prepend [] := by
  have sorted : stableSort Visit.le (named (t.rows.map t.visit)) = t.arranged.map t.visitUnder := by
    rw [named_visits, arranged, stableSort_eq, stableSort_eq]
    have each : ∀ a ∈ t.withTrip, ∀ b ∈ t.withTrip,
        Visit.le (t.visitUnder a) (t.visitUnder b) = Visit.le (t.visitUnder a) (t.visitUnder b) :=
      fun _ _ _ _ => rfl
    exact (List.map_mergeSort each).symm
  exact congrArg (List.foldr prepend []) sorted

variable {t}

theorem stopTimesOf_eq (trip : Option String) :
    t.stopTimesOf trip = t.rows.filter fun row =>
      decide (t.cell "trip_id" row = trip) && (t.cell "trip_id" row).isSome :=
  List.filter_congr fun _ _ => Bool.and_comm _ _

theorem isSome_of_arranged {row : Row} (member : row ∈ t.arranged) :
    (t.cell "trip_id" row).isSome = true := by
  rw [arranged, stableSort_eq, List.mem_mergeSort] at member
  exact (List.mem_filter.mp member).2

theorem visitsTo_arranged (trip : String) :
    visitsTo trip (t.arranged.map t.visitUnder) = (t.visiting (some trip)).map t.visit := by
  rw [visitsTo, visiting, List.filter_map, List.map_map]
  have same : (t.arranged.filter fun row => (t.visitUnder row).1 = trip) =
      t.arranged.filter fun row => t.cell "trip_id" row = some trip := by
    refine List.filter_congr fun row member => ?_
    rcases Option.isSome_iff_exists.mp (isSome_of_arranged member) with ⟨id, here⟩
    simp [visitUnder, here]
  exact congrArg (List.map t.visit) same

section Order

variable {κ : Type} [LinearOrder κ] {key : Row → κ}
  (compares : ∀ a ∈ t.rows, ∀ b ∈ t.rows,
    (t.visit a).order.le (t.visit b).order = decide (key a ≤ key b))

include compares

/-- By any key that compares as the sort does, the rows are in stable order of trip and key. -/
theorem arranged_stable :
    StableOrder (fun row => toLex ((t.cell "trip_id" row).getD "", key row)) t.withTrip
      t.arranged := by
  have order := stableOrder_stableSort
    (fun row => toLex ((t.cell "trip_id" row).getD "", key row)) t.withTrip
  rwa [← stableSort_congr fun a ha b hb => ?_] at order
  have ha : a ∈ t.rows := (List.mem_filter.mp ha).1
  have hb : b ∈ t.rows := (List.mem_filter.mp hb).1
  rw [Visit.le, visitUnder, visitUnder, compares a ha b hb, Bool.eq_iff_iff, decide_eq_true_iff,
    Prod.Lex.toLex_le_toLex]
  simp only [Bool.or_eq_true, Bool.and_eq_true, decide_eq_true_iff, beq_iff_eq]

theorem visiting_stable (trip : Option String) :
    StableOrder key (t.stopTimesOf trip) (t.visiting trip) := by
  have own := (arranged_stable compares).within (fun row => t.cell "trip_id" row = trip)
    fun row _ here => congrArg (·.getD "") (of_decide_eq_true here)
  rwa [withTrip, List.filter_filter, ← stopTimesOf_eq] at own

theorem ascends_of_compares :
    t.arranged.Pairwise fun a b => (t.visitUnder a).1 ≤ (t.visitUnder b).1 := by
  refine (arranged_stable compares).ascending.imp fun {a b} le => ?_
  rcases Prod.Lex.toLex_le_toLex.mp le with less | ⟨same, -⟩
  · exact less.le
  · exact same.le

end Order

/-! ## Visiting order -/

/-- The sequence numbers as they are read. -/
def sequences (t : Table) : List Reading := readings (t.rows.map (t.cell "stop_sequence"))

/-- The second list is the first one in the order of the sequence numbers, where rows of equal
number keep their order. A column of sequence numbers that stays one of texts promises no order. -/
structure InTurn (t : Table) (rows ordered : List Row) : Prop where
  perm : ordered.Perm rows
  /-- Integers, and numbers that their doubles tell apart, are in the order of exact values. -/
  exact : staysText t.sequences = false →
    t.sequences.all Reading.isWhole = true ∨ ToldByDoubles (rows.map (t.cell "stop_sequence")) →
    StableOrder (fun row => exactAt (t.cell "stop_sequence" row)) rows ordered
  rounded : staysText t.sequences = false → t.sequences.all Reading.isWhole = false →
    StableOrder (fun row => roundedAt (t.cell "stop_sequence" row)) rows ordered

section Compares

variable {a b : Row}

theorem compares_text (text : staysText t.sequences = true) :
    (t.visit a).order.le (t.visit b).order =
      decide (textAt (t.cell "stop_sequence" a) ≤ textAt (t.cell "stop_sequence" b)) := by
  have keys : keyOf (readings (t.rows.map (t.cell "stop_sequence"))) = textKey := keyOf_text text
  rw [visit, visit, keys]
  exact textKey_le

theorem compares_exact (number : staysText t.sequences = false)
    (whole : t.sequences.all Reading.isWhole = true) (ha : a ∈ t.rows) (hb : b ∈ t.rows) :
    (t.visit a).order.le (t.visit b).order =
      decide (exactAt (t.cell "stop_sequence" a) ≤ exactAt (t.cell "stop_sequence" b)) := by
  have keys : keyOf (readings (t.rows.map (t.cell "stop_sequence"))) = _ :=
    keyOf_whole number whole
  rw [sequences, readings, List.map_map, List.all_map, List.all_eq_true] at whole
  rw [visit, visit, keys]
  exact wholeKey_le (whole a ha) (whole b hb)

theorem compares_rounded (number : staysText t.sequences = false)
    (mixed : t.sequences.all Reading.isWhole = false) :
    (t.visit a).order.le (t.visit b).order =
      decide (roundedAt (t.cell "stop_sequence" a) ≤ roundedAt (t.cell "stop_sequence" b)) := by
  have keys : keyOf (readings (t.rows.map (t.cell "stop_sequence"))) = _ :=
    keyOf_real number mixed
  rw [visit, visit, keys]
  exact realKey_le

end Compares

theorem arranged_ascends (t : Table) :
    t.arranged.Pairwise fun a b => (t.visitUnder a).1 ≤ (t.visitUnder b).1 := by
  cases text : staysText t.sequences with
  | true => exact ascends_of_compares fun a _ b _ => compares_text text
  | false =>
    cases whole : t.sequences.all Reading.isWhole with
    | true => exact ascends_of_compares fun a ha b hb => compares_exact text whole ha hb
    | false => exact ascends_of_compares fun a _ b _ => compares_rounded text whole

theorem visiting_perm (trip : Option String) : (t.visiting trip).Perm (t.stopTimesOf trip) := by
  have sorted : t.arranged.Perm t.withTrip := by
    rw [arranged, stableSort_eq]
    exact List.mergeSort_perm _ _
  have own := sorted.filter fun row => t.cell "trip_id" row = trip
  rwa [withTrip, List.filter_filter, ← stopTimesOf_eq] at own

/-- The rows of a trip are visited in the order of their sequence numbers. -/
theorem inTurn_visiting (sortable : t.Sortable) (trip : Option String) :
    t.InTurn (t.stopTimesOf trip) (t.visiting trip) := by
  have rounded : staysText t.sequences = false → t.sequences.all Reading.isWhole = false →
      StableOrder (fun row => roundedAt (t.cell "stop_sequence" row)) (t.stopTimesOf trip)
        (t.visiting trip) :=
    fun number mixed => visiting_stable (fun _ _ _ _ => compares_rounded number mixed) trip
  refine ⟨visiting_perm trip, fun number told => ?_, rounded⟩
  cases whole : t.sequences.all Reading.isWhole with
  | true => exact visiting_stable (fun _ ha _ hb => compares_exact number whole ha hb) trip
  | false =>
    have told := told.resolve_left (Bool.eq_false_iff.mp whole)
    have calm : ∀ cell ∈ (t.stopTimesOf trip).map (t.cell "stop_sequence"), ∀ i,
        sortFault? cell i = none := by
      intro cell member
      rcases List.mem_map.mp member with ⟨row, here, rfl⟩
      exact sortable.numbers _ (List.mem_map_of_mem (List.mem_filter.mp here).1)
    exact (rounded number whole).rekey fun a ha b hb =>
      told.le_iff calm (List.mem_map_of_mem ha) (List.mem_map_of_mem hb)

theorem visiting_none : t.visiting none = [] := by
  refine List.filter_eq_nil_iff.mpr fun row member here => ?_
  have some := isSome_of_arranged member
  rw [of_decide_eq_true here] at some
  cases some

/-- A trip without rows has no schedule. Any other one has a schedule with the visits in its
rows. -/
theorem scheduleOf_visits (trip : Option String) :
    scheduleOf (schedules (t.rows.map t.visit)) trip = none ∧ t.visiting trip = [] ∨
      ∃ id, scheduleOf (schedules (t.rows.map t.visit)) trip =
        some ⟨id, (t.visiting trip).map t.visit⟩ := by
  cases trip with
  | none => exact .inl ⟨rfl, visiting_none⟩
  | some id =>
    have ascending : (t.arranged.map t.visitUnder).Pairwise fun v w => v.1 ≤ w.1 :=
      List.pairwise_map.mpr t.arranged_ascends
    rw [scheduleOf, Option.bind_some, schedules_visits, find?_foldr_prepend ascending,
      visitsTo_arranged]
    split_ifs with none
    · exact .inl ⟨rfl, List.map_eq_nil_iff.mp none⟩
    · exact .inr ⟨id, rfl⟩

/-! ## Distances -/

/-- Whether a row has a distance: there is a column of distances, and its cell holds a number. -/
def measures (t : Table) (row : Row) : Bool :=
  (t.sheet.column? "shape_dist_traveled").isSome &&
    (readingOf (t.cell "shape_dist_traveled" row)).double?.isSome

/-- The distances along some rows, one for each of them, or none where a row has no distance. -/
structure Travelled (t : Table) (ordered : List Row) (travelled : List Float) : Prop where
  complete : (∀ row ∈ ordered, t.measures row = true) →
    travelled = ordered.map (t.real "shape_dist_traveled")
  lacking : (∃ row ∈ ordered, t.measures row = false) → travelled = []
  /-- A distance is the double that the exact number is rounded to. -/
  near : ∀ row ∈ ordered, t.measures row = true →
    ∀ q, numberIn? (t.cell "shape_dist_traveled" row) = some q →
      Stands q (place (t.real "shape_dist_traveled" row))

theorem distance_visit (row : Row) :
    ((t.visit row).distance.filter fun x => !x.isNaN) =
      if t.measures row then some (t.real "shape_dist_traveled" row) else none := by
  have distance : (t.visit row).distance = (t.sheet.column? "shape_dist_traveled").map
      fun _ => t.real "shape_dist_traveled" row := rfl
  have number : (readingOf (t.cell "shape_dist_traveled" row)).double?.isSome =
      !(t.real "shape_dist_traveled" row).isNaN := by
    rw [Bool.eq_iff_iff, Bool.not_eq_true']
    exact (isNaN_realOf _).symm
  rw [distance, measures, number]
  cases t.sheet.column? "shape_dist_traveled" with
  | none => rfl
  | some i => exact Option.filter_some

theorem travelled?_visits (id : String) (rows : List Row) :
    (⟨id, rows.map t.visit⟩ : Schedule).travelled? =
      if rows.all t.measures then some (rows.map (t.real "shape_dist_traveled")) else none := by
  unfold Schedule.travelled?
  induction rows with
  | nil => rfl
  | cons row rows ih =>
    rw [List.map_cons, List.mapM_cons, distance_visit, ih, List.all_cons, List.map_cons]
    cases t.measures row with
    | false => rfl
    | true =>
      cases rows.all t.measures with
      | false => rfl
      | true => rfl

/-- The distances of a trip are the ones along its rows. -/
theorem travelled_visiting (trip : Option String) :
    t.Travelled (t.visiting trip)
      (((scheduleOf (schedules (t.rows.map t.visit)) trip).bind (·.travelled?)).getD []) := by
  have near : ∀ row ∈ t.visiting trip, t.measures row = true →
      ∀ q, numberIn? (t.cell "shape_dist_traveled" row) = some q →
        Stands q (place (t.real "shape_dist_traveled" row)) := by
    intro row _ measured q number
    rcases Option.isSome_iff_exists.mp (Bool.and_eq_true_iff.mp measured).2 with ⟨x, read⟩
    exact stands_realOf _ read number
  rcases t.scheduleOf_visits trip with ⟨none, empty⟩ | ⟨id, found⟩
  · rw [none, empty]
    refine ⟨fun _ => rfl, fun _ => rfl, ?_⟩
    intro row member
    cases member
  · rw [found, Option.bind_some, travelled?_visits]
    refine ⟨fun all => ?_, fun ⟨row, member, lacks⟩ => ?_, near⟩
    · rw [if_pos (List.all_eq_true.mpr all)]
      rfl
    · rw [if_neg fun all => ?_]
      · rfl
      · rw [List.all_eq_true.mp all row member] at lacks
        cases lacks

/-- The stops of a trip are the ones in its rows, where one column holds stops. -/
theorem stops_visiting (once : t.repeats "stop_id" = false) (trip : Option String) :
    ((scheduleOf (schedules (t.rows.map t.visit)) trip).map (stopsOf t)).getD [] =
      (t.visiting trip).map fun row => Ident.ofCell? (t.cell "stop_id" row) := by
  rcases t.scheduleOf_visits trip with ⟨none, empty⟩ | ⟨id, found⟩
  · rw [none, empty]
    rfl
  · rw [found, Option.map_some, Option.getD_some, stopsOf, if_neg (Bool.eq_false_iff.mp once),
      Schedule.stops, List.map_map]
    rfl

theorem Travelled.parallel {ordered : List Row} {travelled : List Float}
    (h : t.Travelled ordered travelled) : travelled = [] ∨ travelled.length = ordered.length := by
  by_cases all : ∀ row ∈ ordered, t.measures row = true
  · exact .inr (by rw [h.complete all, List.length_map])
  · simp only [not_forall, Bool.not_eq_true] at all
    rcases all with ⟨row, member, lacks⟩
    exact .inl (h.lacking ⟨row, member, lacks⟩)

end Table

/-! ## Trips -/

/-- The first place where a pass has a shape with an identifier is its index. -/
def Pass.Holds (pass : Pass) (id : String) (index : Int) : Prop :=
  ∃ k : ℕ, pass.ids[k]? = some (.text id) ∧ (∀ j < k, pass.ids[j]? ≠ some (.text id)) ∧
    index = (pass.offset + k : ℕ)

/-- A trip is what a row of the table of trips makes of it, with the stop times in some order. -/
structure Table.TripIn (table times : Table) (pass : Pass) (order : List Row → List Row → Prop)
    (row : Row) (trip : Trip) : Prop where
  id : trip.id = Ident.ofCell? (table.cell "trip_id" row)
  /-- The visits are all rows of the trip, in order. -/
  visits : ∃ ordered, order (times.stopTimesOf (table.cell "trip_id" row)) ordered ∧
    trip.stops = ordered.map (fun visit => Ident.ofCell? (times.cell "stop_id" visit)) ∧
    times.Travelled ordered trip.travelled
  parallel : trip.travelled = [] ∨ trip.travelled.length = trip.stops.length
  shape : ∀ index, trip.shape = some index ↔
    ∃ id, table.cell "shape_id" row = some id ∧ id ≠ "" ∧ pass.Holds id index

theorem Pass.holds_iff_find? {pass : Pass} {id : String} {index : Int} :
    pass.Holds id index ↔ (pass.find? (.text id)).map Int.ofNat = some index := by
  rw [find?, Option.map_map, Option.map_eq_some_iff]
  simp only [List.findIdx?_eq_some_iff_getElem]
  constructor
  · rintro ⟨k, here, first, rfl⟩
    rcases List.getElem?_eq_some_iff.mp here with ⟨within, same⟩
    refine ⟨k, ⟨within, by simpa using same, fun j less => ?_⟩, rfl⟩
    have other := first j less
    rw [List.getElem?_eq_getElem (less.trans within), Ne, Option.some.injEq] at other
    simpa using other
  · rintro ⟨k, ⟨within, same, first⟩, rfl⟩
    refine ⟨k, ?_, fun j less => ?_, rfl⟩
    · rw [List.getElem?_eq_getElem within, of_decide_eq_true same]
    · rw [List.getElem?_eq_getElem (less.trans within), Ne, Option.some.injEq]
      simpa using first j less

theorem shapeIndex?_eq_some {pass : Pass} {cell : Option String} {index : Int} :
    shapeIndex? pass cell = some index ↔
      ∃ id, cell = some id ∧ id ≠ "" ∧ pass.Holds id index := by
  cases cell with
  | none =>
    refine iff_of_false ?_ ?_
    · rintro ⟨⟩
    · rintro ⟨id, ⟨⟩, -⟩
  | some s =>
    have known : (ShapeId.ofTableCell? (some s)).bind pass.find? = pass.find? (.text s) := rfl
    rw [shapeIndex?, known]
    simp only [Option.some.injEq, exists_eq_left', Pass.holds_iff_find?]
    by_cases empty : s = ""
    · rw [if_neg (by simp [namesShape, empty])]
      exact iff_of_false nofun fun named => named.1 empty
    · rw [if_pos (by simpa [namesShape] using empty)]
      exact (and_iff_right empty).symm

/-- Where a table has one column of shapes, or none, its rows name the shapes in their cells. -/
theorem Table.tripShapes_eq {t : Table} (once : t.repeats "shape_id" = false) :
    ∃ shape : Row → Option String, t.tripShapes = t.rows.map shape ∧
      ∀ pass row, shapeIndex? pass (shape row) = shapeIndex? pass (t.cell "shape_id" row) := by
  rw [tripShapes, listed, if_neg (Bool.eq_false_iff.mp once), cells?]
  unfold cell
  cases t.sheet.column? "shape_id" with
  | none => exact ⟨fun _ => some "", rfl, fun _ _ => rfl⟩
  | some i => exact ⟨(·.cell? i), rfl, fun _ _ => rfl⟩

theorem tripIn_tripOf (table : Table) (pass : Pass) {times : Table} (sortable : times.Sortable)
    (once : times.repeats "stop_id" = false) (row : Row) :
    table.TripIn times pass times.InTurn row (tripOf pass times (schedules (times.rows.map times.visit))
      (table.cell "trip_id" row) (table.cell "shape_id" row)) := by
  have travelled := times.travelled_visiting (table.cell "trip_id" row)
  have stops := Table.stops_visiting once (table.cell "trip_id" row)
  refine ⟨rfl, ⟨_, Table.inTurn_visiting sortable _, stops, travelled⟩, ?_, ?_⟩
  · refine travelled.parallel.imp id fun along => along.trans ?_
    exact (List.length_map _).symm.trans (congrArg List.length stops.symm)
  · exact fun index => shapeIndex?_eq_some

/-- Where no two columns share a name that trips are made from, a feed has one trip for each row. -/
theorem readTrips_rows {directory : String} {feed : Feed} {pass : Pass} {table times : Table}
    {found : List Trip} {lines : List Line}
    (opened : Table.read directory tripTableName feed.trips tripColumns = .ok table)
    (opened' : Table.read directory stopTimeTableName feed.stopTimes stopTimeColumns = .ok times)
    (trips : table.repeats "trip_id" = false) (shapes : table.repeats "shape_id" = false)
    (stops : times.repeats "stop_id" = false)
    (accepted : readTrips directory feed pass = .ok (found, lines)) :
    List.Forall₂ (table.TripIn times pass times.InTurn) table.rows found := by
  rcases readTrips_eq_ok accepted with ⟨_, _, vs, again, again', visited, -, made⟩
  cases opened.symm.trans again
  cases opened'.symm.trans again'
  rcases visits_eq_ok.mp visited with ⟨sortable, rfl⟩
  rcases Table.tripShapes_eq shapes with ⟨shape, names, same⟩
  rw [Table.tripIds_eq trips, names, List.zipWith_map, List.zipWith_self] at made
  rw [made, List.forall₂_map_right_iff, List.forall₂_same]
  intro row _
  have trip := tripIn_tripOf table pass sortable stops row
  rw [tripOf, ← same] at trip
  exact trip

/-! ### Feeds that are read -/

/-- A pass that has loaded one shape. -/
def oneShape : Pass := ⟨0, [.text "s"], [], []⟩

/-- Rows of two trips by turns, with a tie, with a distance and a number left blank, and with rows
of a trip that is not listed. -/
def mingled : Feed :=
  feedOf [] [["t", "s"], ["u", "r"], ["v", ""]]
    [["t", "b", "2", "5"], ["u", "c", "1", ""], ["t", "e", "", "9"], ["t", "a", "1", "0"],
      ["u", "d", "1", "7"], ["w", "f", "1", "1"]] []

def mingledTrips : List Trip :=
  [⟨.text "t", some 0, [.text "a", .text "b", .text "e"], [0, 5, 9]⟩,
    ⟨.text "u", none, [.text "c", .text "d"], []⟩, ⟨.text "v", none, [], []⟩]

theorem readTrips_rows_mingled :
    ∃ table times lines,
      Table.read "" tripTableName mingled.trips tripColumns = .ok table ∧
      Table.read "" stopTimeTableName mingled.stopTimes stopTimeColumns = .ok times ∧
      table.repeats "trip_id" = false ∧ table.repeats "shape_id" = false ∧
      times.repeats "stop_id" = false ∧
      readTrips "" mingled oneShape = .ok (mingledTrips, lines) ∧
      List.Forall₂ (table.TripIn times oneShape times.InTurn) table.rows mingledTrips := by
  have once : (Table.read "" tripTableName mingled.trips tripColumns).toOption.any (fun table =>
      !table.repeats "trip_id" && !table.repeats "shape_id") = true := by decide +kernel
  have once' : (Table.read "" stopTimeTableName mingled.stopTimes stopTimeColumns).toOption.any
      (fun times => !times.repeats "stop_id") = true := by decide +kernel
  have given : (readTrips "" mingled oneShape).toOption.any (fun read =>
      read.1 = mingledTrips) = true := by decide +kernel
  rcases exists_ok_of_any once with ⟨table, opened, names⟩
  rcases exists_ok_of_any once' with ⟨times, opened', stops⟩
  rcases exists_ok_of_any given with ⟨⟨found, lines⟩, accepted, same⟩
  cases of_decide_eq_true same
  simp only [Bool.and_eq_true, Bool.not_eq_true'] at names stops
  exact ⟨table, times, lines, opened, opened', names.1, names.2, stops, accepted,
    readTrips_rows opened opened' names.1 names.2 stops accepted⟩

/-! ### Feeds with other columns -/

/-- Every trip that is read is what its row makes of it, with the stop times in the order of their
exact numbers. -/
def Feed.ReadsExactly (feed : Feed) (pass : Pass) : Prop :=
  ∀ table times found lines,
    Table.read "" tripTableName feed.trips tripColumns = .ok table →
    Table.read "" stopTimeTableName feed.stopTimes stopTimeColumns = .ok times →
    readTrips "" feed pass = .ok (found, lines) →
    List.Forall₂ (table.TripIn times pass (StableOrder fun row =>
      exactAt (times.cell "stop_sequence" row))) table.rows found

/-- The stops of a trip in the order of their exact numbers. -/
def Table.exactStops (t : Table) (trip : Option String) : List Ident :=
  (stableSort (fun a b => exactAt (t.cell "stop_sequence" a) ≤ exactAt (t.cell "stop_sequence" b))
    (t.stopTimesOf trip)).map fun row => Ident.ofCell? (t.cell "stop_id" row)

/-- One of the numbers is no integer, so that the other two have the same double. -/
def halved : Feed :=
  feedOf [] [["t", "s"]]
    [["t", "a", "0.5", ""], ["t", "b", "9007199254740993", ""],
      ["t", "c", "9007199254740992", ""]] []

/-- One of the numbers needs all 64 bits and another one is missing, so that all are texts. -/
def spelled : Feed :=
  feedOf [] [["t", "s"]]
    [["t", "a", "9223372036854775808", ""], ["t", "b", "", ""], ["t", "c", "10", ""],
      ["t", "d", "9", ""]] []

/-- The stops that are read for the only trip of a feed, and the ones in the order of their exact
numbers. -/
def Feed.HasStops (feed : Feed) (pass : Pass) (trip : String) (stops exact : List Ident) : Prop :=
  (Table.read "" tripTableName feed.trips tripColumns).toOption.any (fun table =>
      table.rows.map (table.cell "trip_id") = [some trip]) = true ∧
    (Table.read "" stopTimeTableName feed.stopTimes stopTimeColumns).toOption.any (fun times =>
      times.exactStops (some trip) = exact) = true ∧
    (readTrips "" feed pass).toOption.any (fun read => read.1.map (·.stops) = [stops]) = true

instance (feed : Feed) (pass : Pass) (trip : String) (stops exact : List Ident) :
    Decidable (feed.HasStops pass trip stops exact) :=
  inferInstanceAs (Decidable (_ ∧ _))

/-- The stable order is one, so that a feed with other stops is not read in it. -/
theorem Feed.HasStops.not_readsExactly {feed : Feed} {pass : Pass} {trip : String}
    {stops exact : List Ident} (has : feed.HasStops pass trip stops exact)
    (differ : exact ≠ stops) : ¬ feed.ReadsExactly pass := by
  intro reads
  rcases has with ⟨one, sorted, given⟩
  rcases exists_ok_of_any one with ⟨table, opened, one⟩
  rcases exists_ok_of_any sorted with ⟨times, opened', sorted⟩
  rcases exists_ok_of_any given with ⟨⟨found, lines⟩, accepted, given⟩
  have one := of_decide_eq_true one
  have sorted := of_decide_eq_true sorted
  have given := of_decide_eq_true given
  have rows := reads table times found lines opened opened' accepted
  rcases List.map_eq_singleton_iff.mp one with ⟨row, onlyRow, named⟩
  rcases List.map_eq_singleton_iff.mp given with ⟨read, onlyTrip, visited⟩
  simp only at onlyTrip
  rw [onlyRow, onlyTrip, List.forall₂_cons] at rows
  rcases rows.1.visits with ⟨ordered, order, along, -⟩
  rw [named] at order
  have same := (stableOrder_stableSort _ _).eq order
  rw [← same, visited] at along
  exact differ (sorted.symm.trans along.symm)

/-- A feed of two files that are written from rows, each with its own header. -/
def headed (trips stopTimes : List (List String)) : Feed :=
  { shapes := none, trips := some (Csv.fileOf trips), stopTimes := some (Csv.fileOf stopTimes)
    stops := none }

/-- The names of two columns are equal without their blanks: of identifiers of trips, -/
def twoTripIds : Feed :=
  headed [["trip_id", " trip_id"], ["t", "t"], ["u", "u"]]
    [["trip_id", "stop_id", "stop_sequence"], ["t", "a", "1"]]

/-- of identifiers of shapes, -/
def twoShapeIds : Feed :=
  headed [["trip_id", "shape_id", " shape_id"], ["t", "s", "s"], ["u", "s", "s"]]
    [["trip_id", "stop_id", "stop_sequence"], ["t", "a", "1"]]

/-- and of stops. -/
def twoStopIds : Feed :=
  headed [["trip_id"], ["t"]]
    [["trip_id", "stop_id", " stop_id", "stop_sequence"], ["t", "a", "a", "1"]]

/-- The identifiers and shapes of the trips that are read, and those in the rows. -/
def Feed.HasNames (feed : Feed) (pass : Pass) (names inRows : List (Ident × Option Int)) : Prop :=
  (Table.read "" tripTableName feed.trips tripColumns).toOption.any (fun table =>
      table.rows.map (fun row => (Ident.ofCell? (table.cell "trip_id" row),
        shapeIndex? pass (table.cell "shape_id" row))) = inRows) = true ∧
    (Table.read "" stopTimeTableName feed.stopTimes stopTimeColumns).toOption.any
      (fun _ => true) = true ∧
    (readTrips "" feed pass).toOption.any (fun read =>
      read.1.map (fun trip => (trip.id, trip.shape)) = names) = true

instance (feed : Feed) (pass : Pass) (names inRows : List (Ident × Option Int)) :
    Decidable (feed.HasNames pass names inRows) :=
  inferInstanceAs (Decidable (_ ∧ _))

theorem Feed.HasNames.not_readsExactly {feed : Feed} {pass : Pass}
    {names inRows : List (Ident × Option Int)} (has : feed.HasNames pass names inRows)
    (differ : inRows ≠ names) : ¬ feed.ReadsExactly pass := by
  intro reads
  rcases has with ⟨listed, other, given⟩
  rcases exists_ok_of_any listed with ⟨table, opened, listed⟩
  rcases exists_ok_of_any other with ⟨times, opened', -⟩
  rcases exists_ok_of_any given with ⟨⟨found, lines⟩, accepted, given⟩
  have rows := reads table times found lines opened opened' accepted
  have same : (table.rows.map fun row => (Ident.ofCell? (table.cell "trip_id" row),
      shapeIndex? pass (table.cell "shape_id" row))) =
        found.map fun trip => (trip.id, trip.shape) := by
    rw [← List.forall₂_eq_eq_eq, List.forall₂_map_left_iff, List.forall₂_map_right_iff]
    refine rows.imp fun row trip made => Prod.ext made.id.symm (Option.ext fun index => ?_)
    exact shapeIndex?_eq_some.trans (made.shape index).symm
  exact differ ((of_decide_eq_true listed).symm.trans (same.trans (of_decide_eq_true given)))

theorem not_readsExactly :
    ¬ halved.ReadsExactly oneShape ∧ ¬ spelled.ReadsExactly oneShape ∧
      ¬ twoTripIds.ReadsExactly oneShape ∧ ¬ twoShapeIds.ReadsExactly oneShape ∧
      ¬ twoStopIds.ReadsExactly oneShape := by
  have halves : halved.HasStops oneShape "t" [.text "a", .text "b", .text "c"]
      [.text "a", .text "c", .text "b"] := by decide +kernel
  have texts : spelled.HasStops oneShape "t" [.text "b", .text "c", .text "d", .text "a"]
      [.text "d", .text "c", .text "a", .text "b"] := by decide +kernel
  have trips : twoTripIds.HasNames oneShape [(.text "trip_id", none), (.text "trip_id", none)]
      [(.text "t", none), (.text "u", none)] := by decide +kernel
  have shapes : twoShapeIds.HasNames oneShape [(.text "t", none), (.text "u", none)]
      [(.text "t", some 0), (.text "u", some 0)] := by decide +kernel
  have stops : twoStopIds.HasStops oneShape "t" [.text "stop_id", .text "stop_id"]
      [.text "a"] := by decide +kernel
  exact ⟨halves.not_readsExactly (by decide), texts.not_readsExactly (by decide),
    trips.not_readsExactly (by decide), shapes.not_readsExactly (by decide),
    stops.not_readsExactly (by decide)⟩

end StopAlign
