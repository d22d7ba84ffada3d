import StopAlign.Feed.Stops
import StopAlign.Proofs.Dictionary
import StopAlign.Proofs.Feed.Table
import StopAlign.Proofs.Table.Numeric

/-!
# Stops — the coordinates of stops whose rows come in another order

- `Table.stopRow`, `stopRows_eq_ok` : the stop in a row, once it is known what the columns hold
- `StopList.read_reordered` : the stops of a file whose rows are in another order
-/

namespace StopAlign

open Outcome

namespace Table

/-- The double in a row under a name. -/
def real (t : Table) (name : String) (row : Row) : Float :=
  realOf (integral (readings (t.rows.map (t.cell name)))) (t.cell name row)

theorem reals_cells (t : Table) (name : String) :
    reals (t.rows.map (t.cell name)) = t.rows.map (t.real name) := by
  rw [reals_eq, List.map_map]
  rfl

theorem Reordered.real_eq {t u : Table} (reordered : t.Reordered u) (name : String) :
    u.real name = t.real name := by
  funext row
  rw [real, real, reordered.cell_eq, integral_perm (reordered.map_perm _)]

/-- The stop in a row. -/
def stopRow (t : Table) (row : Row) : StopRow :=
  ⟨t.cell "stop_id" row, ⟨t.real "stop_lat" row, t.real "stop_lon" row⟩⟩

end Table

theorem stopRows_eq_ok {t : Table} {rows : List StopRow} :
    stopRows t = .ok rows ↔
      t.repeats "stop_lat" = false ∧ t.repeats "stop_lon" = false ∧
        rows = t.rows.map t.stopRow := by
  have zipped : ∀ lats lons, lats = t.rows.map (t.cell "stop_lat") →
      lons = t.rows.map (t.cell "stop_lon") →
      List.zipWith StopRow.mk (t.cells "stop_id")
        (List.zipWith Position.mk (reals lats) (reals lons)) = t.rows.map t.stopRow := by
    rintro _ _ rfl rfl
    rw [Table.reals_cells, Table.reals_cells, Table.cells_eq, List.zipWith_map, List.zipWith_self,
      List.zipWith_map, List.zipWith_self]
    rfl
  unfold stopRows
  simp only [bind_eq_ok, Table.numbers_eq_ok]
  constructor
  · rintro ⟨lats, ⟨one, hlats⟩, lons, ⟨one', hlons⟩, h⟩
    rw [zipped lats lons hlats hlons] at h
    cases h
    exact ⟨one, one', rfl⟩
  · rintro ⟨one, one', rfl⟩
    refine ⟨_, ⟨one, rfl⟩, _, ⟨one', rfl⟩, ?_⟩
    rw [zipped _ _ rfl rfl]
    rfl

/-- A name of several columns is listed once for each of them. -/
theorem repeats_of_nodup {t : Table} {name : String} {cells : List (Option String)}
    (distinct : ((t.listed name cells).map Ident.ofCell?).Nodup) : t.repeats name = false := by
  rw [← Bool.not_eq_true]
  intro several
  rw [Table.listed, if_pos several, Table.repeated, List.map_map, Function.comp_def,
    List.map_const', List.nodup_replicate] at distinct
  have many : 1 < (t.sheet.columnsOf name).length := of_decide_eq_true several
  omega

namespace StopList

/-- The identifier and the place of a row. -/
def entry (r : StopRow) : Ident × Point := (Ident.ofCell? r.id, r.place)

/-- What a table of stops lists, if one column holds the identifiers. -/
def ofRows (rows : List StopRow) : StopList :=
  { ids := (rows.filter (·.isPlaced)).map fun r => Ident.ofCell? r.id
    places := (rows.filter (·.isPlaced)).map (·.place)
    left := rows.countP (!·.isPlaced) }

theorem coordinates_ofRows (rows : List StopRow) :
    (ofRows rows).coordinates = .ok (.ofList ((rows.filter (·.isPlaced)).map entry)) := by
  rw [coordinates, ofRows, inStep, if_pos (by simp), List.zip_map']
  rfl

/-- A reading whose identifiers are distinct. -/
theorem read_eq_ok {directory : String} {file : Option (List UInt8)} {l : StopList}
    (h : read directory file = .ok l) (distinct : l.ids.Nodup) :
    ∃ t, Table.read directory stopTableName file stopColumns = .ok t ∧
      stopRows t = .ok (t.rows.map t.stopRow) ∧ t.repeats "stop_id" = false ∧
      l = ofRows (t.rows.map t.stopRow) := by
  rcases bind_eq_ok.mp h with ⟨t, opened, h⟩
  rcases bind_eq_ok.mp h with ⟨rows, listed, h⟩
  have each := (stopRows_eq_ok.mp listed).2.2
  subst each
  cases h
  have one := repeats_of_nodup distinct
  refine ⟨t, opened, listed, one, ?_⟩
  simp [Table.listed, one, ofRows, Function.comp_def]

/-- The stops of a file whose rows are in another order: as many are left out, and each of distinct
identifiers has the same coordinates. -/
theorem read_reordered {a b : Option (List UInt8)} (reordered : Option.Rel Csv.Reordered a b)
    {directory : String} {l : StopList} (h : read directory a = .ok l) (distinct : l.ids.Nodup)
    {d : Dictionary Ident Point} (held : l.coordinates = .ok d) :
    ∃ m d', read directory b = .ok m ∧ m.left = l.left ∧ m.coordinates = .ok d' ∧
      ∀ id, d'.find? id = d.find? id := by
  rcases read_eq_ok h distinct with ⟨t, opened, listed, one, rfl⟩
  rcases Table.read_reordered reordered opened with ⟨u, opened', same⟩
  have row : u.stopRow = t.stopRow := by
    funext r
    simp only [Table.stopRow, same.cell_eq, same.real_eq]
  have listed' : stopRows u = .ok (u.rows.map t.stopRow) := by
    rcases stopRows_eq_ok.mp listed with ⟨lat, lon, -⟩
    rw [← row]
    refine stopRows_eq_ok.mpr ⟨?_, ?_, rfl⟩
    · rw [same.repeats_eq, lat]
    · rw [same.repeats_eq, lon]
  have perm := same.map_perm t.stopRow
  rw [coordinates_ofRows] at held
  cases held
  refine ⟨ofRows (u.rows.map t.stopRow), _, ?_, perm.countP_eq _, coordinates_ofRows _, ?_⟩
  · refine bind_eq_ok.mpr ⟨u, opened', bind_eq_ok.mpr ⟨_, listed', ?_⟩⟩
    have ids : u.listed "stop_id" = id := by
      funext cells
      rw [Table.listed, same.repeats_eq, one]
      rfl
    simp only [ids, id, List.map_map]
    rfl
  · intro id
    have keys : (((t.rows.map t.stopRow).filter (·.isPlaced)).map entry).map (·.1) =
        (ofRows (t.rows.map t.stopRow)).ids := by
      rw [List.map_map]
      rfl
    exact Dictionary.find?_ofList_perm ((perm.filter _).map entry) (keys ▸ distinct) id

end StopList

/-- The same of a reading with its lines of the journal. -/
theorem readStops_reordered {a b : Option (List UInt8)} (reordered : Option.Rel Csv.Reordered a b)
    {directory : String} (distinct : ∀ l, StopList.read directory a = .ok l → l.ids.Nodup)
    {d : Dictionary Ident Point} (h : (readStops directory a).outcome = .ok d) :
    ∃ d', (readStops directory b).outcome = .ok d' ∧ ∀ id, d'.find? id = d.find? id := by
  unfold readStops at h ⊢
  cases listed : StopList.read directory a with
  | error fault =>
    rw [listed] at h
    cases h
  | ok l =>
    rw [listed] at h
    rcases StopList.read_reordered reordered listed (distinct l listed) h
      with ⟨m, d', listed', -, held, same⟩
    rw [listed']
    exact ⟨d', held, same⟩

end StopAlign
