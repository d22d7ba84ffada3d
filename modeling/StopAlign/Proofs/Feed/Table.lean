import StopAlign.Feed.Table
import StopAlign.Proofs.Table.Blocks

/-!
# Table — the rows of a file in another order

- `Table.Reordered`, `read_reordered` : the tables of files with their rows in another order
- `Table.cell`, `cells_eq`   : the cell of a row under a name; a column is one cell for each row
- `numbers_eq_ok`, `numbers?_eq_ok` : the same for a column of numbers
- `feedOf`                   : a feed that is written from rows
-/

namespace StopAlign

open Outcome

namespace Table

/-- Two tables with the same columns and the same rows, in any order. -/
structure Reordered (t u : Table) : Prop where
  columns : u.sheet.columns = t.sheet.columns
  rowNames : u.sheet.rowNames = t.sheet.rowNames
  rows : u.rows.Perm t.rows

/-- The table of a file whose rows are in another order. -/
theorem read_reordered {a b : Option (List UInt8)} (reordered : Option.Rel Csv.Reordered a b)
    {directory name : String} {required : List String} {t : Table}
    (h : read directory name a required = .ok t) :
    ∃ u, read directory name b required = .ok u ∧ t.Reordered u := by
  rcases reordered with reordered | -
  swap
  · cases h
  rcases bind_eq_ok.mp h with ⟨s, opened, h⟩
  rcases Sheet.ofRows_reordered reordered opened with ⟨r, names, rows, rows', again, su, ru, perm⟩
  rcases bind_eq_ok.mp h with ⟨all, listed, h⟩
  rw [su.rows_eq] at listed
  cases listed
  have columns : r.columns = s.columns := by rw [ru.columns, su.columns]
  cases lacking : s.missing required with
  | cons first others =>
    rw [lacking] at h
    cases h
  | nil =>
    rw [lacking] at h
    cases h
    refine ⟨⟨r, (Sheet.filled rows').map (Sheet.cellsOf names.length)⟩, ?_, columns, ?_, ?_⟩
    · refine bind_eq_ok.mpr ⟨r, again, bind_eq_ok.mpr ⟨_, ru.rows_eq, ?_⟩⟩
      rw [Sheet.missing_congr columns, lacking]
      rfl
    · rw [ru.rowNames, su.rowNames]
    · exact (Sheet.filled_perm perm).map _

/-! ## Columns -/

section Columns

variable (t : Table) (name : String)

/-- The cell of a row under a name. -/
def cell (row : Row) : Option String := (t.sheet.column? name).bind row.cell?

theorem cells_eq : t.cells name = t.rows.map (t.cell name) := by
  unfold cells cells? cell
  cases t.sheet.column? name <;> rfl

variable {t name}

theorem numbers?_eq_ok {given : Option (List (Option String))} :
    t.numbers? name = .ok given ↔ t.repeats name = false ∧ given = t.cells? name := by
  rw [numbers?]
  by_cases repeated : t.repeats name = true
  · rw [if_pos repeated, repeated]
    constructor
    · intro h
      cases h
    · rintro ⟨h, -⟩
      cases h
  · rw [if_neg repeated, Bool.eq_false_iff.mpr repeated]
    constructor
    · intro h
      cases h
      exact ⟨rfl, rfl⟩
    · rintro ⟨-, rfl⟩
      rfl

theorem numbers_eq_ok {cells : List (Option String)} :
    t.numbers name = .ok cells ↔ t.repeats name = false ∧ cells = t.rows.map (t.cell name) := by
  rw [← cells_eq, numbers]
  simp only [bind_eq_ok, numbers?_eq_ok]
  constructor
  · rintro ⟨_, ⟨one, rfl⟩, h⟩
    cases h
    exact ⟨one, rfl⟩
  · rintro ⟨one, rfl⟩
    exact ⟨_, ⟨one, rfl⟩, rfl⟩

end Columns

namespace Reordered

variable {t u : Table} (reordered : t.Reordered u)

include reordered

theorem columnsOf_eq (name : String) : u.sheet.columnsOf name = t.sheet.columnsOf name :=
  Sheet.columnsOf_congr reordered.columns name

theorem column?_eq (name : String) : u.sheet.column? name = t.sheet.column? name :=
  Sheet.column?_congr reordered.columns name

theorem repeats_eq (name : String) : u.repeats name = t.repeats name := by
  rw [repeats, repeats, reordered.columnsOf_eq]

theorem repeated_eq (name : String) : u.repeated name = t.repeated name := by
  rw [repeated, repeated, reordered.columnsOf_eq]

theorem cell_eq (name : String) : u.cell name = t.cell name := by
  funext row
  rw [cell, cell, reordered.column?_eq]

/-- What the rows of two such tables become one by one. -/
theorem map_perm {α : Type} (f : Row → α) : (u.rows.map f).Perm (t.rows.map f) :=
  reordered.rows.map f

end Reordered

end Table

/-! ## Feeds from rows -/

/-- A feed with the given rows below the usual headers. -/
def feedOf (shapes trips stopTimes stops : List (List String)) : Feed :=
  { shapes := some (Csv.fileOf (["shape_id", "shape_pt_lat", "shape_pt_lon", "shape_pt_sequence",
      "shape_dist_traveled"] :: shapes))
    trips := some (Csv.fileOf (["trip_id", "shape_id"] :: trips))
    stopTimes := some (Csv.fileOf (["trip_id", "stop_id", "stop_sequence", "shape_dist_traveled"] ::
      stopTimes))
    stops := some (Csv.fileOf (["stop_id", "stop_lat", "stop_lon"] :: stops)) }

end StopAlign
