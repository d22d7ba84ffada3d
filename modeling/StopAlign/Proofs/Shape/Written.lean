import StopAlign.Proofs.Shape.Filling
import StopAlign.Proofs.Shape.Table
import StopAlign.Proofs.Table.Csv

/-!
# Written — shape tables that are written and read again

- `ShapeColumn`, `ShapeTexts` : the columns of a shape table, and a row of texts below them
- `shapeFile`             : the file of such rows, the columns in any order
- `Sheet.column?_written`, `Sheet.shapeRow_written` : columns are found and cells stay in them
- `readShapes_shapeFile`  : what is read is what the rows say, one by one
- `load_find`, `load_find_inj` : the shape of an identifier after a load
- `readShapes_written`    : rows come back, and belong to one shape if their identifiers are one text
- `readShapes_overlong`   : a text that is too long spoils the table

The texts are any at all. Numbers are read from them as they are, blanks around a number and all,
and an identifier is not read but kept.
-/

namespace StopAlign

open Outcome

/-! ## Rows of texts -/

inductive ShapeColumn
  | id
  | lat
  | lon
  | sequence
  | travelled
  deriving DecidableEq, Repr

namespace ShapeColumn

def all : List ShapeColumn := [.id, .lat, .lon, .sequence, .travelled]

def name : ShapeColumn → String
  | .id => shapeIdColumn
  | .lat => shapeLatColumn
  | .lon => shapeLonColumn
  | .sequence => shapeSequenceColumn
  | .travelled => shapeTravelledColumn

theorem mem_all (c : ShapeColumn) : c ∈ all := by
  cases c <;> decide

theorem name_inj {c d : ShapeColumn} : c.name = d.name ↔ c = d := by
  cases c <;> cases d <;> decide

theorem trim_name (c : ShapeColumn) : Text.trim c.name = c.name := by
  cases c <;> decide

theorem unmark_name (c : ShapeColumn) : Sheet.unmark c.name = .ok c.name := by
  cases c <;> rfl

theorem fits_name (style : Csv.Style) (c : ShapeColumn) : style.Fits c.name := by
  refine ⟨?_, fun _ => ?_⟩ <;> cases c <;> decide

end ShapeColumn

/-- The texts of a row, one below each column. -/
abbrev ShapeTexts := ShapeColumn → String

namespace ShapeTexts

def of (id lat lon sequence travelled : String) : ShapeTexts
  | .id => id
  | .lat => lat
  | .lon => lon
  | .sequence => sequence
  | .travelled => travelled

/-- The row as it is, whatever its texts are. -/
def row (t : ShapeTexts) : ShapeRow :=
  { id := some (.text (t .id))
    lat := some (.text (t .lat))
    lon := some (.text (t .lon))
    sequence := some (.text (t .sequence))
    travelled := some (.text (t .travelled)) }

/-- A row of texts that all fit into cells. -/
def Short (t : ShapeTexts) : Prop := ∀ c, (t c).length ≤ cellLimit

end ShapeTexts

/-- The header, in a style of its own, and the rows in quotes. -/
def shapeLines (heading : Csv.Style) (order : List ShapeColumn) (rows : List ShapeTexts) :
    List Csv.Line :=
  ⟨heading, order.map (·.name)⟩ :: rows.map fun t => ⟨.quoted, order.map t⟩

/-- The file of rows below columns in some order. -/
def shapeFile (ending : Csv.LineEnd) (heading : Csv.Style) (order : List ShapeColumn)
    (rows : List ShapeTexts) : List UInt8 :=
  Text.encode (Csv.textOf ending (shapeLines heading order rows))

section Order

variable {order : List ShapeColumn} (whole : order.Perm ShapeColumn.all)

include whole

theorem fits_shapeLines (heading : Csv.Style) {rows : List ShapeTexts}
    (short : ∀ t ∈ rows, t.Short) : ∀ l ∈ shapeLines heading order rows, l.Fits := by
  have columns : order ≠ [] := by
    rintro rfl
    cases whole.length_eq
  intro l member
  rcases List.mem_cons.mp member with rfl | inRows
  · refine ⟨by simpa using columns, fun cell inHeader => ?_⟩
    rcases List.mem_map.mp inHeader with ⟨c, -, rfl⟩
    exact c.fits_name heading
  · rcases List.mem_map.mp inRows with ⟨t, here, rfl⟩
    refine ⟨by simpa using columns, fun cell inRow => ?_⟩
    rcases List.mem_map.mp inRow with ⟨c, -, rfl⟩
    exact ⟨short t here c, nofun⟩

end Order

/-! ## Columns by name -/

namespace Sheet

theorem columnNames_distinct (seen : List String) {columns : List ShapeColumn}
    (distinct : columns.Nodup) (unseen : ∀ c ∈ columns, c.name ∉ seen) :
    columnNames seen (columns.map (·.name)) = columns.map fun c => some c.name := by
  induction columns generalizing seen with
  | nil => rfl
  | cons c columns ih =>
    rcases List.nodup_cons.mp distinct with ⟨once, others⟩
    have new : seen.contains c.name = false := by simpa using unseen c List.mem_cons_self
    have later : ∀ d ∈ columns, d.name ∉ c.name :: seen := by
      intro d member taken
      rcases List.mem_cons.mp taken with same | before
      · exact once (ShapeColumn.name_inj.mp same ▸ member)
      · exact unseen d (List.mem_cons_of_mem c member) before
    rw [List.map_cons, List.map_cons, columnNames, new, if_neg Bool.false_ne_true,
      ShapeColumn.trim_name, ih (c.name :: seen) others later]

theorem unmarkHeader_names (position : Nat) (columns : List ShapeColumn) :
    unmarkHeader position (columns.map (·.name)) = .ok (columns.map (·.name)) := by
  cases columns with
  | nil => rfl
  | cons c columns =>
    rw [List.map_cons, unmarkHeader, c.unmark_name]
    split <;> rfl

section Order

variable {order : List ShapeColumn} (whole : order.Perm ShapeColumn.all) {s : Sheet}
  {rows : List (List String)} (upright : s.Upright (order.map (·.name)) rows)

include whole upright

/-- Each column is found where it stands in the header. -/
theorem column?_written (c : ShapeColumn) :
    ∃ j, s.column? c.name = some j ∧ order[j]? = some c := by
  have distinct : order.Nodup := whole.nodup_iff.mpr (by decide)
  have columns : s.columns = order.map fun c => some c.name := by
    rw [upright.columns, columnNames_distinct [] distinct fun _ _ => List.not_mem_nil]
  have place : ∀ j, j ∈ s.columnsOf c.name ↔ order[j]? = some c := by
    intro j
    rw [columnsOf, List.mem_filter, List.mem_range, columns, List.length_map, List.getElem?_map,
      beq_iff_eq, Option.map_eq_some_iff]
    constructor
    · rintro ⟨-, d, here, same⟩
      rw [here, ShapeColumn.name_inj.mp (Option.some.inj same)]
    · intro here
      exact ⟨(List.getElem?_eq_some_iff.mp here).1, c, here, rfl⟩
  rcases List.mem_iff_getElem?.mp (whole.mem_iff.mpr c.mem_all) with ⟨j, here⟩
  -- the last column of a name is one of its columns, and all of these are the same
  cases last : s.column? c.name with
  | none =>
    have nowhere : s.columnsOf c.name = [] := List.getLast?_eq_none_iff.mp last
    have somewhere := (place j).mpr here
    rw [nowhere] at somewhere
    cases somewhere
  | some k => exact ⟨k, rfl, (place k).mp (List.mem_of_getLast? last)⟩

theorem missing_written : s.missing shapeColumns = [] := by
  have found : ∀ c : ShapeColumn, (s.column? c.name).isNone = false := by
    intro c
    rcases column?_written whole upright c with ⟨j, here, -⟩
    rw [here]
    rfl
  have required : shapeColumns =
      [ShapeColumn.id, .lat, .lon, .sequence].map ShapeColumn.name := rfl
  refine List.filter_eq_nil_iff.mpr fun name member => ?_
  rw [required] at member
  rcases List.mem_map.mp member with ⟨c, -, rfl⟩
  rw [found c]
  exact Bool.false_ne_true

theorem shapeCell_written (t : ShapeTexts) (c : ShapeColumn) :
    s.shapeCell (cellsOf order.length (order.map t)) c.name = some (.text (t c)) := by
  rcases column?_written whole upright c with ⟨j, column, here⟩
  have cell : (cellsOf order.length (order.map t))[j]? = some (some (t c)) := by
    rw [cellsOf, List.getElem?_map, List.getElem?_range (List.getElem?_eq_some_iff.mp here).1,
      Option.map_some, List.getElem?_map, here]
    rfl
  rw [shapeCell, column, Option.map_some, Row.cell?, cell]
  rfl

/-- The cells of a row come back in their columns. -/
theorem shapeRow_written (t : ShapeTexts) :
    s.shapeRow (cellsOf order.length (order.map t)) = t.row := by
  have cell := shapeCell_written whole upright t
  rw [shapeRow, ShapeTexts.row, ShapeRow.mk.injEq]
  exact ⟨cell .id, cell .lat, cell .lon, cell .sequence, cell .travelled⟩

end Order

end Sheet

/-! ## Records -/

theorem isBlankRow_order {order : List ShapeColumn} (whole : order.Perm ShapeColumn.all)
    (t : ShapeColumn → String) : Sheet.isBlankRow (order.map t) = false := by
  refine Sheet.isBlankRow_of_two_le ?_
  rw [List.length_map, whole.length_eq]
  decide

/-- Header and rows of the file. -/
def shapeLayout {order : List ShapeColumn} (whole : order.Perm ShapeColumn.all)
    (rows : List ShapeTexts) : Csv.Layout :=
  { lead := []
    header := order.map (·.name)
    rows := rows.map fun t => order.map t
    blank := nofun
    printed := isBlankRow_order whole _
    narrow := by simp }

section Files

variable {order : List ShapeColumn} (whole : order.Perm ShapeColumn.all) {rows : List ShapeTexts}
  (short : ∀ t ∈ rows, t.Short) (ending : Csv.LineEnd) (heading : Csv.Style)

include whole

theorem filled_shapeLayout (rows : List ShapeTexts) :
    Sheet.filled (shapeLayout whole rows).rows = rows.map fun t => order.map t := by
  refine List.filter_eq_self.mpr fun row member => ?_
  rcases List.mem_map.mp member with ⟨t, -, rfl⟩
  rw [isBlankRow_order whole t]
  rfl

include short

theorem readRows_shapeFile :
    Csv.readRows (shapeFile ending heading order rows) = ⟨(shapeLayout whole rows).all, none⟩ := by
  rw [shapeFile, Csv.readRows_written ending (fits_shapeLines whole heading short), shapeLines,
    List.map_cons, List.map_map]
  rfl

/-- What is read from a file of rows is what the rows say, in their order and up to the first fault,
however the rows are cut into blocks. -/
theorem readShapes_shapeFile (path : String) {blockRows : Int} (wide : 1 ≤ blockRows) :
    readShapes path (some (shapeFile ending heading order rows)) blockRows =
      readRecords (rows.map ShapeTexts.row) 1 none := by
  have header := Sheet.unmarkHeader_names 1 order
  have size : 0 < blockRows.toNat := by omega
  have read := readRows_shapeFile whole short ending heading
  rcases Sheet.ofRows_layout (.shapeTable (.emptyTable shapeTableName))
    (shapeLayout whole rows) with ⟨fault, failed, -⟩ | ⟨names, s, unmarked, opened, upright⟩
  · cases header.symm.trans failed
  · cases header.symm.trans unmarked
    rw [readShapes, if_neg (by omega), read, opened]
    dsimp only
    rw [upright.shapes_eq size, Sheet.missing_written whole upright, filled_shapeLayout whole,
      List.length_map]
    simp only [List.map_map, Function.comp_def, Sheet.shapeRow_written whole upright]

end Files

/-! ## Identifiers -/

/-- An identifier is the text of its cell. -/
theorem ShapeTexts.read_id {t : ShapeTexts} {row : Int} {r : ShapeRecord}
    (h : t.row.read row = .ok r) : r.id = .text (t .id) := by
  rcases ShapeRow.read_eq_ok.mp h with ⟨_, _, _, _, ⟨here, -⟩, -, -, -, -, id⟩
  cases here
  exact id

/-- A record of a stream is the one of its row. -/
theorem getElem?_readRecords {rows : List ShapeRow} {number k : Nat} {last : Option Fault}
    {r : ShapeRecord} (h : (readRecords rows number last).items[k]? = some r) :
    ∃ row, rows[k]? = some row ∧ row.read ((number + k : Nat) : Int) = .ok r := by
  induction rows generalizing number k with
  | nil => cases h
  | cons row rows ih =>
    cases first : row.read number with
    | error fault =>
      rw [readRecords_error first] at h
      cases h
    | ok found =>
      rw [readRecords_ok first] at h
      cases k with
      | zero =>
        cases h
        exact ⟨row, rfl, first⟩
      | succ k =>
        rcases ih h with ⟨other, there, read⟩
        refine ⟨other, there, ?_⟩
        rw [← read, Nat.add_right_comm, Nat.add_assoc]

/-- Where a shape is after a load. -/
theorem load_find {source : Source ShapeRecord} {store grown : ShapeStore} {pass : Pass}
    (loaded : (load source store).outcome = .ok (pass, grown)) {id : ShapeId}
    (seen : id ∈ shapeIds source.items) :
    ∃ k, (shapeIds source.items)[k]? = some id ∧ pass.find? id = some (store.size + k) ∧
      grown.shape (some ((store.size + k : Nat) : Int)) =
        .ok ((inOrder id source.items).map (·.place)) := by
  rcases source with ⟨records, _ | fault⟩
  · rw [load_outcome] at loaded
    cases loaded
    rcases List.mem_iff_getElem?.mp seen with ⟨k, here⟩
    have ids := Loader.ids_pass records store.size
    have shape : (shapesOf records)[k]? = some ((inOrder id records).map (·.place)) := by
      rw [shapesOf_eq, List.getElem?_map, here]
      rfl
    rcases List.getElem?_eq_some_iff.mp shape with ⟨within, same⟩
    refine ⟨k, here, ?_, ?_⟩
    · exact Pass.find?_getElem _ (ids ▸ nodup_shapeIds records) k id (ids ▸ here)
    · rw [← same]
      exact store.shape_add (shapesOf records) k within
  · cases loaded

/-- Two shapes of a pass are one if they have one identifier. -/
theorem load_find_inj {source : Source ShapeRecord} {store grown : ShapeStore} {pass : Pass}
    (loaded : (load source store).outcome = .ok (pass, grown)) {id other : ShapeId}
    (seen : id ∈ shapeIds source.items) (known : other ∈ shapeIds source.items) :
    pass.find? id = pass.find? other ↔ id = other := by
  rcases load_find loaded seen with ⟨i, here, found, -⟩
  rcases load_find loaded known with ⟨j, there, met, -⟩
  constructor
  · intro same
    rw [found, met, Option.some.injEq, Nat.add_left_cancel_iff] at same
    rw [same, there] at here
    exact (Option.some.inj here).symm
  · rintro rfl
    rfl

/-! ## Written and read again -/

/-- Where a stream of rows ends without a fault, its identifiers are the texts of the rows. -/
theorem ids_readRecords {rows : List ShapeTexts} {records : List ShapeRecord}
    (read : readRecords (rows.map ShapeTexts.row) 1 none = ⟨records, none⟩) :
    records.map (·.id) = rows.map fun t => .text (t .id) := by
  have each := List.forall₂_map_left_iff.mp (readRecords_eq.mp read)
  have same : List.Forall₂ (fun (r : ShapeRecord) (t : ShapeTexts) => r.id = .text (t .id)) records
      rows := each.flip.imp fun _ _ one => ShapeTexts.read_id (one 1)
  rw [← List.forall₂_eq_eq_eq, List.forall₂_map_left_iff, List.forall₂_map_right_iff]
  exact same

/-- A file of rows, whose columns stand in any order, whose lines end in any one way and whose cells
are in quotes, is read to what the rows say: their records in order, up to the first fault. An
identifier is the text of its row, whatever characters it has. And when the records are loaded, rows
belong to one shape if their identifiers are one text. -/
theorem readShapes_written {order : List ShapeColumn} (whole : order.Perm ShapeColumn.all)
    {rows : List ShapeTexts} (short : ∀ t ∈ rows, t.Short) (ending : Csv.LineEnd)
    (heading : Csv.Style) (path : String) {blockRows : Int} (wide : 1 ≤ blockRows) :
    let source := readShapes path (some (shapeFile ending heading order rows)) blockRows
    source = Source.collect ((rows.zipIdx 1).map fun (t, i) => t.row.read i) none ∧
      (∀ (k : Nat) r, source.items[k]? = some r → ∃ t, rows[k]? = some t ∧ r.id = .text (t .id)) ∧
      ∀ store pass grown, (load source store).outcome = .ok (pass, grown) → ∀ t ∈ rows,
        (∃ i : Nat, pass.find? (.text (t .id)) = some i ∧ grown.shape (some (i : Int)) =
          .ok ((inOrder (.text (t .id)) source.items).map (·.place))) ∧
        ∀ u ∈ rows, pass.find? (.text (t .id)) = pass.find? (.text (u .id)) ↔ t .id = u .id := by
  intro source
  have read : source = readRecords (rows.map ShapeTexts.row) 1 none :=
    readShapes_shapeFile whole short ending heading path wide
  clear_value source
  subst read
  refine ⟨?_, ?_, ?_⟩
  · rw [readRecords, List.zipIdx_map, List.map_map]
    rfl
  · intro k r here
    rcases getElem?_readRecords here with ⟨row, there, one⟩
    rw [List.getElem?_map, Option.map_eq_some_iff] at there
    rcases there with ⟨t, there, rfl⟩
    exact ⟨t, there, ShapeTexts.read_id one⟩
  · intro store pass grown loaded t member
    -- a stream that has been loaded has a record for each row
    have seen : ∀ u ∈ rows, .text (u .id) ∈
        shapeIds (readRecords (rows.map ShapeTexts.row) 1 none).items := by
      generalize found : readRecords (rows.map ShapeTexts.row) 1 none = source at loaded
      rcases source with ⟨records, _ | fault⟩
      · intro u inRows
        rw [shapeIds, ids_readRecords found, List.mem_eraseDups]
        exact List.mem_map_of_mem inRows
      · cases loaded
    refine ⟨?_, fun u other => ?_⟩
    · rcases load_find loaded (seen t member) with ⟨k, -, found, shape⟩
      exact ⟨_, found, shape⟩
    · rw [load_find_inj loaded (seen t member) (seen u other), ShapeId.text.injEq]

/-- Rows whose identifiers hold what a reader could take for something else. -/
def hardRows : List ShapeTexts :=
  [.of "a,\"b\"\r\nc\x00" "1" "2" "1" "", .of " a " " 3" "4 " "1" " ", .of "" "5" "6" "1" "0",
    .of "a,\"b\"\r\nc\x00" "7" "8" "2" ""]

def hardTable : Source ShapeRecord :=
  readShapes shapeTableName
    (some (shapeFile .carriage .bare [.travelled, .id, .sequence, .lon, .lat] hardRows)) 2

theorem short_hardRows : ∀ t ∈ hardRows, t.Short := by
  intro t member c
  simp only [hardRows, List.mem_cons, List.not_mem_nil, or_false] at member
  rcases member with rfl | rfl | rfl | rfl <;> cases c <;> decide

theorem readShapes_written_hardRows :
    (hardTable.fault = none ∧
        hardTable.items.map (·.id) = hardRows.map fun t => .text (t .id)) ∧
      ∃ pass grown, (load hardTable .empty).outcome = .ok (pass, grown) ∧
        pass.find? (.text " a ") ≠ pass.find? (.text "") := by
  have whole : [.travelled, .id, .sequence, .lon, .lat].Perm ShapeColumn.all := by decide
  rcases readShapes_written whole short_hardRows .carriage .bare shapeTableName
    (show 1 ≤ 2 by decide) with ⟨read, -, shapes⟩
  have told : hardTable.fault = none ∧
      hardTable.items.map (·.id) = hardRows.map fun t => .text (t .id) := by
    rw [hardTable, read]
    decide +kernel
  refine ⟨told, ?_⟩
  have ends : ∃ pass grown, (load hardTable .empty).outcome = .ok (pass, grown) := by
    rw [load, loadWith, told.1]
    exact ⟨_, _, rfl⟩
  rcases ends with ⟨pass, grown, loaded⟩
  refine ⟨pass, grown, loaded, fun one => ?_⟩
  have blanks : .of " a " " 3" "4 " "1" " " ∈ hardRows := by simp [hardRows]
  have nothing : .of "" "5" "6" "1" "0" ∈ hardRows := by simp [hardRows]
  have texts := ((shapes .empty pass grown loaded _ blanks).2 _ nothing).mp one
  revert texts
  decide

/-! ## Texts that are too long -/

theorem exists_first_long {cells : List String} (long : ∃ cell ∈ cells, cellLimit < cell.length) :
    ∃ before cell after, cells = before ++ cell :: after ∧ cellLimit < cell.length ∧
      ∀ other ∈ before, other.length ≤ cellLimit := by
  have found : (cells.find? fun cell => cellLimit < cell.length).isSome = true := by
    simpa using long
  rcases Option.isSome_iff_exists.mp found with ⟨cell, first⟩
  rcases List.find?_eq_some_iff_append.mp first with ⟨tooLong, before, after, rfl, others⟩
  exact ⟨before, cell, after, rfl, of_decide_eq_true tooLong, fun other member => by
    simpa using others other member⟩

/-- Where a text of the first row is too long, nothing is read at all. -/
theorem readShapes_overlong {order : List ShapeColumn} (whole : order.Perm ShapeColumn.all)
    {t : ShapeTexts} (long : ¬t.Short) (later : List ShapeTexts) (ending : Csv.LineEnd)
    (heading : Csv.Style) (path : String) {blockRows : Int} (wide : 1 ≤ blockRows) :
    readShapes path (some (shapeFile ending heading order (t :: later))) blockRows =
      ⟨[], some (.badCell .tooLong)⟩ := by
  have among : ∃ cell ∈ order.map t, cellLimit < cell.length := by
    rcases not_forall.mp long with ⟨c, beyond⟩
    exact ⟨t c, List.mem_map_of_mem (whole.mem_iff.mpr c.mem_all), Nat.lt_of_not_le beyond⟩
  rcases exists_first_long among with ⟨before, cell, after, split, tooLong, others⟩
  have header : ∀ l ∈ [Csv.Line.mk heading (order.map (·.name))], l.Fits :=
    fits_shapeLines whole heading (show ∀ u ∈ ([] : List ShapeTexts), u.Short from nofun)
  have read : Csv.readRows (shapeFile ending heading order (t :: later)) =
      ⟨[order.map (·.name)], some (.badCell .tooLong)⟩ := by
    have spoilt := Csv.readRows_overlong ending header
      (fun other member => ⟨others other member, nofun⟩) tooLong after
      (later.map fun u => ⟨.quoted, order.map u⟩)
    rw [← split] at spoilt
    exact spoilt
  -- the fault is met while the reader looks ahead for the first row
  have failed : Sheet.ofRows (.shapeTable (.emptyTable shapeTableName))
      ⟨[order.map (·.name)], some (.badCell .tooLong)⟩ = .error (.badCell .tooLong) := by
    rw [Sheet.ofRows]
    simp only [Sheet.nextRow?, isBlankRow_order whole, Bool.false_eq_true, if_false,
      Sheet.unmarkHeader_names]
    rfl
  rw [readShapes, if_neg (by omega), read, failed]

/-- A row with numbers that can be read, whatever its identifier is. -/
theorem read_origin (id : String) :
    (ShapeTexts.of id "0" "0" "1" "").row.read 1 = .ok ⟨.text id, ⟨0, 0⟩, 1, 0⟩ := by
  have empty : (ShapeTexts.of "" "0" "0" "1" "").row.read 1 = .ok ⟨.text "", ⟨0, 0⟩, 1, 0⟩ := by
    decide +kernel
  rcases ShapeRow.read_eq_ok.mp empty with
    ⟨_, lat, lon, number, ⟨-, hlat, hlon, hnumber⟩, distance, x, y, n, -⟩
  exact ShapeRow.read_eq_ok.mpr
    ⟨.text id, lat, lon, number, ⟨rfl, hlat, hlon, hnumber⟩, distance, x, y, n, rfl⟩

/-- A row whose identifier has one character too many. -/
def overlongRow : ShapeTexts :=
  .of (String.ofList (List.replicate (cellLimit + 1) 'x')) "0" "0" "1" ""

theorem not_short_overlongRow : ¬overlongRow.Short := by
  intro short
  have id := short .id
  rw [overlongRow, ShapeTexts.of, String.length_ofList, List.length_replicate] at id
  exact Nat.not_succ_le_self _ id

/-- The row can be read, yet its table cannot. -/
theorem readShapes_overlongRow :
    overlongRow.row.read 1 = .ok ⟨.text (overlongRow .id), ⟨0, 0⟩, 1, 0⟩ ∧
      readShapes shapeTableName (some (shapeFile .feed .quoted ShapeColumn.all [overlongRow]))
        defaultBlockRows = ⟨[], some (.badCell .tooLong)⟩ ∧
      readShapes shapeTableName (some (shapeFile .feed .quoted ShapeColumn.all [overlongRow]))
        defaultBlockRows ≠
          Source.collect (([overlongRow].zipIdx 1).map fun (t, i) => t.row.read i) none := by
  have good : overlongRow.row.read 1 = .ok ⟨.text (overlongRow .id), ⟨0, 0⟩, 1, 0⟩ := read_origin _
  have failed := readShapes_overlong (List.Perm.refl ShapeColumn.all) not_short_overlongRow []
    .feed .quoted shapeTableName (show 1 ≤ defaultBlockRows by decide)
  refine ⟨good, failed, ?_⟩
  rw [failed]
  intro same
  have said : Source.collect (([overlongRow].zipIdx 1).map fun (t, i) => t.row.read i) none =
      ⟨[⟨.text (overlongRow .id), ⟨0, 0⟩, 1, 0⟩], none⟩ :=
    readRecords_ok good [] none
  rw [said] at same
  cases same

end StopAlign
