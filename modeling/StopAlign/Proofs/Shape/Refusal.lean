import StopAlign.Proofs.Shape.Filling
import StopAlign.Proofs.Table.Blocks
import StopAlign.Shape.Table

/-!
# Refusal — streams of shape records that end with a fault

- `Fault.place?`           : the row and the column that a fault names
- `ShapeRow.badColumn?`    : the first column of a row that holds no value
- `ShapeRow.blames_read`   : reading a row fails exactly at that column
- `readRecords_stops`      : a stream gives the records in front of the first bad row
- `Sheet.FirstBad`, `readShapes_stopped` : the first bad value of a table; where its reading stops
- `Loader.counts`          : the numbers of records that a loader has reported
- `load_refused`           : what a failing stream leaves behind

A row is judged cell by cell, without a word about reading it. What a table says of its rows does
not depend on the blocks in which it is read, only how many of them are reached does.
-/

namespace StopAlign

open Outcome Number Text

/-! ## Faults that name a value -/

/-- The row and the column that a fault names. -/
def Fault.place? : Fault → Option (Int × String)
  | .shapeTable (.missingColumn row column) => some (row, column)
  | .shapeTable (.invalidValue row column _) => some (row, column)
  | .shapeTable (.negativeSequence row _) => some (row, shapeSequenceColumn)
  | _ => none

theorem Fault.message_shapeTable (fault : ShapeFault) :
    (Fault.shapeTable fault).message = fault.message := rfl

/-- The text of such a fault begins with the row and names the column. -/
theorem Fault.message_of_place? {fault : Fault} {row : Int} {column : String}
    (h : fault.place? = some (row, column)) :
    ∃ before behind,
      fault.message = "Row " ++ toString row ++ ": " ++ before ++ column ++ behind := by
  unfold place? at h
  split at h
  · cases h
    have text : ": missing required column '" = ": " ++ "missing required column '" := by decide
    refine ⟨"missing required column '", "'", ?_⟩
    rw [message_shapeTable, ShapeFault.message, text]
    simp only [String.append_assoc, -String.reduceAppend]
  · rename_i cell
    cases h
    have text : ": invalid " = ": " ++ "invalid " := by decide
    refine ⟨"invalid ", " value " ++ cell.quoted, ?_⟩
    rw [message_shapeTable, ShapeFault.message, text]
    simp only [String.append_assoc, -String.reduceAppend]
  · rename_i sequence
    cases h
    have text : ": shape_pt_sequence must be non-negative, got " =
      ": " ++ "" ++ shapeSequenceColumn ++ " must be non-negative, got " := by decide
    refine ⟨"", " must be non-negative, got " ++ toString sequence, ?_⟩
    rw [message_shapeTable, ShapeFault.message, text]
    simp only [String.append_assoc, -String.reduceAppend]
  · cases h

/-- A computation about one row ends well if there is no column to blame, and otherwise with a fault
that names this column. -/
structure Blames {α : Type} (outcome : Except Fault α) (row : Int) (column? : Option String) :
    Prop where
  fine : ∀ a, outcome = .ok a → column? = none
  blamed : ∀ fault, outcome = .error fault →
    ∃ column, column? = some column ∧ fault.place? = some (row, column)

namespace Blames

theorem ok {α : Type} (a : α) (row : Int) : Blames (.ok a) row none where
  fine := fun _ _ => rfl
  blamed := fun _ failed => nomatch failed

theorem error {α : Type} {fault : Fault} {row : Int} {column : String}
    (place : fault.place? = some (row, column)) :
    Blames (.error fault : Except Fault α) row (some column) where
  fine := fun _ ended => nomatch ended
  blamed := fun _ failed => Except.error.inj failed ▸ ⟨column, rfl, place⟩

theorem bind {α β : Type} {x : Except Fault α} {f : α → Except Fault β} {row : Int}
    {first second : Option String} (one : Blames x row first)
    (other : ∀ a, Blames (f a) row second) : Blames (x >>= f) row (first.or second) := by
  cases x with
  | error fault =>
    rcases one.blamed fault rfl with ⟨column, here, place⟩
    rw [here, Option.some_or]
    exact error place
  | ok a =>
    rw [one.fine a rfl, Option.none_or]
    exact other a

end Blames

/-! ## One row -/

namespace Cell

/-- Whether a cell holds a finite number. -/
def isMeasure (cell : Cell) : Bool :=
  match cell.number? with
  | .ok (some x) => x.isFinite
  | _ => false

/-- Whether a cell holds a whole number that is not negative. -/
def isOrdinal (cell : Cell) : Bool :=
  match readWhole? (trim cell.shown) with
  | some n => 0 ≤ n
  | none => false

/-- The cells of a table: texts, and what stands for a cell that a short row leaves out. -/
inductive FromTable : Cell → Prop
  | text (s : String) : FromTable (.text s)
  | left : FromTable .left

theorem blames_finite {cell : Cell} (fromTable : cell.FromTable) (column : String) (row : Int) :
    Blames (cell.finite column row) row (if cell.isMeasure then none else some column) := by
  have read : ∃ found, cell.number? = .ok found := by
    cases fromTable with
    | text s => exact ⟨readReal? s, rfl⟩
    | left => exact ⟨some notANumber, rfl⟩
  rcases read with ⟨found | x, number⟩
  · have outcome : cell.finite column row =
        .error (.shapeTable (.invalidValue row column cell)) := by
      simp only [finite, number]
      rfl
    have bad : cell.isMeasure = false := by simp only [isMeasure, number]
    rw [outcome, bad]
    exact .error rfl
  · have outcome : cell.finite column row =
        if x.isFinite then .ok x else .error (.shapeTable (.invalidValue row column cell)) := by
      simp only [finite, number]
      rfl
    have judged : cell.isMeasure = x.isFinite := by simp only [isMeasure, number]
    rw [outcome, judged]
    by_cases within : x.isFinite = true
    · rw [if_pos within, if_pos within]
      exact .ok _ row
    · rw [if_neg within, if_neg within]
      exact .error rfl

theorem blames_sequenceNumber (cell : Cell) (row : Int) :
    Blames (cell.sequenceNumber row) row
      (if cell.isOrdinal then none else some shapeSequenceColumn) := by
  unfold sequenceNumber isOrdinal
  cases written : readWhole? (trim cell.shown) with
  | none => exact .error rfl
  | some n =>
    by_cases negative : n < 0
    · have low : ¬ 0 ≤ n := by omega
      simp only [if_pos negative, low, decide_false]
      exact .error rfl
    · have high : 0 ≤ n := by omega
      simp only [if_neg negative, high, decide_true]
      exact .ok _ row

end Cell

namespace ShapeRow

/-- The columns of numbers in the order in which they are read, each with whether its cell is one
that can be read. A distance may be missing or blank. -/
def values (cells : ShapeRow) : List (String × Bool) :=
  [(shapeTravelledColumn, cells.travelled.all fun c => c.holdsNothing || c.isMeasure),
    (shapeLatColumn, cells.lat.all Cell.isMeasure),
    (shapeLonColumn, cells.lon.all Cell.isMeasure),
    (shapeSequenceColumn, cells.sequence.all Cell.isOrdinal)]

/-- The first column that holds no value. -/
def badColumn? (cells : ShapeRow) : Option String :=
  (cells.values.find? fun value => !value.2).map (·.1)

/-- A row of a table with all the columns that it needs. -/
structure Full (cells : ShapeRow) : Prop where
  id : ∃ c, cells.id = some c
  lat : ∃ c, cells.lat = some c ∧ c.FromTable
  lon : ∃ c, cells.lon = some c ∧ c.FromTable
  sequence : ∃ c, cells.sequence = some c
  travelled : ∀ c, cells.travelled = some c → c.FromTable

theorem blames_distance {cells : ShapeRow} (full : cells.Full) (row : Int) :
    Blames (cells.distance row) row
      (if cells.travelled.all fun c => c.holdsNothing || c.isMeasure then none
        else some shapeTravelledColumn) := by
  unfold distance
  cases given : cells.travelled with
  | none => exact .ok _ row
  | some c =>
    by_cases nothing : c.holdsNothing = true
    · simp only [nothing, Option.all_some, Bool.true_or, if_true]
      exact .ok _ row
    · have judged := Cell.blames_finite (full.travelled c given) shapeTravelledColumn row
      simpa only [nothing, Bool.false_eq_true, if_false, Option.all_some, Bool.false_or] using judged

/-- Reading a row fails exactly if one of its values is bad, and blames the first one that is. -/
theorem blames_read {cells : ShapeRow} (full : cells.Full) (row : Int) :
    Blames (cells.read row) row cells.badColumn? := by
  rcases full.id with ⟨id, hid⟩
  rcases full.lat with ⟨lat, hlat, latFrom⟩
  rcases full.lon with ⟨lon, hlon, lonFrom⟩
  rcases full.sequence with ⟨sequence, hsequence⟩
  have order : cells.badColumn? =
      (if cells.travelled.all fun c => c.holdsNothing || c.isMeasure then none
        else some shapeTravelledColumn).or
        ((if lat.isMeasure then none else some shapeLatColumn).or
          ((if lon.isMeasure then none else some shapeLonColumn).or
            ((if sequence.isOrdinal then none else some shapeSequenceColumn).or none))) := by
    simp only [badColumn?, values, hlat, hlon, hsequence, Option.all_some, List.find?_cons]
    cases (cells.travelled.all fun c => c.holdsNothing || c.isMeasure) <;>
      cases lat.isMeasure <;> cases lon.isMeasure <;> cases sequence.isOrdinal <;> rfl
  have steps : cells.read row = do
      let travelled ← cells.distance row
      let x ← lat.finite shapeLatColumn row
      let y ← lon.finite shapeLonColumn row
      let number ← sequence.sequenceNumber row
      return { id := .ofCell id, place := ⟨x, y⟩, sequence := number, travelled } := by
    simp only [read, hid, hlat, hlon, hsequence]
    rfl
  rw [steps, order]
  apply Blames.bind (blames_distance full row)
  intro travelled
  apply Blames.bind (Cell.blames_finite latFrom shapeLatColumn row)
  intro x
  apply Blames.bind (Cell.blames_finite lonFrom shapeLonColumn row)
  intro y
  apply Blames.bind (Cell.blames_sequenceNumber sequence row)
  intro number
  exact .ok _ row

end ShapeRow

/-! ## All rows -/

/-- A stream gives the records of the rows in front of the first bad one, and its fault names this
row; without a bad row it ends as the rows do. -/
theorem readRecords_stops {rows : List ShapeRow} (full : ∀ row ∈ rows, row.Full) (number : Nat)
    (last : Option Fault) :
    let source := readRecords rows number last
    (∀ row ∈ rows.take source.items.length, row.badColumn? = none) ∧
      ((∃ row column fault, rows[source.items.length]? = some row ∧
          row.badColumn? = some column ∧ source.fault = some fault ∧
          fault.place? = some (((number + source.items.length : Nat) : Int), column)) ∨
        (source.items.length = rows.length ∧ source.fault = last)) := by
  induction rows generalizing number with
  | nil => exact ⟨by simp, .inr ⟨rfl, rfl⟩⟩
  | cons row rows ih =>
    have judged := ShapeRow.blames_read (full row List.mem_cons_self) number
    have later := ih (fun r member => full r (List.mem_cons_of_mem row member)) (number + 1)
    cases first : row.read number with
    | error fault =>
      rcases judged.blamed fault first with ⟨column, bad, place⟩
      rw [readRecords_error first]
      exact ⟨by simp, .inl ⟨row, column, fault, rfl, bad, rfl, place⟩⟩
    | ok r =>
      have good := judged.fine r first
      rw [readRecords_ok first]
      simp only at later ⊢
      rcases later with ⟨clean, ends⟩
      refine ⟨?_, ?_⟩
      · intro other member
        rw [List.length_cons, List.take_succ_cons] at member
        rcases List.mem_cons.mp member with here | behind
        · rw [here]
          exact good
        · exact clean other behind
      · rcases ends with ⟨bad, column, fault, here, which, failed, place⟩ | ⟨all, ended⟩
        · refine .inl ⟨bad, column, fault, here, which, failed, ?_⟩
          rw [place, List.length_cons, Nat.add_assoc, Nat.add_comm 1]
        · exact .inr ⟨by rw [List.length_cons, List.length_cons, all], ended⟩

/-! ## Tables -/

/-- The sheet of a shape table. -/
def shapeSheet (octets : List UInt8) : Except Fault Sheet :=
  Sheet.ofRows (.shapeTable (.emptyTable shapeTableName)) (Csv.readRows octets)

namespace Sheet

theorem full_shapeRow {s : Sheet} (complete : s.missing shapeColumns = []) (row : Row) :
    (s.shapeRow row).Full := by
  have cell : ∀ name c, s.shapeCell row name = some c → c.FromTable := by
    intro name c here
    rcases Option.map_eq_some_iff.mp here with ⟨i, -, rfl⟩
    cases row.cell? i with
    | some text => exact .text text
    | none => exact .left
  have given : ∀ name ∈ shapeColumns, ∃ c, s.shapeCell row name = some c := by
    intro name member
    have known := List.filter_eq_nil_iff.mp complete name member
    rw [Option.isNone_iff_eq_none] at known
    rcases Option.ne_none_iff_exists'.mp known with ⟨i, place⟩
    exact ⟨_, by rw [shapeCell, place, Option.map_some]⟩
  have both : ∀ name ∈ shapeColumns, ∃ c, s.shapeCell row name = some c ∧ c.FromTable := by
    intro name member
    rcases given name member with ⟨c, here⟩
    exact ⟨c, here, cell name c here⟩
  exact ⟨given _ (by decide), both _ (by decide), both _ (by decide), given _ (by decide),
    cell shapeTravelledColumn⟩

/-- The first row with a bad value is the one at place `k` from zero, and its first bad value stands
in the column. Blocks of the size reach this row. -/
structure FirstBad (s : Sheet) (size k : Nat) (column : String) : Prop where
  reached : k < (s.blocks size).items.flatten.length
  bad : ∃ row, s.dataRows[k]? = some row ∧ (s.shapeRow row).badColumn? = some column
  before : ∀ row ∈ s.dataRows.take k, (s.shapeRow row).badColumn? = none

theorem FirstBad.le {s : Sheet} {size k i : Nat} {column bad : String}
    (first : s.FirstBad size k column) {row : Row} (here : s.dataRows[i]? = some row)
    (isBad : (s.shapeRow row).badColumn? = some bad) : k ≤ i := by
  by_contra before
  have among : (s.dataRows.take k)[i]? = some row := by
    rw [List.getElem?_take_of_lt (by omega), here]
  cases (first.before row (List.mem_of_getElem? among)).symm.trans isBad

/-- There is one first row with a bad value, and in it one first bad column. -/
theorem FirstBad.unique {s : Sheet} {size k k' : Nat} {column column' : String}
    (one : s.FirstBad size k column) (other : s.FirstBad size k' column') :
    k = k' ∧ column = column' := by
  rcases one.bad with ⟨row, here, bad⟩
  rcases other.bad with ⟨row', here', bad'⟩
  have same : k = k' := Nat.le_antisymm (one.le here' bad') (other.le here bad)
  subst same
  cases here.symm.trans here'
  cases bad.symm.trans bad'
  exact ⟨rfl, rfl⟩

/-- Rows that blocks give are the rows of the sheet at the same places. -/
theorem getElem?_blocks (s : Sheet) {size : Nat} (wide : 0 < size) {k : Nat}
    (reached : k < (s.blocks size).items.flatten.length) :
    (s.blocks size).items.flatten[k]? = s.dataRows[k]? := by
  rcases s.blocks_prefix wide with ⟨more, whole⟩
  rw [← whole, List.getElem?_append_left reached]

theorem take_blocks (s : Sheet) {size : Nat} (wide : 0 < size) {k : Nat}
    (reached : k ≤ (s.blocks size).items.flatten.length) :
    (s.blocks size).items.flatten.take k = s.dataRows.take k := by
  rcases s.blocks_prefix wide with ⟨more, whole⟩
  rw [← whole, List.take_append_of_le_length reached]

/-- What comes from a table with all the columns: the records of the rows that blocks give. -/
theorem shapes_complete {s : Sheet} (complete : s.missing shapeColumns = []) (size : Nat) :
    s.shapes size = readRecords ((s.blocks size).items.flatten.map s.shapeRow) 1
      ((s.blocks size).fault.map Fault.inStream) := by
  simp only [shapes, complete]
  cases (s.blocks size).items <;> cases (s.blocks size).fault <;> rfl

/-- A table stops at the first row with a bad value, if blocks reach one, and otherwise with all
the rows that blocks give and the fault behind them. -/
theorem shapes_stops {s : Sheet} (complete : s.missing shapeColumns = []) {size : Nat}
    (wide : 0 < size) :
    let source := s.shapes size
    (∃ column fault, s.FirstBad size source.items.length column ∧ source.fault = some fault ∧
        fault.place? = some (((source.items.length + 1 : Nat) : Int), column)) ∨
      ((∀ k column, ¬ s.FirstBad size k column) ∧
        source.items.length = (s.blocks size).items.flatten.length ∧
        source.fault = (s.blocks size).fault.map Fault.inStream ∧
        ∀ row ∈ (s.blocks size).items.flatten, (s.shapeRow row).badColumn? = none) := by
  intro source
  have same : source = _ := shapes_complete complete size
  have full : ∀ row ∈ (s.blocks size).items.flatten.map s.shapeRow, row.Full := by
    intro row member
    rcases List.mem_map.mp member with ⟨cells, -, rfl⟩
    exact full_shapeRow complete cells
  have stops := readRecords_stops full 1 ((s.blocks size).fault.map Fault.inStream)
  rw [← same] at stops
  rcases stops with ⟨clean, ⟨row, column, fault, here, bad, failed, place⟩ | ⟨all, ended⟩⟩
  · rw [List.getElem?_map] at here
    rcases Option.map_eq_some_iff.mp here with ⟨cells, found, rfl⟩
    have reached := (List.getElem?_eq_some_iff.mp found).1
    refine .inl ⟨column, fault, ⟨reached, ⟨cells, ?_, bad⟩, ?_⟩, failed, ?_⟩
    · rw [← s.getElem?_blocks wide reached, found]
    · intro before member
      rw [← s.take_blocks wide (Nat.le_of_lt reached)] at member
      exact clean _ (List.map_take ▸ List.mem_map_of_mem member)
    · rw [place, Nat.add_comm]
  · rw [List.length_map] at all
    have good : ∀ row ∈ (s.blocks size).items.flatten, (s.shapeRow row).badColumn? = none := by
      intro row member
      refine clean _ ?_
      rw [all, ← List.map_take, List.take_length]
      exact List.mem_map_of_mem member
    refine .inr ⟨?_, all, ended, good⟩
    rintro k column ⟨reached, ⟨row, here, bad⟩, -⟩
    rw [← s.getElem?_blocks wide reached] at here
    rw [good row (List.mem_of_getElem? here)] at bad
    cases bad

/-- What comes from a table without a needed column: nothing, and a fault of the whole table. -/
theorem shapes_incomplete {s : Sheet} (lacking : s.missing shapeColumns ≠ []) (size : Nat) :
    ∃ fault, s.shapes size = ⟨[], some fault⟩ ∧
      (fault.place? = none ∨ (s.blocks size).fault.map Fault.inStream = some fault) := by
  cases names : s.missing shapeColumns with
  | nil => exact absurd names lacking
  | cons name names' =>
    unfold shapes
    simp only [names]
    split
    · rename_i fault _ broken
      exact ⟨fault, rfl, .inr broken⟩
    · exact ⟨_, rfl, .inl rfl⟩

/-- Nothing stands in the way of a sheet: its text can be read to the end, no row is too long, and
every row holds its values. -/
structure Sound (s : Sheet) : Prop where
  calm : s.fault = none
  narrow : ∀ row ∈ filled (s.ahead ++ s.rest), row.length ≤ s.width
  good : ∀ row ∈ s.dataRows, (s.shapeRow row).badColumn? = none

end Sheet

/-- The sheet of a shape table with all the columns that it needs, to be read in blocks. -/
structure Opened (file : Option (List UInt8)) (blockRows : Int) (s : Sheet) : Prop where
  wide : 1 ≤ blockRows
  sheet : file.map shapeSheet = some (.ok s)
  complete : s.missing shapeColumns = []

theorem Opened.unique {file : Option (List UInt8)} {blockRows : Int} {s s' : Sheet}
    (one : Opened file blockRows s) (other : Opened file blockRows s') : s = s' := by
  have same := one.sheet.symm.trans other.sheet
  cases same
  rfl

/-- A fault of the text of a table or of its rows is about no value. -/
theorem place?_structural {octets : List UInt8} {s : Sheet} (opened : shapeSheet octets = .ok s)
    {size : Nat} (wide : 0 < size) {fault : Fault}
    (h : (s.blocks size).fault.map Fault.inStream = some fault) : fault.place? = none := by
  rcases Option.map_eq_some_iff.mp h with ⟨cause, ends, rfl⟩
  rcases s.blocks_fault wide ends with last | ⟨line, seen, rfl⟩
  · rw [Sheet.ofRows_fault opened] at last
    cases Csv.readRows_fault last <;> rfl
  · rfl

/-- A table that cannot be opened gives nothing but a fault, which is about no value. Otherwise its
records are those of its sheet. -/
theorem readShapes_cases (path : String) (file : Option (List UInt8)) (blockRows : Int) :
    (∃ fault, readShapes path file blockRows = ⟨[], some fault⟩ ∧ fault.place? = none ∧
        ∀ s, ¬ Opened file blockRows s) ∨
      ∃ octets s, shapeSheet octets = .ok s ∧ Opened file blockRows s ∧
        readShapes path file blockRows = s.shapes blockRows.toNat := by
  cases file with
  | none => exact .inl ⟨_, rfl, rfl, fun s opened => nomatch opened.sheet⟩
  | some octets =>
    by_cases narrow : blockRows < 1
    · refine .inl ⟨.blockRows, by simp only [readShapes, if_pos narrow], rfl, ?_⟩
      intro s opened
      have wide := opened.wide
      omega
    have wide : 1 ≤ blockRows := by omega
    have size : 0 < blockRows.toNat := by omega
    cases sheet : shapeSheet octets with
    | error fault =>
      have read : readShapes path (some octets) blockRows = ⟨[], some fault⟩ := by
        unfold shapeSheet at sheet
        simp only [readShapes, if_neg narrow, sheet]
      have nowhere : fault.place? = none := by
        rcases Sheet.ofRows_error sheet with last | rfl | rfl
        · cases Csv.readRows_fault last <;> rfl
        · rfl
        · rfl
      refine .inl ⟨fault, read, nowhere, ?_⟩
      intro s opened
      have found := opened.sheet
      rw [Option.map_some, sheet] at found
      cases found
    | ok s =>
      have read : readShapes path (some octets) blockRows = s.shapes blockRows.toNat := by
        unfold shapeSheet at sheet
        simp only [readShapes, if_neg narrow, sheet]
      by_cases complete : s.missing shapeColumns = []
      · exact .inr ⟨octets, s, sheet, ⟨wide, by rw [Option.map_some, sheet], complete⟩, read⟩
      · rcases Sheet.shapes_incomplete complete blockRows.toNat with ⟨fault, failed, about⟩
        have nowhere : fault.place? = none := about.elim id (place?_structural sheet size)
        refine .inl ⟨fault, read.trans failed, nowhere, ?_⟩
        intro s' opened
        have found := opened.sheet
        rw [Option.map_some, sheet] at found
        cases found
        exact complete opened.complete

/-- A table is read without a fault exactly if it can be opened and is sound. Blocks of any size
agree on that. -/
theorem readShapes_fault_eq_none (path : String) (file : Option (List UInt8)) (blockRows : Int) :
    (readShapes path file blockRows).fault = none ↔
      ∃ s, Opened file blockRows s ∧ s.Sound := by
  rcases readShapes_cases path file blockRows with
    ⟨fault, failed, -, closed⟩ | ⟨octets, s, sheet, opened, read⟩
  · rw [failed]
    exact ⟨nofun, fun ⟨s, opened, _⟩ => absurd opened (closed s)⟩
  have size : 0 < blockRows.toNat := by
    have wide := opened.wide
    omega
  have alone : (∃ s, Opened file blockRows s ∧ s.Sound) ↔ s.Sound :=
    ⟨fun ⟨_, other, sound⟩ => opened.unique other ▸ sound, fun sound => ⟨s, opened, sound⟩⟩
  rw [read, alone]
  rcases Sheet.shapes_stops opened.complete size with
    ⟨column, fault, first, failed, -⟩ | ⟨-, -, ended, good⟩
  · rw [failed]
    refine ⟨nofun, fun sound => ?_⟩
    rcases first.bad with ⟨row, here, bad⟩
    rw [sound.good row (List.mem_of_getElem? here)] at bad
    cases bad
  · rw [ended, Option.map_eq_none_iff]
    constructor
    · intro calm
      rcases (s.blocks_fault_eq_none size).mp calm with ⟨last, narrow⟩
      exact ⟨last, narrow, s.blocks_whole size calm ▸ good⟩
    · intro sound
      exact (s.blocks_fault_eq_none size).mpr ⟨sound.calm, sound.narrow⟩

/-- Where the reading of a table has stopped that ends with a fault, after so many records. -/
structure Stopped (file : Option (List UInt8)) (blockRows : Int) (records : Nat) (fault : Fault) :
    Prop where
  /-- If blocks reach a bad value, then behind the records of all rows in front of the first one.
  The fault names its row, counted over all blocks, and its column. -/
  bad : ∀ s k column, Opened file blockRows s → s.FirstBad blockRows.toNat k column →
    records = k ∧ fault.place? = some (((k + 1 : Nat) : Int), column)
  /-- If they reach none, then behind all rows that they give, with the fault of the text or of a
  row that is too long. -/
  good : ∀ s, Opened file blockRows s → (∀ k column, ¬ s.FirstBad blockRows.toNat k column) →
    records = (s.blocks blockRows.toNat).items.flatten.length ∧
      (s.blocks blockRows.toNat).fault.map Fault.inStream = some fault ∧ fault.place? = none
  /-- A table that cannot be opened gives no records. -/
  closed : (∀ s, ¬ Opened file blockRows s) → records = 0 ∧ fault.place? = none

theorem readShapes_stopped {path : String} {file : Option (List UInt8)} {blockRows : Int}
    {fault : Fault} (failed : (readShapes path file blockRows).fault = some fault) :
    Stopped file blockRows (readShapes path file blockRows).items.length fault := by
  rcases readShapes_cases path file blockRows with
    ⟨cause, ended, nowhere, closed⟩ | ⟨octets, s, sheet, opened, read⟩
  · rw [ended] at failed ⊢
    cases failed
    exact ⟨fun s _ _ opened => absurd opened (closed s), fun s opened => absurd opened (closed s),
      fun _ => ⟨rfl, nowhere⟩⟩
  have size : 0 < blockRows.toNat := by
    have wide := opened.wide
    omega
  rw [read] at failed ⊢
  rcases Sheet.shapes_stops opened.complete size with
    ⟨column, cause, first, ended, place⟩ | ⟨none, all, ended, -⟩
  · rw [ended] at failed
    cases failed
    refine ⟨?_, ?_, fun closed => absurd opened (closed s)⟩
    · intro s' k column' other again
      cases opened.unique other
      rcases first.unique again with ⟨rfl, rfl⟩
      exact ⟨rfl, place⟩
    · intro s' other nowhere
      cases opened.unique other
      exact absurd first (nowhere _ column)
  · rw [failed] at ended
    refine ⟨?_, ?_, fun closed => absurd opened (closed s)⟩
    · intro s' k column other again
      cases opened.unique other
      exact absurd again (none k column)
    · intro s' other _
      cases opened.unique other
      exact ⟨all, ended.symm, place?_structural sheet size ended.symm⟩

/-- The fault of a table names a row and a column exactly if blocks reach a bad value, and then the
row behind the records read, and the first bad column of it. -/
theorem Stopped.place?_eq {file : Option (List UInt8)} {blockRows : Int} {records : Nat}
    {fault : Fault} (stopped : Stopped file blockRows records fault) (row : Int)
    (column : String) :
    fault.place? = some (row, column) ↔
      row = records + 1 ∧
        ∃ s, Opened file blockRows s ∧ s.FirstBad blockRows.toNat records column := by
  constructor
  · intro place
    by_cases closed : ∀ s, ¬ Opened file blockRows s
    · cases place.symm.trans (stopped.closed closed).2
    simp only [not_forall, not_not] at closed
    rcases closed with ⟨s, opened⟩
    by_cases nowhere : ∀ k column, ¬ s.FirstBad blockRows.toNat k column
    · cases place.symm.trans (stopped.good s opened nowhere).2.2
    simp only [not_forall, not_not] at nowhere
    rcases nowhere with ⟨k, column', first⟩
    rcases stopped.bad s k column' opened first with ⟨rfl, here⟩
    cases place.symm.trans here
    exact ⟨by omega, s, opened, first⟩
  · rintro ⟨rfl, s, opened, first⟩
    exact (stopped.bad s records column opened first).2

/-! ## Loading -/

namespace Loader

/-- The numbers of records that a loader has reported, in the order in which it has. -/
def counts (l : Loader) : List Nat :=
  l.events.toList.filterMap fun
    | .disorder _ => none
    | .counted records => some records

theorem counts_accept (l : Loader) (r : ShapeRecord) :
    (l.accept r).counts = l.counts ++ [l.count + 1] := by
  unfold counts
  rw [events_accept]
  cases (room l.tracks (l.indexOf r.id) r.id)[l.indexOf r.id]?.bind (·.disorder? r) <;> simp

theorem count_ofRecords (records : List ShapeRecord) :
    (ofRecords records).count = records.length := by
  induction records using List.reverseRecOn with
  | nil => rfl
  | append_singleton seen r ih =>
    rw [ofRecords_concat, List.length_append, List.length_singleton, ← ih]
    rfl

/-- A loader reports one record after the other. -/
theorem counts_ofRecords (records : List ShapeRecord) :
    (ofRecords records).counts = List.range' 1 records.length := by
  induction records using List.reverseRecOn with
  | nil => rfl
  | append_singleton seen r ih =>
    rw [ofRecords_concat, counts_accept, ih, count_ofRecords, List.length_append,
      List.length_singleton, List.range'_1_concat, Nat.add_comm 1]

end Loader

/-- What a stream that ends with a fault leaves behind. -/
structure Refused (source : Source ShapeRecord) (fault : Fault) (held : Filling) : Prop where
  /-- Loading raises the fault. -/
  raised : (load source held.store).outcome = .error fault
  /-- The store that is left is the one from before, and so are the passes. -/
  kept : (load source held.store).store = held.store ∧ held.step (.load source) = held
  /-- The next stream without a fault has the indices behind the shapes that were there before. -/
  next : ∀ records, ∃ pass,
    (load ⟨records, none⟩ (held.step (.load source)).store).outcome =
      .ok (pass, held.store.add (shapesOf records)) ∧
    pass.offset = held.store.size
  /-- Each record that was read has been reported once, in its turn. -/
  reported : (load source held.store).loader.counts = List.range' 1 source.items.length
  /-- A table has stopped at the first bad value that blocks reach, behind the records of all rows
  in front of it, and otherwise where it cannot be read on. -/
  stopped : ∀ path file blockRows, source = readShapes path file blockRows →
    Stopped file blockRows source.items.length fault
  /-- The fault of a table names a row and a column exactly if the first bad value stands there. It
  is the row behind the records that were read, and its text says so. -/
  named : ∀ path file blockRows, source = readShapes path file blockRows → ∀ row column,
    (fault.place? = some (row, column) ↔
      row = source.items.length + 1 ∧
        ∃ s, Opened file blockRows s ∧ s.FirstBad blockRows.toNat source.items.length column) ∧
    (fault.place? = some (row, column) → ∃ before behind,
      fault.message = "Row " ++ toString row ++ ": " ++ before ++ column ++ behind)

/-- A stream that ends with a fault is refused as a whole. A table brings such a stream unless it
can be opened, has no fault behind its rows and none too long, and holds a value wherever it
should. -/
theorem load_refused (source : Source ShapeRecord) (held : Filling) :
    (∀ fault, source.fault = some fault → Refused source fault held) ∧
      ∀ path file blockRows, source = readShapes path file blockRows →
        (source.fault = none ↔ ∃ s, Opened file blockRows s ∧ s.Sound) := by
  refine ⟨?_, ?_⟩
  · intro fault failed
    rcases source with ⟨records, last⟩
    cases failed
    have stopped : ∀ path file blockRows,
        (⟨records, some fault⟩ : Source ShapeRecord) = readShapes path file blockRows →
          Stopped file blockRows records.length fault := by
      intro path file blockRows same
      have failed : (readShapes path file blockRows).fault = some fault := by rw [← same]
      have ended := readShapes_stopped failed
      rwa [← same] at ended
    refine ⟨rfl, ⟨rfl, held.step_failed records fault⟩, ?_, Loader.counts_ofRecords records,
      stopped, ?_⟩
    · intro later
      rw [Filling.step_failed]
      exact ⟨_, load_outcome later held.store, rfl⟩
    · intro path file blockRows same row column
      exact ⟨(stopped path file blockRows same).place?_eq row column, Fault.message_of_place?⟩
  · rintro path file blockRows rfl
    exact readShapes_fault_eq_none path file blockRows

/-- Four rows, to be read in blocks of two. In the third one longitude and number are bad. -/
def brokenTable : List UInt8 :=
  Csv.fileOf [shapeColumns, ["s", "0", "0", "1"], ["s", "0", "1", "2"], ["s", "0", "x", "-3"],
    ["s", "y", "3", "4"]]

def brokenStream : Source ShapeRecord := readShapes "shapes.txt" (some brokenTable) 2

def brokenFault : Fault := .shapeTable (.invalidValue 3 shapeLonColumn (.text "x"))

theorem load_refused_brokenStream :
    brokenStream.items.length = 2 ∧ brokenFault.place? = some (3, shapeLonColumn) ∧
      Refused brokenStream brokenFault (Filling.after [.append [[⟨0, 0⟩]]]) := by
  refine ⟨by decide +kernel, rfl, ?_⟩
  have failed : brokenStream.fault = some brokenFault := by decide +kernel
  exact (load_refused brokenStream (Filling.after [.append [[⟨0, 0⟩]]])).1 brokenFault failed

end StopAlign
