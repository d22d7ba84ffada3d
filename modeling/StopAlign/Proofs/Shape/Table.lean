import Mathlib.Data.List.Perm.Basic
import StopAlign.Proofs.Table.Blocks
import StopAlign.Shape.Table

/-!
# Table — the shape records of a file whose rows come in another order

- `read_eq_ok`         : what a row says, if it can be read
- `read_number`        : the record of a row does not depend on the number of the row
- `readRecords_eq`     : a stream without a fault has the records of all rows
- `readShapes_reordered` : the records of a file with the same rows are the same, in another order
-/

namespace StopAlign

open Outcome

/-! ## One row -/

namespace Cell

theorem finite_number {cell : Cell} {column : String} {row other : Int} {x : Float}
    (h : cell.finite column row = .ok x) : cell.finite column other = .ok x := by
  unfold finite at h ⊢
  rcases bind_eq_ok.mp h with ⟨found, number, h⟩
  refine bind_eq_ok.mpr ⟨found, number, ?_⟩
  cases found with
  | none => cases h
  | some y =>
    simp only at h ⊢
    by_cases within : y.isFinite = true
    · rw [if_pos within] at h ⊢
      exact h
    · rw [if_neg within] at h
      cases h

theorem sequenceNumber_number {cell : Cell} {row other : Int} {n : Int}
    (h : cell.sequenceNumber row = .ok n) : cell.sequenceNumber other = .ok n := by
  unfold sequenceNumber at h ⊢
  cases written : Number.readWhole? (Text.trim cell.shown) with
  | none =>
    rw [written] at h
    cases h
  | some m =>
    simp only [written] at h ⊢
    by_cases negative : m < 0
    · rw [if_pos negative] at h
      cases h
    · rw [if_neg negative] at h ⊢
      exact h

end Cell

namespace ShapeRow

theorem required_eq_ok {cell : Option Cell} {column : String} {row : Int} {c : Cell} :
    required cell column row = .ok c ↔ cell = some c := by
  cases cell with
  | none => exact ⟨nofun, nofun⟩
  | some d => exact ⟨fun h => congrArg some (Except.ok.inj h), fun h => by cases h; rfl⟩

theorem distance_number {cells : ShapeRow} {row other : Int} {x : Float}
    (h : cells.distance row = .ok x) : cells.distance other = .ok x := by
  unfold distance at h ⊢
  cases given : cells.travelled with
  | none =>
    rw [given] at h
    exact h
  | some c =>
    simp only [given] at h ⊢
    by_cases nothing : c.holdsNothing = true
    · rw [if_pos nothing] at h ⊢
      exact h
    · rw [if_neg nothing] at h ⊢
      exact Cell.finite_number h

/-- A row has a record if all but the distance are there, and all can be read. -/
theorem read_eq_ok {cells : ShapeRow} {row : Int} {r : ShapeRecord} :
    cells.read row = .ok r ↔
      ∃ id lat lon sequence, (cells.id = some id ∧ cells.lat = some lat ∧ cells.lon = some lon ∧
          cells.sequence = some sequence) ∧
        cells.distance row = .ok r.travelled ∧ lat.finite shapeLatColumn row = .ok r.place.lat ∧
        lon.finite shapeLonColumn row = .ok r.place.lon ∧
        sequence.sequenceNumber row = .ok r.sequence ∧ r.id = .ofCell id := by
  simp only [read, bind_eq_ok, required_eq_ok]
  constructor
  · rintro ⟨id, hid, lat, hlat, lon, hlon, sequence, hsequence, travelled, distance, x, hx, y, hy,
      n, hn, same⟩
    cases same
    exact ⟨id, lat, lon, sequence, ⟨hid, hlat, hlon, hsequence⟩, distance, hx, hy, hn, rfl⟩
  · rintro ⟨id, lat, lon, sequence, ⟨hid, hlat, hlon, hsequence⟩, distance, hx, hy, hn, same⟩
    refine ⟨id, hid, lat, hlat, lon, hlon, sequence, hsequence, _, distance, _, hx, _, hy, _, hn,
      ?_⟩
    rw [← same]
    rfl

/-- The record of a row does not depend on the number of the row, which only faults tell. -/
theorem read_number {cells : ShapeRow} {row : Int} {r : ShapeRecord} (h : cells.read row = .ok r)
    (other : Int) : cells.read other = .ok r := by
  rcases read_eq_ok.mp h with ⟨id, lat, lon, sequence, given, distance, hlat, hlon, number, same⟩
  exact read_eq_ok.mpr ⟨id, lat, lon, sequence, given, distance_number distance,
    Cell.finite_number hlat, Cell.finite_number hlon, Cell.sequenceNumber_number number, same⟩

end ShapeRow

/-! ## All rows -/

/-- A stream without a fault has the records of all rows, whatever their numbers are. -/
theorem readRecords_eq {rows : List ShapeRow} {number : Nat} {records : List ShapeRecord} :
    readRecords rows number none = ⟨records, none⟩ ↔
      List.Forall₂ (fun row r => ∀ i, row.read i = .ok r) rows records := by
  induction rows generalizing number records with
  | nil =>
    cases records with
    | nil => exact ⟨fun _ => List.Forall₂.nil, fun _ => rfl⟩
    | cons r records =>
      constructor
      · intro h
        cases h
      · intro h
        cases h
  | cons row rows ih =>
    cases first : row.read number with
    | error fault =>
      rw [readRecords_error first]
      constructor
      · intro h
        cases h
      · intro h
        rcases List.forall₂_cons_left_iff.mp h with ⟨r, -, here, -, -⟩
        rw [here] at first
        cases first
    | ok r =>
      rw [readRecords_ok first]
      constructor
      · intro h
        cases rest : readRecords rows (number + 1) none with
        | mk later fault =>
          rw [rest] at h
          cases h
          exact .cons (ShapeRow.read_number first) (ih.mp rest)
      · intro h
        rcases List.forall₂_cons_left_iff.mp h with ⟨r', records', here, later, rfl⟩
        rw [here] at first
        cases first
        rw [ih.mpr later]

/-- Rows in another order give the same records in another order. -/
theorem readRecords_perm {rows rows' : List ShapeRow} (perm : rows'.Perm rows) {number : Nat}
    {records : List ShapeRecord} (h : readRecords rows number none = ⟨records, none⟩) :
    ∃ records', readRecords rows' number none = ⟨records', none⟩ ∧ records'.Perm records := by
  rcases List.perm_comp_forall₂ perm (readRecords_eq.mp h) with ⟨records', each, same⟩
  exact ⟨records', readRecords_eq.mpr each, same⟩

namespace Sheet

theorem shapeRow_congr {s r : Sheet} (columns : r.columns = s.columns) :
    r.shapeRow = s.shapeRow := by
  funext row
  simp only [shapeRow, shapeCell, column?_congr columns]

theorem Upright.shapes_eq {s : Sheet} {names : List String} {rows : List (List String)}
    (upright : s.Upright names rows) {size : Nat} (wide : 0 < size) :
    s.shapes size =
      match s.missing shapeColumns with
      | [] => readRecords (((filled rows).map (cellsOf names.length)).map s.shapeRow) 1 none
      | lacking => ⟨[], some (.shapeTable (.missingColumns shapeTableName lacking))⟩ := by
  rcases upright.blocks wide with ⟨calm, all⟩
  rw [← all]
  unfold shapes
  simp only [calm, Option.map_none]
  cases (s.blocks size).items <;> rfl

end Sheet

/-- The records of a file whose rows are in another order. -/
theorem readShapes_reordered {a b : Option (List UInt8)}
    (reordered : Option.Rel Csv.Reordered a b) {path : String} {blockRows : Int}
    (wide : 2 ≤ blockRows) {records : List ShapeRecord}
    (h : readShapes path a blockRows = ⟨records, none⟩) :
    ∃ records', readShapes path b blockRows = ⟨records', none⟩ ∧ records'.Perm records := by
  rcases reordered with reordered | -
  swap
  · cases h
  rename_i a b
  simp only [readShapes, if_neg (show ¬ blockRows < 1 by omega)] at h ⊢
  cases opened : Sheet.ofRows (.shapeTable (.emptyTable shapeTableName)) (Csv.readRows a) with
  | error fault =>
    rw [opened] at h
    cases h
  | ok s =>
    rcases Sheet.ofRows_reordered reordered opened with ⟨r, names, rows, rows', again, su, ru, perm⟩
    have columns : r.columns = s.columns := by rw [ru.columns, su.columns]
    have size : 0 < blockRows.toNat := by omega
    simp only [opened, again, su.shapes_eq size, ru.shapes_eq size,
      Sheet.missing_congr columns] at h ⊢
    cases lacking : s.missing shapeColumns with
    | cons first others =>
      rw [lacking] at h
      cases h
    | nil =>
      rw [lacking] at h
      rw [Sheet.shapeRow_congr columns]
      exact readRecords_perm (((Sheet.filled_perm perm).map _).map _) h

end StopAlign
