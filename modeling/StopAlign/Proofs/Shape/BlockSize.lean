import StopAlign.Proofs.Shape.Refusal

/-!
# BlockSize — shape tables read in blocks of different sizes

- `readRecords_first`      : of fewer rows come fewer records, whatever is behind the rows
- `WellShaped`             : files that are text, with cells that are closed and rows that fit
- `Sheet.shapes_wellShaped` : from such a file all blocks give the same, faults included
- `Sheet.items_shapes_first`, `Sheet.items_shapes_one` : from any other file, blocks of one row
  give the most
- `readShapes_sizes`       : both, for the file as a whole

A fault of the structure costs the block in which it is met, so only how far a file is read depends
on the size. Rows are counted over all blocks, so a bad value has the same row in all of them.
-/

namespace StopAlign

open Outcome

/-- The records of the first rows are the first records. What is behind the rows does not matter,
since a row that is bad ends the records of both. -/
theorem readRecords_first {rows rows' : List ShapeRow} (first : rows <+: rows') (number : Nat)
    (last last' : Option Fault) :
    (readRecords rows number last).items <+: (readRecords rows' number last').items := by
  rcases first with ⟨more, rfl⟩
  induction rows generalizing number with
  | nil => exact List.nil_prefix
  | cons row rows ih =>
    rw [List.cons_append]
    cases read : row.read number with
    | error fault =>
      rw [readRecords_error read]
      exact List.nil_prefix
    | ok r =>
      rw [readRecords_ok read, readRecords_ok read]
      exact (List.prefix_cons_inj r).mpr (ih (number + 1))

/-! ## Sheets -/

namespace Sheet

/-- Where the text can be read to its end and no row is too long, the size does not matter. -/
theorem shapes_wellShaped {s : Sheet} (calm : s.fault = none)
    (narrow : ∀ row ∈ filled (s.ahead ++ s.rest), row.length ≤ s.width) {size : Nat}
    (wide : 0 < size) :
    s.shapes size =
      match s.missing shapeColumns with
      | [] => readRecords (s.dataRows.map s.shapeRow) 1 none
      | names => ⟨[], some (.shapeTable (.missingColumns shapeTableName names))⟩ := by
  have ended := (s.blocks_fault_eq_none wide).mpr ⟨calm, narrow⟩
  have whole := s.blocks_whole wide ended
  cases names : s.missing shapeColumns with
  | nil => rw [shapes_complete names, ended, whole, Option.map_none]
  | cons name names' =>
    unfold shapes
    simp only [ended, names, Option.map_none]
    cases (s.blocks size).items <;> rfl

/-- Blocks of any size give the first of the records that the rows hold which are not behind one
that is too long. -/
theorem items_shapes_first {s : Sheet} (complete : s.missing shapeColumns = []) {size : Nat}
    (wide : 0 < size) :
    (s.shapes size).items <+: (readRecords (s.fittingRows.map s.shapeRow) 1 none).items := by
  rw [shapes_complete complete]
  exact readRecords_first ((s.blocks_fitting wide).map s.shapeRow) 1 _ none

/-- Blocks of one row give all of these records. -/
theorem items_shapes_one {s : Sheet} (complete : s.missing shapeColumns = []) :
    (s.shapes 1).items = (readRecords (s.fittingRows.map s.shapeRow) 1 none).items := by
  refine (items_shapes_first complete Nat.one_pos).eq_of_length_le ?_
  rw [shapes_complete complete, s.blocks_one]
  exact (readRecords_first (List.prefix_rfl) 1 none _).length_le

theorem items_shapes_mono {s : Sheet} {size : Nat} (wide : 0 < size) :
    (s.shapes size).items <+: (s.shapes 1).items := by
  by_cases complete : s.missing shapeColumns = []
  · rw [items_shapes_one complete]
    exact items_shapes_first complete wide
  · rcases shapes_incomplete complete size with ⟨fault, nothing, -⟩
    rw [nothing]
    exact List.nil_prefix

end Sheet

/-! ## Files -/

/-- The structure of a file is sound: it is text, each cell that is opened is closed, and no row is
longer than the columns allow. -/
def WellShaped (octets : List UInt8) : Prop :=
  (Csv.readRows octets).fault = none ∧
    ∀ s, shapeSheet octets = .ok s → ∀ row ∈ Sheet.filled (s.ahead ++ s.rest), s.fits row = true

instance (octets : List UInt8) : Decidable (WellShaped octets) :=
  inferInstanceAs (Decidable (_ ∧ ∀ s : Sheet, shapeSheet octets = .ok s → _))

/-- A file that cannot be opened gives nothing, with one fault for all sizes. -/
theorem readShapes_eq (path : String) (octets : List UInt8) {size : Int} (wide : 1 ≤ size) :
    readShapes path (some octets) size =
      match shapeSheet octets with
      | .error fault => ⟨[], some fault⟩
      | .ok s => s.shapes size.toNat := by
  have broad : ¬ size < 1 := by omega
  exact if_neg broad

/-- Files whose structure is sound give the same records and the same end with blocks of all sizes:
none, or the same fault with the same row in it. Of any other file the blocks give the first of the
records that blocks of one row give. -/
theorem readShapes_sizes (path : String) (octets : List UInt8) {size size' : Int} (wide : 1 ≤ size)
    (wide' : 1 ≤ size') :
    (WellShaped octets →
        readShapes path (some octets) size = readShapes path (some octets) size') ∧
      (readShapes path (some octets) size).items <+: (readShapes path (some octets) 1).items := by
  have some_rows : 0 < size.toNat := by omega
  have some_rows' : 0 < size'.toNat := by omega
  rw [readShapes_eq path octets wide, readShapes_eq path octets wide',
    readShapes_eq path octets (Int.le_refl 1)]
  cases opened : shapeSheet octets with
  | error fault => exact ⟨fun _ => rfl, List.prefix_rfl⟩
  | ok s =>
    refine ⟨?_, Sheet.items_shapes_mono some_rows⟩
    rintro ⟨calm, fits⟩
    have last : s.fault = none := (Sheet.ofRows_fault opened).trans calm
    have narrow : ∀ row ∈ Sheet.filled (s.ahead ++ s.rest), row.length ≤ s.width :=
      fun row member => of_decide_eq_true (fits s opened row member)
    exact (Sheet.shapes_wellShaped last narrow some_rows).trans
      (Sheet.shapes_wellShaped last narrow some_rows').symm

/-- Rows between which a line is blank, one of them short, and the last one bad. -/
def raggedTable : List UInt8 :=
  Csv.fileOf [shapeColumns, ["s", "0", "0", "1"], [], ["s", "0", "1", "2"], ["s", "2", "2"],
    ["s", "0", "3", "4"]]

/-- Five rows, the fourth of which is too long. -/
def overlongTable : List UInt8 :=
  Csv.fileOf [shapeColumns, ["s", "0", "0", "1"], ["s", "0", "1", "2"], ["s", "0", "2", "3"],
    ["s", "0", "3", "4", "5"], ["s", "0", "4", "5"]]

theorem readShapes_sizes_ragged :
    (1 : Int) ≤ 2 ∧ (1 : Int) ≤ 3 ∧ WellShaped raggedTable ∧
      readShapes "shapes.txt" (some raggedTable) 2 =
        readShapes "shapes.txt" (some raggedTable) 3 ∧
      ¬ WellShaped overlongTable ∧
      (readShapes "shapes.txt" (some overlongTable) 2).items.length = 2 ∧
      (readShapes "shapes.txt" (some overlongTable) 1).items.length = 3 ∧
      (readShapes "shapes.txt" (some overlongTable) 2).items <+:
        (readShapes "shapes.txt" (some overlongTable) 1).items := by
  have sound : WellShaped raggedTable := by decide +kernel
  have two : (1 : Int) ≤ 2 := by decide
  have three : (1 : Int) ≤ 3 := by decide
  exact ⟨two, three, sound, (readShapes_sizes "shapes.txt" raggedTable two three).1 sound,
    by decide +kernel, by decide +kernel, by decide +kernel,
    (readShapes_sizes "shapes.txt" overlongTable two three).2⟩

end StopAlign
