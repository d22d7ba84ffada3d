import StopAlign.Proofs.Shape.BlockSize
import StopAlign.Proofs.Shape.Table
import StopAlign.Proofs.Table.Shortened

/-!
# Shortened — shape tables whose rows leave out a blank distance

- `ShapeRow.leftOut`, `ShapeRow.BlankDistance` : a row without its distance, and with a blank one
- `ShapeRow.read_leftOut`, `ShapeRow.badColumn?_of_blankDistance` : only the first is a fault
- `Sheet.shapeRow_shortens` : the last cell of a row is its distance
- `readRecords_append` : rows behind others are read if all of these can be
- `Sheet.FirstShorter`, `Sheet.shapes_shortens` : where a sheet with shorter rows breaks off
- `readShapes_shortens` : the same for the files
- `exists_leftOut`     : a row that is read with an empty distance and refused without one

A distance is zero where its column is missing and where its cell is blank. The cell that a short
row leaves out is neither: it comes as "no number", which is a distance that cannot be read.
-/

namespace StopAlign

open Outcome Text

/-! ## Rows -/

namespace ShapeRow

/-- A row that leaves out its distance. -/
def leftOut (cells : ShapeRow) : ShapeRow := { cells with travelled := some .left }

/-- A distance that is there, but blank. -/
def BlankDistance (cells : ShapeRow) : Prop :=
  ∃ text, isBlankText text = true ∧ cells.travelled = some (.text text)

/-- The fault of a row that leaves out its distance. -/
def leftOutFault (row : Int) : Fault :=
  .shapeTable (.invalidValue row shapeTravelledColumn .left)

/-- A distance that is left out is a fault, whatever else is in the row. -/
theorem read_leftOut {cells : ShapeRow} (full : cells.Full) (row : Int) :
    cells.leftOut.read row = .error (leftOutFault row) := by
  rcases full.id with ⟨id, hid⟩
  rcases full.lat with ⟨lat, hlat, -⟩
  rcases full.lon with ⟨lon, hlon, -⟩
  rcases full.sequence with ⟨sequence, hsequence⟩
  have distance : cells.leftOut.distance row = .error (leftOutFault row) := by
    have something : Cell.left.holdsNothing = false := by decide +kernel
    have infinite : Number.notANumber.isFinite = false := by decide +kernel
    have refused : Cell.left.finite shapeTravelledColumn row = .error (leftOutFault row) := by
      show (if Number.notANumber.isFinite = true then Except.ok Number.notANumber else _) = _
      rw [infinite]
      rfl
    simp only [ShapeRow.distance, leftOut, something, Bool.false_eq_true, if_false, refused]
  unfold read
  rw [distance]
  simp only [leftOut, hid, hlat, hlon, hsequence]
  rfl

/-- A blank distance is never to blame. -/
theorem badColumn?_of_blankDistance {cells : ShapeRow} (blank : cells.BlankDistance) :
    cells.badColumn? ≠ some shapeTravelledColumn := by
  rcases blank with ⟨text, nothing, given⟩
  have blank : (Cell.text text).holdsNothing = true := nothing
  have fine : (cells.travelled.all fun c => c.holdsNothing || c.isMeasure) = true := by
    rw [given, Option.all_some, blank, Bool.true_or]
  unfold badColumn? values
  rw [fine]
  intro blamed
  rcases Option.map_eq_some_iff.mp blamed with ⟨value, found, name⟩
  have member := List.mem_of_find?_eq_some found
  have bad := List.find?_some found
  simp only [List.mem_cons, List.not_mem_nil, or_false] at member
  have others : shapeLatColumn ≠ shapeTravelledColumn ∧ shapeLonColumn ≠ shapeTravelledColumn ∧
      shapeSequenceColumn ≠ shapeTravelledColumn := by decide
  rcases member with rfl | rfl | rfl | rfl
  · cases bad
  · exact others.1 name
  · exact others.2.1 name
  · exact others.2.2 name

end ShapeRow

/-! ## Cells of a row -/

namespace Sheet

theorem getElem?_of_column? {s : Sheet} {name : String} {i : Nat} (h : s.column? name = some i) :
    s.columns[i]? = some (some name) :=
  eq_of_beq (List.mem_filter.mp (List.mem_of_getLast? h)).2

/-- The last column is found by its name. -/
theorem column?_last {s : Sheet} {name : String}
    (last : s.columns.getLast? = some (some name)) :
    s.column? name = some (s.columns.length - 1) := by
  rw [List.getLast?_eq_getElem?] at last
  have within := (List.getElem?_eq_some_iff.mp last).1
  obtain ⟨front, count⟩ : ∃ front, s.columns.length = front + 1 :=
    ⟨s.columns.length - 1, by omega⟩
  rw [column?, columnsOf, count, List.range_succ, List.filter_append]
  rw [count] at last
  rw [List.filter_cons_of_pos (by simpa using last), List.filter_nil, List.getLast?_concat,
    Nat.add_sub_cancel]

section LastCell

variable {s : Sheet} {name : String} {front : Row} (place : s.column? name = some front.length)

include place

theorem shapeCell_last (cell : Option String) :
    s.shapeCell (front ++ [cell]) name =
      some (match cell with
        | some text => .text text
        | none => .left) := by
  rw [shapeCell, place, Option.map_some, Row.cell?, List.getElem?_concat_length]
  rfl

/-- In another column the last cell does not matter. -/
theorem shapeCell_other (count : s.columns.length = front.length + 1) {other : String}
    (apart : other ≠ name) (cell cell' : Option String) :
    s.shapeCell (front ++ [cell]) other = s.shapeCell (front ++ [cell']) other := by
  unfold shapeCell
  refine Option.map_congr fun i here => ?_
  have named := getElem?_of_column? here
  have within := (List.getElem?_eq_some_iff.mp named).1
  -- a column has one name, so that this one is in front of the last
  have elsewhere : i ≠ front.length := by
    rintro rfl
    rw [getElem?_of_column? place] at named
    exact apart (Option.some.inj (Option.some.inj named)).symm
  have before : i < front.length := by omega
  rw [Row.cell?, Row.cell?, List.getElem?_append_left before, List.getElem?_append_left before]

end LastCell

/-- Of two rows, one of which is shorter, this one leaves out a distance that is blank in the
other. -/
theorem shapeRow_shortens {s : Sheet} {columns : Nat}
    (laid : s.Laid columns shapeTravelledColumn) {row row' : Row}
    (one : Row.Shortens columns row row') (apart : row' ≠ row) :
    (s.shapeRow row).BlankDistance ∧ s.shapeRow row' = (s.shapeRow row).leftOut := by
  cases one with
  | same => exact absurd rfl apart
  | @shorter front cell full blank =>
    have count : s.columns.length = (front.map some).length + 1 := by
      rw [laid.count, List.length_map, full]
    have place : s.column? shapeTravelledColumn = some (front.map some).length := by
      rw [column?_last laid.last, count, Nat.add_sub_cancel]
    refine ⟨⟨cell, blank, shapeCell_last place (some cell)⟩, ?_⟩
    have same : ∀ name, name ≠ shapeTravelledColumn →
        s.shapeCell (front.map some ++ [none]) name =
          s.shapeCell (front.map some ++ [some cell]) name :=
      fun name apart => shapeCell_other place count apart none (some cell)
    simp only [shapeRow, ShapeRow.leftOut, same shapeIdColumn (by decide),
      same shapeLatColumn (by decide), same shapeLonColumn (by decide),
      same shapeSequenceColumn (by decide), shapeCell_last place none]

end Sheet

/-! ## Streams -/

/-- Rows behind others are read if all of these can be. -/
theorem readRecords_append (front more : List ShapeRow) (number : Nat) (last : Option Fault) :
    readRecords (front ++ more) number last =
      match (readRecords front number none).fault with
      | some _ => readRecords front number none
      | none =>
        ⟨(readRecords front number none).items ++
            (readRecords more (number + front.length) last).items,
          (readRecords more (number + front.length) last).fault⟩ := by
  induction front generalizing number with
  | nil => rfl
  | cons row front ih =>
    cases first : row.read number with
    | error fault =>
      rw [List.cons_append, readRecords_error first, readRecords_error first]
    | ok r =>
      rw [List.cons_append, readRecords_ok first, readRecords_ok first, ih (number + 1),
        List.length_cons, Nat.add_right_comm, Nat.add_assoc number]
      cases readRecords front (number + 1) none with
      | mk items fault => cases fault <;> rfl

/-- Rows are read without a fault if none has a bad value. -/
theorem readRecords_good {rows : List ShapeRow} (full : ∀ row ∈ rows, row.Full) (number : Nat) :
    (readRecords rows number none).fault = none ↔ ∀ row ∈ rows, row.badColumn? = none := by
  rcases readRecords_stops full number none with
    ⟨clean, ⟨row, column, fault, here, bad, failed, -⟩ | ⟨all, ended⟩⟩
  · rw [failed]
    refine ⟨nofun, fun good => ?_⟩
    rw [good row (List.mem_of_getElem? here)] at bad
    cases bad
  · refine ⟨fun _ row member => clean row ?_, fun _ => ended⟩
    rw [all, List.take_length]
    exact member

/-- Without a fault there is a record for each row. -/
theorem length_readRecords {rows : List ShapeRow} {number : Nat}
    (calm : (readRecords rows number none).fault = none) :
    (readRecords rows number none).items.length = rows.length := by
  cases read : readRecords rows number none with
  | mk records fault =>
    rw [read] at calm
    cases calm
    exact (readRecords_eq.mp read).length_eq.symm

section Alike

variable {α : Type} {R : α → α → Prop} {xs ys : List α} (alike : List.Forall₂ R xs ys)

include alike

/-- Two lists of related members are the same, or there is a first place where they are not. -/
theorem first_apart :
    ys = xs ∨ ∃ front x y behind behind', xs = front ++ x :: behind ∧
      ys = front ++ y :: behind' ∧ R x y ∧ y ≠ x := by
  induction alike with
  | nil => exact .inl rfl
  | @cons x y xs ys one later ih =>
    by_cases same : y = x
    · rcases ih with rfl | ⟨front, x', y', behind, behind', rfl, rfl, related, apart⟩
      · exact .inl (congrArg (· :: _) same)
      · exact .inr ⟨x :: front, x', y', behind, behind', rfl, by rw [same]; rfl, related, apart⟩
    · exact .inr ⟨[], x, y, xs, ys, rfl, rfl, one, same⟩

theorem split_apart {k : Nat} (front : ys.take k = xs.take k) (apart : ys[k]? ≠ xs[k]?) :
    (xs.take k).length = k ∧ ∃ x y behind behind', xs = xs.take k ++ x :: behind ∧
      ys = xs.take k ++ y :: behind' ∧ R x y ∧ y ≠ x := by
  induction alike generalizing k with
  | nil => exact absurd rfl apart
  | @cons x y xs ys one later ih =>
    cases k with
    | zero =>
      exact ⟨rfl, x, y, xs, ys, rfl, rfl, one, fun same => apart (congrArg some same)⟩
    | succ k =>
      rw [List.take_succ_cons, List.take_succ_cons] at front
      rcases List.cons.inj front with ⟨rfl, later'⟩
      rcases ih later' apart with ⟨length, x', y', behind, behind', here, here', related, other⟩
      rw [List.take_succ_cons, List.length_cons, length]
      exact ⟨rfl, x', y', behind, behind', congrArg (y :: ·) here, congrArg (y :: ·) here',
        related, other⟩

end Alike

/-! ## Sheets -/

namespace Sheet

variable {s s' : Sheet} {columns size k : Nat}

/-- The first row that is shorter in the second sheet is the one at place `k` from zero. Blocks of
the size reach this row, and all the rows in front of it can be read. -/
structure FirstShorter (s s' : Sheet) (size k : Nat) : Prop where
  reached : k < (s.blocks size).items.flatten.length
  shorter : s'.dataRows[k]? ≠ s.dataRows[k]?
  before : s'.dataRows.take k = s.dataRows.take k
  good : ∀ row ∈ s.dataRows.take k, (s.shapeRow row).badColumn? = none

instance (s s' : Sheet) (size k : Nat) : Decidable (s.FirstShorter s' size k) :=
  decidable_of_iff (k < (s.blocks size).items.flatten.length ∧ s'.dataRows[k]? ≠ s.dataRows[k]? ∧
    s'.dataRows.take k = s.dataRows.take k ∧
    ∀ row ∈ s.dataRows.take k, (s.shapeRow row).badColumn? = none)
    ⟨fun ⟨a, b, c, d⟩ => ⟨a, b, c, d⟩, fun ⟨a, b, c, d⟩ => ⟨a, b, c, d⟩⟩

theorem getElem?_behind {α : Type} (front behind : List α) (x : α) :
    (front ++ x :: behind)[front.length]? = some x := by
  rw [List.getElem?_append_right (Nat.le_refl _), Nat.sub_self]
  rfl

theorem Shortens.rows (shortens : s.Shortens columns s') (size : Nat) :
    List.Forall₂ (Row.Shortens columns) (s.blocks size).items.flatten
      (s'.blocks size).items.flatten :=
  List.rel_flatten (shortens.blocks_shortens size).1

/-- In front of the first shorter row the rows that blocks give are the same. -/
theorem FirstShorter.split (first : s.FirstShorter s' size k) (wide : 0 < size)
    (shortens : s.Shortens columns s') :
    ∃ front row row' behind behind', (s.blocks size).items.flatten = front ++ row :: behind ∧
      (s'.blocks size).items.flatten = front ++ row' :: behind' ∧
      Row.Shortens columns row row' ∧ row' ≠ row ∧ front.length = k ∧
      ∀ row ∈ front, (s.shapeRow row).badColumn? = none := by
  have rows := shortens.rows size
  have reached := first.reached
  have reached' := rows.length_eq ▸ reached
  have front := s.take_blocks wide reached.le
  have same : (s'.blocks size).items.flatten.take k = (s.blocks size).items.flatten.take k := by
    rw [front, s'.take_blocks wide reached'.le, first.before]
  have shorter := first.shorter
  rw [← s.getElem?_blocks wide reached, ← s'.getElem?_blocks wide reached'] at shorter
  rcases split_apart rows same shorter with
    ⟨length, row, row', behind, behind', here, here', one, apart⟩
  exact ⟨_, row, row', behind, behind', here, here', one, apart, length, front ▸ first.good⟩

/-- Where the rows that blocks give begin to differ, there is the first shorter row. -/
theorem firstShorter_of_split (wide : 0 < size) (shortens : s.Shortens columns s')
    {front behind behind' : List Row} {row row' : Row}
    (rows : (s.blocks size).items.flatten = front ++ row :: behind)
    (rows' : (s'.blocks size).items.flatten = front ++ row' :: behind') (apart : row' ≠ row)
    (good : ∀ row ∈ front, (s.shapeRow row).badColumn? = none) :
    s.FirstShorter s' size front.length := by
  have reached : front.length < (s.blocks size).items.flatten.length := by
    rw [rows, List.length_append, List.length_cons]
    omega
  have reached' := (shortens.rows size).length_eq ▸ reached
  have take : s.dataRows.take front.length = front := by
    rw [← s.take_blocks wide reached.le, rows, List.take_left]
  have take' : s'.dataRows.take front.length = front := by
    rw [← s'.take_blocks wide reached'.le, rows', List.take_left]
  refine ⟨reached, ?_, by rw [take, take'], by rwa [take]⟩
  rw [← s.getElem?_blocks wide reached, ← s'.getElem?_blocks wide reached', rows, rows',
    getElem?_behind, getElem?_behind]
  exact fun same => apart (Option.some.inj same)

section Complete

variable (complete : s.missing shapeColumns = [])

include complete

theorem readRecords_front (front : List Row) :
    (readRecords (front.map s.shapeRow) 1 none).fault = none ↔
      ∀ row ∈ front, (s.shapeRow row).badColumn? = none := by
  have full : ∀ row ∈ front.map s.shapeRow, row.Full := by
    intro row member
    rcases List.mem_map.mp member with ⟨cells, -, rfl⟩
    exact full_shapeRow complete cells
  rw [readRecords_good full, List.forall_mem_map]

variable (shortens : s.Shortens columns s')

include shortens

/-- From the sheet with shorter rows come the records of its rows, with the same fault behind
them. -/
theorem shapes_complete_shortens :
    s'.shapes size = readRecords ((s'.blocks size).items.flatten.map s.shapeRow) 1
      ((s.blocks size).fault.map Fault.inStream) := by
  rw [shapes_complete ((missing_congr shortens.named _).trans complete),
    shapeRow_congr shortens.named, (shortens.blocks_shortens size).2]

variable (wide : 0 < size)

include wide

/-- At the first shorter row the sheet breaks off. -/
theorem FirstShorter.shapes_eq (first : s.FirstShorter s' size k)
    (laid : s.Laid columns shapeTravelledColumn) :
    k ≤ (s.shapes size).items.length ∧
      s'.shapes size =
        ⟨(s.shapes size).items.take k, some (ShapeRow.leftOutFault (k + 1 : Nat))⟩ := by
  rcases first.split wide shortens with
    ⟨front, row, row', behind, behind', rows, rows', one, apart, rfl, good⟩
  rcases shapeRow_shortens laid one apart with ⟨-, leftOut⟩
  have calm := (readRecords_front complete front).mpr good
  have all := length_readRecords calm
  rw [List.length_map] at all
  rw [shapes_complete_shortens complete shortens, shapes_complete complete, rows, rows',
    List.map_append, List.map_append, List.map_cons, List.map_cons, readRecords_append,
    readRecords_append, calm, leftOut]
  dsimp only
  rw [readRecords_error (ShapeRow.read_leftOut (full_shapeRow complete row) _), List.append_nil,
    List.take_left' all, List.length_append, all, List.length_map, Nat.add_comm 1]
  exact ⟨Nat.le_add_right _ _, rfl⟩

/-- There the sheet with full rows does not have the same fault. -/
theorem FirstShorter.shapes_ne (first : s.FirstShorter s' size k)
    (laid : s.Laid columns shapeTravelledColumn) : s'.shapes size ≠ s.shapes size := by
  intro same
  rcases first.shapes_eq complete shortens wide laid with ⟨records, broken⟩
  rw [same] at broken
  have count : (s.shapes size).items.length = k := by
    have items := congrArg (·.items.length) broken
    simp only [List.length_take] at items
    omega
  have failed := congrArg Source.fault broken
  -- a fault at this row would blame the distance, which is blank
  rcases shapes_stops complete wide with ⟨column, fault, bad, ended, place⟩ | ⟨-, whole, -⟩
  · rw [ended] at failed
    cases Option.some.inj failed
    cases place
    rcases bad.bad with ⟨row, here, blamed⟩
    rw [count] at here
    rcases first.split wide shortens with
      ⟨front, full, short, behind, behind', rows, -, one, apart, length, -⟩
    rw [← s.getElem?_blocks wide first.reached, rows, ← length, getElem?_behind] at here
    cases here
    exact ShapeRow.badColumn?_of_blankDistance (shapeRow_shortens laid one apart).1 blamed
  · have reached := first.reached
    omega

/-- Without such a row the two sheets give the same. -/
theorem shapes_eq_of_not_firstShorter (nowhere : ∀ k, ¬ s.FirstShorter s' size k) :
    s'.shapes size = s.shapes size := by
  rw [shapes_complete_shortens complete shortens, shapes_complete complete]
  rcases first_apart (shortens.rows size) with
    same | ⟨front, row, row', behind, behind', rows, rows', -, apart⟩
  · rw [same]
  · rw [rows, rows', List.map_append, List.map_append, readRecords_append, readRecords_append]
    cases ended : (readRecords (front.map s.shapeRow) 1 none).fault with
    | some => rfl
    | none =>
      have good := (readRecords_front complete front).mp ended
      exact absurd (firstShorter_of_split wide shortens rows rows' apart good) (nowhere _)

end Complete

/-- Without a needed column the rows do not matter. -/
theorem shapes_incomplete_shortens (lacking : s.missing shapeColumns ≠ [])
    (shortens : s.Shortens columns s') : s'.shapes size = s.shapes size := by
  have same := missing_congr shortens.named shapeColumns
  rcases shortens.blocks_shortens size with ⟨blocks, fault⟩
  cases names : s.missing shapeColumns with
  | nil => exact absurd names lacking
  | cons name names' =>
    simp only [shapes, fault, same, names]
    generalize (s.blocks size).items = items at blocks
    generalize (s'.blocks size).items = items' at blocks
    cases blocks <;> rfl

theorem shapes_shortens (wide : 0 < size) (shortens : s.Shortens columns s')
    (laid : s.Laid columns shapeTravelledColumn) (complete : s.missing shapeColumns = []) :
    (∀ k, s.FirstShorter s' size k → k ≤ (s.shapes size).items.length ∧
        s'.shapes size =
          ⟨(s.shapes size).items.take k, some (ShapeRow.leftOutFault (k + 1 : Nat))⟩) ∧
      (s'.shapes size = s.shapes size ↔ ∀ k, ¬ s.FirstShorter s' size k) := by
  refine ⟨fun k first => first.shapes_eq complete shortens wide laid, ?_,
    shapes_eq_of_not_firstShorter complete shortens wide⟩
  exact fun same k first => first.shapes_ne complete shortens wide laid same

end Sheet

/-! ## Files -/

/-- The rows that come to be read of a table and of a shortened one are first different at place `k`
from zero, behind rows that can all be read. -/
def MeetsShorter (octets octets' : List UInt8) (blockRows : Int) (k : Nat) : Prop :=
  ∃ s s', Opened (some octets) blockRows s ∧ shapeSheet octets' = .ok s' ∧
    s.FirstShorter s' blockRows.toNat k

instance (octets octets' : List UInt8) (blockRows : Int) (k : Nat) :
    Decidable (MeetsShorter octets octets' blockRows k) :=
  decidable_of_iff (1 ≤ blockRows ∧ (shapeSheet octets).toOption.any (fun s =>
      (shapeSheet octets').toOption.any fun s' =>
        decide (s.missing shapeColumns = [] ∧ s.FirstShorter s' blockRows.toNat k)) = true) (by
    constructor
    · rintro ⟨wide, found⟩
      rcases exists_ok_of_any found with ⟨s, sheet, found⟩
      rcases exists_ok_of_any found with ⟨s', sheet', found⟩
      rcases of_decide_eq_true found with ⟨complete, first⟩
      exact ⟨s, s', ⟨wide, by rw [Option.map_some, sheet], complete⟩, sheet', first⟩
    · rintro ⟨s, s', opened, sheet', first⟩
      have sheet : shapeSheet octets = .ok s := Option.some.inj opened.sheet
      rw [sheet, sheet']
      exact ⟨opened.wide, decide_eq_true ⟨opened.complete, first⟩⟩)

section Files

variable {columns : Nat} {text text' : List Char}
  (shortens : Csv.ShortensText columns .start text text')
  (laid : ∀ s, shapeSheet (Text.encode text) = .ok s → s.Laid columns shapeTravelledColumn)

include shortens laid

/-- Either both tables give the same, which is a fault, or both have their sheets. -/
theorem readShapes_shortens_cases (path : String) (blockRows : Int) :
    (readShapes path (some (Text.encode text')) blockRows =
        readShapes path (some (Text.encode text)) blockRows ∧
        ∀ s, ¬ Opened (some (Text.encode text)) blockRows s) ∨
      ∃ s s', Opened (some (Text.encode text)) blockRows s ∧
        shapeSheet (Text.encode text') = .ok s' ∧ s.Shortens columns s' ∧
        readShapes path (some (Text.encode text)) blockRows = s.shapes blockRows.toNat ∧
        readShapes path (some (Text.encode text')) blockRows = s'.shapes blockRows.toNat := by
  by_cases narrow : blockRows < 1
  · refine .inl ⟨by simp only [readShapes, if_pos narrow], fun s opened => ?_⟩
    have wide := opened.wide
    omega
  have wide : 1 ≤ blockRows := by omega
  rw [readShapes_eq path _ wide, readShapes_eq path _ wide]
  rcases Sheet.ofRows_shortens (Csv.readRows_shortens shortens)
      (.shapeTable (.emptyTable shapeTableName)) with ⟨fault, failed, failed'⟩ | ⟨s, sheet, shorter⟩
  · have sheet : shapeSheet (Text.encode text) = .error fault := failed
    have sheet' : shapeSheet (Text.encode text') = .error fault := failed'
    rw [sheet, sheet']
    refine .inl ⟨rfl, fun s opened => ?_⟩
    have found := opened.sheet
    rw [Option.map_some, sheet] at found
    cases found
  · have sheet : shapeSheet (Text.encode text) = .ok s := sheet
    rcases shorter shapeTravelledColumn (laid s sheet) (by decide) with ⟨s', sheet', alike⟩
    have sheet' : shapeSheet (Text.encode text') = .ok s' := sheet'
    rw [sheet, sheet']
    by_cases complete : s.missing shapeColumns = []
    · exact .inr ⟨s, s', ⟨wide, by rw [Option.map_some, sheet], complete⟩, rfl, alike, rfl, rfl⟩
    · refine .inl ⟨Sheet.shapes_incomplete_shortens complete alike, fun other opened => ?_⟩
      have found := opened.sheet
      rw [Option.map_some, sheet] at found
      cases found
      exact complete opened.complete

end Files

/-- Let the last column of a table be the distance, and let rows leave out this cell where it is
blank. Then nothing changes unless such a row comes to be read. If one does, the records in front of
it are all there is, and its distance is a fault. -/
theorem readShapes_shortens {columns : Nat} {text text' : List Char}
    (shortens : Csv.ShortensText columns .start text text')
    (laid : ∀ s, shapeSheet (Text.encode text) = .ok s → s.Laid columns shapeTravelledColumn)
    (path : String) (blockRows : Int) :
    let source := readShapes path (some (Text.encode text)) blockRows
    let source' := readShapes path (some (Text.encode text')) blockRows
    (∀ k, MeetsShorter (Text.encode text) (Text.encode text') blockRows k →
        k ≤ source.items.length ∧
        source' = ⟨source.items.take k, some (ShapeRow.leftOutFault (k + 1 : Nat))⟩) ∧
      (source' = source ↔
        ∀ k, ¬ MeetsShorter (Text.encode text) (Text.encode text') blockRows k) := by
  rcases readShapes_shortens_cases shortens laid path blockRows with
    ⟨same, closed⟩ | ⟨s, s', opened, sheet', alike, read, read'⟩
  · have unmet : ∀ k, ¬ MeetsShorter (Text.encode text) (Text.encode text') blockRows k :=
      fun k ⟨s, s', opened, _, _⟩ => closed s opened
    exact ⟨fun k meets => absurd meets (unmet k), fun _ => unmet, fun _ => same⟩
  · have meets : ∀ k, MeetsShorter (Text.encode text) (Text.encode text') blockRows k ↔
        s.FirstShorter s' blockRows.toNat k := by
      refine fun k => ⟨?_, fun first => ⟨s, s', opened, sheet', first⟩⟩
      rintro ⟨r, r', other, again, first⟩
      rw [sheet'] at again
      cases again
      cases opened.unique other
      exact first
    have wide : 0 < blockRows.toNat := by
      have positive := opened.wide
      omega
    have sheet : shapeSheet (Text.encode text) = .ok s := Option.some.inj opened.sheet
    simp only [meets, read, read']
    exact Sheet.shapes_shortens wide alike (laid s sheet) opened.complete

/-- The text of a table with all columns, the distance last, and with some lines. -/
def distanceLast (lines : String) : List Char :=
  (String.intercalate "," (shapeColumns ++ [shapeTravelledColumn]) ++ "\n" ++ lines).toList

/-- Three rows, the last two of which have a blank distance. -/
def blankTable : List Char :=
  distanceLast "s,0,0,1,2\ns,0,1,2" ++ (',' :: [] ++ '\n' :: ("s,0,2,3".toList ++ ',' :: [' ']))

/-- The same rows, the last two of which leave it out. -/
def leftOutTable : List Char :=
  distanceLast "s,0,0,1,2\ns,0,1,2" ++ '\n' :: ("s,0,2,3".toList ++ [])

theorem readShapes_shortens_second :
    Csv.ShortensText 5 .start blankTable leftOutTable ∧
      (∀ s, shapeSheet (Text.encode blankTable) = .ok s → s.Laid 5 shapeTravelledColumn) ∧
      MeetsShorter (Text.encode blankTable) (Text.encode leftOutTable) 2 1 ∧
      readShapes "shapes.txt" (some (Text.encode leftOutTable)) 2 =
        ⟨(readShapes "shapes.txt" (some (Text.encode blankTable)) 2).items.take 1,
          some (ShapeRow.leftOutFault 2)⟩ := by
  have shortens : Csv.ShortensText 5 .start blankTable leftOutTable :=
    .append _ (.line (by decide +kernel) (.inl rfl)
      (.append _ (.last (by decide +kernel))))
  have laid : ∀ s, shapeSheet (Text.encode blankTable) = .ok s →
      s.Laid 5 shapeTravelledColumn := by decide +kernel
  have meets : MeetsShorter (Text.encode blankTable) (Text.encode leftOutTable) 2 1 := by
    decide +kernel
  exact ⟨shortens, laid, meets,
    ((readShapes_shortens shortens laid "shapes.txt" 2).1 1 meets).2⟩

/-- A row that can be read with an empty distance, and not without it. -/
theorem exists_leftOut :
    ∃ text text', Csv.ShortensText 5 .start text text' ∧
      (∀ s, shapeSheet (Text.encode text) = .ok s → s.Laid 5 shapeTravelledColumn) ∧
      readShapes shapeTableName (some (Text.encode text)) defaultBlockRows =
        ⟨[⟨.text "s", ⟨0, 0⟩, 1, 0⟩], none⟩ ∧
      readShapes shapeTableName (some (Text.encode text')) defaultBlockRows =
        ⟨[], some (ShapeRow.leftOutFault 1)⟩ ∧
      (ShapeRow.leftOutFault 1).message = "Row 1: invalid shape_dist_traveled value nan" :=
  ⟨distanceLast "s,0,0,1" ++ (',' :: [] ++ '\n' :: []), distanceLast "s,0,0,1" ++ '\n' :: [],
    .append _ (.line (by decide +kernel) (.inl rfl) (.done _)), by decide +kernel,
    by decide +kernel, by decide +kernel, by decide +kernel⟩

end StopAlign
