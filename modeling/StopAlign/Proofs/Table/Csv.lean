import StopAlign.Proofs.Text.Utf8
import StopAlign.Table.Csv

/-!
# Csv — rows that are written and read again

- `LineEnd`, `Style`, `Line` : how lines end, how cells are written, and a row with its style
- `Style.Fits`       : the cells that a style can write
- `Scan.AtRow`, `Scan.AtCell`, `Scan.Holds`, `Scan.Lost` : where a reader can stand
- `Scan.AtCell.write`, `Scan.AtCell.run_line`, `Scan.AtRow.run_text` : one cell, one line, all lines
- `readRows_written` : rows come back as they were written
- `readRows_overlong` : a cell that is too long ends the rows in front of its own

In quotes a cell may hold any character: separators, line ends, quotes and the null character. Only
its length has a limit.
-/

namespace StopAlign

open Text

namespace Csv

/-! ## Written rows -/

inductive LineEnd
  | feed
  | carriage
  | both
  deriving DecidableEq, Repr

def LineEnd.chars : LineEnd → List Char
  | .feed => ['\n']
  | .carriage => ['\r']
  | .both => ['\r', '\n']

/-- How the cells of a row are written. -/
inductive Style
  | bare
  | quoted
  deriving DecidableEq, Repr

/-- A character that stands for itself without quotes. -/
def isOrdinary (c : Char) : Bool := c ≠ ',' && c ≠ '"' && c ≠ '\n' && c ≠ '\r'

namespace Style

def write : Style → List Char → List Char
  | .bare, cs => cs
  | .quoted, cs => '"' :: (doubled cs ++ ['"'])

/-- A cell that a style can write. Without quotes it has ordinary characters, and at least one. -/
structure Fits (style : Style) (cell : String) : Prop where
  short : cell.length ≤ cellLimit
  plain : style = .bare → cell.toList ≠ [] ∧ cell.toList.all isOrdinary = true

end Style

/-- A row and the style of its cells. -/
structure Line where
  style : Style
  cells : List String
  deriving DecidableEq, Repr

namespace Line

def chars (l : Line) : List Char :=
  [','].intercalate (l.cells.map fun cell => l.style.write cell.toList)

theorem chars_singleton (style : Style) (cell : String) :
    chars ⟨style, [cell]⟩ = style.write cell.toList :=
  List.intercalate_singleton ..

theorem chars_cons (style : Style) (cell : String) {others : List String} (more : others ≠ []) :
    chars ⟨style, cell :: others⟩ = style.write cell.toList ++ ',' :: chars ⟨style, others⟩ := by
  rcases List.exists_cons_of_ne_nil more with ⟨next, behind, rfl⟩
  simp only [chars, List.map_cons, List.intercalate_cons_cons, List.append_assoc,
    List.singleton_append]

/-- A line with a cell, whose cells can all be written. -/
structure Fits (l : Line) : Prop where
  filled : l.cells ≠ []
  each : ∀ cell ∈ l.cells, l.style.Fits cell

end Line

/-- The text of lines that all end in one way. -/
def textOf (ending : LineEnd) (lines : List Line) : List Char :=
  lines.flatMap fun l => l.chars ++ ending.chars

theorem textOf_cons (ending : LineEnd) (l : Line) (lines : List Line) :
    textOf ending (l :: lines) = l.chars ++ (ending.chars ++ textOf ending lines) := by
  rw [textOf, List.flatMap_cons, List.append_assoc]
  rfl

theorem textOf_append (ending : LineEnd) (lines later : List Line) :
    textOf ending (lines ++ later) = textOf ending lines ++ textOf ending later :=
  List.flatMap_append

/-! ## Where a reader stands -/

namespace Scan

/-- In front of a row. Behind a carriage return the row before it is not put down yet. -/
inductive AtRow : Scan → List (List String) → Prop
  | fresh (rows : List (List String)) : AtRow ⟨.rowStart, [], 0, [], rows⟩ rows
  | behindReturn (cells : List String) (rows : List (List String)) :
    AtRow ⟨.returnSeen, [], 0, cells, rows⟩ (cells.reverse :: rows)

/-- In front of a cell, with the cells of its row that have been read. -/
inductive AtCell : Scan → List String → List (List String) → Prop
  | first {s : Scan} {rows : List (List String)} (atRow : AtRow s rows) : AtCell s [] rows
  | later (cells : List String) (rows : List (List String)) :
    AtCell ⟨.cellStart, [], 0, cells, rows⟩ cells rows

/-- Behind the characters of a cell, which a separator ends. -/
inductive Holds : Scan → List Char → List String → List (List String) → Prop
  | plain (cs : List Char) (cells : List String) (rows : List (List String)) :
    Holds ⟨.plain, cs.reverse, cs.length, cells, rows⟩ cs cells rows
  | quoted (cs : List Char) (cells : List String) (rows : List (List String)) :
    Holds ⟨.quoteSeen, cs.reverse, cs.length, cells, rows⟩ cs cells rows

/-- In or behind a line with a faulty cell. -/
structure Lost (s : Scan) (flaw : CellFlaw) (rows : List (List String)) : Prop where
  place : s.place = .spoilt flaw ∨ s.place = .broken flaw
  rows : s.rows = rows

variable {s : Scan} {cs : List Char} {cells : List String} {rows : List (List String)}

/-! ### Through a cell -/

theorem AtCell.step_quote (front : AtCell s cells rows) :
    s.step '"' = ⟨.quoted, [], 0, cells, rows⟩ := by
  cases front with
  | first atRow => cases atRow <;> rfl
  | later => rfl

theorem stepPlain_ordinary {c : Char} (ordinary : isOrdinary c = true) (s : Scan) :
    s.stepPlain c = s.addChar c .plain := by
  simp only [isOrdinary, Bool.and_eq_true, decide_eq_true_eq] at ordinary
  rcases ordinary with ⟨⟨⟨comma, -⟩, feed⟩, carriage⟩
  rw [stepPlain, if_neg comma, if_neg feed, if_neg carriage]

theorem AtCell.step_ordinary (front : AtCell s cells rows) {c : Char}
    (ordinary : isOrdinary c = true) : s.step c = ⟨.plain, [c], 1, cells, rows⟩ := by
  have plain := stepPlain_ordinary ordinary
  simp only [isOrdinary, Bool.and_eq_true, decide_eq_true_eq] at ordinary
  rcases ordinary with ⟨⟨⟨-, quote⟩, feed⟩, carriage⟩
  have cell : ∀ t : Scan, t.stepCell c = t.addChar c .plain :=
    fun t => by rw [stepCell, if_neg quote, plain]
  have row : ∀ t : Scan, t.stepRow c = t.addChar c .plain :=
    fun t => by rw [stepRow, if_neg feed, if_neg carriage, cell]
  cases front with
  | first atRow =>
    cases atRow with
    | fresh => exact row _
    | behindReturn => exact (if_neg feed).trans (row _)
  | later => exact cell _

theorem addChar_of_lt (h : s.count < cellLimit) (c : Char) (place : Place) :
    s.addChar c place = ⟨place, c :: s.chars, s.count + 1, s.cells, s.rows⟩ :=
  if_pos h

theorem doubled_cons (c : Char) (cs : List Char) :
    doubled (c :: cs) = (if c = '"' then ['"', '"'] else [c]) ++ doubled cs := rfl

/-- In quotes a character is put down, a quote by two of them. -/
theorem run_inQuotes (c : Char) (chars : List Char) (count : Nat) :
    run ⟨.quoted, chars, count, cells, rows⟩ (if c = '"' then ['"', '"'] else [c]) =
      addChar ⟨.quoted, chars, count, cells, rows⟩ c .quoted := by
  by_cases quote : c = '"'
  · -- the first quote only moves the reader, and a full cell is full wherever the reader stands
    subst quote
    rfl
  · rw [if_neg quote, run_cons, run_nil, step]
    exact if_neg quote

theorem run_doubled (chars : List Char) (count : Nat) (room : count + cs.length ≤ cellLimit) :
    run ⟨.quoted, chars, count, cells, rows⟩ (doubled cs) =
      ⟨.quoted, cs.reverse ++ chars, count + cs.length, cells, rows⟩ := by
  induction cs generalizing chars count with
  | nil => rfl
  | cons c cs ih =>
    rw [List.length_cons] at room
    rw [doubled_cons, run_append, run_inQuotes, addChar_of_lt (show count < cellLimit by omega),
      ih (c :: chars) (count + 1) (by omega), List.length_cons, List.reverse_cons,
      List.append_assoc, Nat.add_right_comm, Nat.add_assoc]
    rfl

theorem run_ordinary (ordinary : ∀ c ∈ cs, isOrdinary c = true) (chars : List Char) (count : Nat)
    (room : count + cs.length ≤ cellLimit) :
    run ⟨.plain, chars, count, cells, rows⟩ cs =
      ⟨.plain, cs.reverse ++ chars, count + cs.length, cells, rows⟩ := by
  induction cs generalizing chars count with
  | nil => rfl
  | cons c cs ih =>
    rw [List.length_cons] at room
    have one : step ⟨.plain, chars, count, cells, rows⟩ c =
        ⟨.plain, c :: chars, count + 1, cells, rows⟩ :=
      (stepPlain_ordinary (ordinary c List.mem_cons_self) _).trans
        (addChar_of_lt (show count < cellLimit by omega) c .plain)
    rw [run_cons, one, ih (fun d member => ordinary d (List.mem_cons_of_mem c member)) (c :: chars)
      (count + 1) (by omega), List.length_cons, List.reverse_cons, List.append_assoc,
      Nat.add_right_comm, Nat.add_assoc]
    rfl

/-- A cell is read as it is written. -/
theorem AtCell.write (front : AtCell s cells rows) {style : Style} {cell : String}
    (fits : style.Fits cell) :
    Holds (s.run (style.write cell.toList)) cell.toList cells rows := by
  have short : cell.toList.length ≤ cellLimit := by
    rw [String.length_toList]
    exact fits.short
  cases style with
  | bare =>
    rcases fits.plain rfl with ⟨some, plain⟩
    have ordinary := List.all_eq_true.mp plain
    rcases List.exists_cons_of_ne_nil some with ⟨c, cs, whole⟩
    rw [whole] at ordinary short ⊢
    rw [List.length_cons] at short
    have holds := Holds.plain (c :: cs) cells rows
    rw [Style.write, run_cons, front.step_ordinary (ordinary c List.mem_cons_self),
      run_ordinary (fun d member => ordinary d (List.mem_cons_of_mem c member)) [c] 1 (by omega)]
    rwa [List.length_cons, List.reverse_cons, Nat.add_comm] at holds
  | quoted =>
    have holds := Holds.quoted cell.toList cells rows
    rw [Style.write, run_cons, front.step_quote, run_append,
      run_doubled [] 0 (by omega), List.append_nil, Nat.zero_add]
    exact holds

/-! ### From cell to cell -/

theorem Holds.endCell_eq (holds : Holds s cs cells rows) (place : Place) :
    s.endCell place = ⟨place, [], 0, String.ofList cs :: cells, rows⟩ := by
  cases holds <;> simp only [endCell, List.reverse_reverse]

theorem Holds.step_separator (holds : Holds s cs cells rows) {c : Char}
    (separator : c = ',' ∨ c = '\n' ∨ c = '\r') : s.step c = s.stepPlain c := by
  cases holds with
  | plain => rfl
  | quoted =>
    have noQuote : c ≠ '"' := by
      rintro rfl
      revert separator
      decide
    exact (if_neg noQuote).trans (if_pos separator)

theorem Holds.step_comma (holds : Holds s cs cells rows) :
    AtCell (s.step ',') (String.ofList cs :: cells) rows := by
  rw [holds.step_separator (.inl rfl), stepPlain, if_pos rfl, holds.endCell_eq]
  exact .later _ _

theorem Holds.step_feed (holds : Holds s cs cells rows) :
    AtRow (s.step '\n') ((String.ofList cs :: cells).reverse :: rows) := by
  rw [holds.step_separator (.inr (.inl rfl)), stepPlain, if_neg (by decide), if_pos rfl,
    holds.endCell_eq]
  exact .fresh _

theorem Holds.step_carriage (holds : Holds s cs cells rows) :
    s.step '\r' = ⟨.returnSeen, [], 0, String.ofList cs :: cells, rows⟩ := by
  rw [holds.step_separator (.inr (.inr rfl)), stepPlain, if_neg (by decide), if_neg (by decide),
    if_pos rfl, holds.endCell_eq]

theorem Holds.run_ending (holds : Holds s cs cells rows) (ending : LineEnd) :
    AtRow (s.run ending.chars) ((String.ofList cs :: cells).reverse :: rows) := by
  cases ending with
  | feed => exact holds.step_feed
  | carriage =>
    rw [LineEnd.chars, run_cons, holds.step_carriage]
    exact .behindReturn _ _
  | both =>
    -- the line feed puts the row down that the carriage return has ended
    rw [LineEnd.chars, run_cons, holds.step_carriage]
    exact .fresh _

theorem AtCell.run_line (front : AtCell s cells rows) {l : Line} (fits : l.Fits)
    (ending : LineEnd) :
    AtRow (s.run (l.chars ++ ending.chars)) ((cells.reverse ++ l.cells) :: rows) := by
  rcases l with ⟨style, row⟩
  rcases fits with ⟨filled, each⟩
  dsimp only at filled each ⊢
  -- by induction on the cells, from wherever the first of them begins
  induction row generalizing s cells with
  | nil => exact absurd rfl filled
  | cons cell others ih =>
    have holds := front.write (each cell List.mem_cons_self)
    by_cases last : others = []
    · have ended := holds.run_ending ending
      rw [String.ofList_toList, List.reverse_cons] at ended
      rw [last, Line.chars_singleton, run_append]
      exact ended
    · have later := ih holds.step_comma last
        fun other member => each other (List.mem_cons_of_mem cell member)
      rw [String.ofList_toList, List.reverse_cons, List.append_assoc] at later
      rw [Line.chars_cons style cell last, List.append_assoc, run_append, List.cons_append,
        run_cons]
      exact later

theorem AtRow.run_text (front : AtRow s rows) {lines : List Line} (fits : ∀ l ∈ lines, l.Fits)
    (ending : LineEnd) :
    AtRow (s.run (textOf ending lines)) ((lines.map (·.cells)).reverse ++ rows) := by
  induction lines generalizing s rows with
  | nil => exact front
  | cons l lines ih =>
    have first := (AtCell.first front).run_line (fits l List.mem_cons_self) ending
    have later := ih first fun other member => fits other (List.mem_cons_of_mem l member)
    rw [textOf_cons, ← List.append_assoc, run_append, List.map_cons, List.reverse_cons,
      List.append_assoc]
    exact later

theorem AtRow.finish_eq (front : AtRow s rows) : s.finish = ⟨rows.reverse, none⟩ := by
  cases front with
  | fresh => rfl
  | behindReturn => rfl

/-! ### Cells that are too long -/

theorem lost_spoil (s : Scan) (c : Char) (flaw : CellFlaw) : Lost (s.spoil c flaw) flaw s.rows := by
  rw [spoil]
  by_cases newline : c = '\n' ∨ c = '\r'
  · rw [if_pos newline]
    exact ⟨.inr rfl, rfl⟩
  · rw [if_neg newline]
    exact ⟨.inl rfl, rfl⟩

theorem Lost.step {flaw : CellFlaw} (lost : Lost s flaw rows) (c : Char) :
    Lost (s.step c) flaw rows := by
  rcases lost with ⟨spoilt | broken, rfl⟩
  · rw [Scan.step, spoilt]
    exact lost_spoil s c flaw
  · rw [Scan.step, broken]
    exact ⟨.inr broken, rfl⟩

theorem Lost.run {flaw : CellFlaw} (lost : Lost s flaw rows) (cs : List Char) :
    Lost (s.run cs) flaw rows := by
  induction cs generalizing s with
  | nil => exact lost
  | cons c cs ih => exact ih (lost.step c)

theorem Lost.finish_eq {flaw : CellFlaw} (lost : Lost s flaw rows) :
    s.finish = ⟨rows.reverse, some (.badCell flaw)⟩ := by
  rcases lost with ⟨spoilt | broken, rfl⟩
  · rw [finish, spoilt]
    rfl
  · rw [finish, broken]
    rfl

theorem doubled_append (cs ds : List Char) : doubled (cs ++ ds) = doubled cs ++ doubled ds :=
  List.flatMap_append

/-- The first character that a cell has no room for spoils its line. -/
theorem AtCell.write_overlong (front : AtCell s cells rows) (long : cellLimit < cs.length) :
    Lost (s.run (Style.quoted.write cs)) .tooLong rows := by
  have count : (cs.take cellLimit).length = cellLimit :=
    List.length_take_of_le (Nat.le_of_lt long)
  have split : cs = cs.take cellLimit ++ cs[cellLimit] :: cs.drop (cellLimit + 1) := by
    rw [← List.drop_eq_getElem_cons long, List.take_append_drop]
  generalize cs.take cellLimit = fitting at count split
  have full : run ⟨.quoted, [], 0, cells, rows⟩ (doubled fitting) =
      ⟨.quoted, fitting.reverse ++ [], cellLimit, cells, rows⟩ := by
    rw [run_doubled [] 0 (by omega), count, Nat.zero_add]
  rw [Style.write, run_cons, front.step_quote, split, doubled_append, doubled_cons,
    List.append_assoc, List.append_assoc, run_append, full, run_append, run_inQuotes, addChar,
    if_neg (Nat.lt_irrefl cellLimit)]
  exact (lost_spoil _ _ _).run _

theorem AtCell.run_overlong (front : AtCell s cells rows) {before : List String}
    (each : ∀ cell ∈ before, Style.quoted.Fits cell) {long : String}
    (tooLong : cellLimit < long.length) (after : List String) :
    Lost (s.run (Line.chars ⟨.quoted, before ++ long :: after⟩)) .tooLong rows := by
  induction before generalizing s cells with
  | nil =>
    have lost := front.write_overlong (show cellLimit < long.toList.length by
      rwa [String.length_toList])
    rw [List.nil_append]
    by_cases last : after = []
    · rw [last, Line.chars_singleton]
      exact lost
    · rw [Line.chars_cons _ _ last, run_append]
      exact lost.run _
  | cons cell before ih =>
    have holds := front.write (each cell List.mem_cons_self)
    rw [List.cons_append, Line.chars_cons _ _ (by simp), run_append, run_cons]
    exact ih holds.step_comma fun other member => each other (List.mem_cons_of_mem cell member)

end Scan

/-- Rows come back as they were written. -/
theorem readRows_written (ending : LineEnd) {lines : List Line} (fits : ∀ l ∈ lines, l.Fits) :
    readRows (encode (textOf ending lines)) = ⟨lines.map (·.cells), none⟩ := by
  have front := (Scan.AtRow.fresh []).run_text fits ending
  rw [List.append_nil] at front
  have finish := front.finish_eq
  rw [List.reverse_reverse] at finish
  rw [readRows, decode_encode]
  exact finish

/-- A cell that is too long ends the rows in front of its own, whatever stands behind it. -/
theorem readRows_overlong (ending : LineEnd) {lines : List Line} (fits : ∀ l ∈ lines, l.Fits)
    {before : List String} (each : ∀ cell ∈ before, Style.quoted.Fits cell) {long : String}
    (tooLong : cellLimit < long.length) (after : List String) (later : List Line) :
    readRows (encode (textOf ending (lines ++ ⟨.quoted, before ++ long :: after⟩ :: later))) =
      ⟨lines.map (·.cells), some (.badCell .tooLong)⟩ := by
  have front := (Scan.AtRow.fresh []).run_text fits ending
  rw [List.append_nil] at front
  have lost := (Scan.AtCell.first front).run_overlong each tooLong after
  have finish := (lost.run (ending.chars ++ textOf ending later)).finish_eq
  rw [List.reverse_reverse, ← Scan.run_append, ← Scan.run_append, ← textOf_cons, ← textOf_append]
    at finish
  rw [readRows, decode_encode]
  exact finish

end Csv

end StopAlign
