import Mathlib.Data.List.TakeWhile
import StopAlign.Proofs.Table.Sheet
import StopAlign.Proofs.Text.Utf8

/-!
# Shortened — tables some of whose rows leave out a blank last cell

- `Csv.Shortens`     : a row, and the same row, or what it is without its last cell
- `Csv.Scan.Level`, `Csv.Scan.Beside` : readers at one place in such tables
- `Csv.Scan.FinalBlank`, `Csv.ShortensText` : a last separator with a blank cell behind it; a text,
  and the same text without some of these
- `Csv.readRows_shortens` : the rows of two such texts
- `Sheet.Shortens`, `Sheet.ofRows_shortens` : their sheets
- `Row.Shortens`, `Sheet.blocks_shortens` : their blocks, which end with the same fault

Only a row with a cell in each column is shortened, and it keeps two cells at least, so that it does
not become a blank line. Rows keep their places, and a row that is too long stays as it is.
-/

namespace StopAlign

open Outcome

namespace Csv

/-- A row of a table with so many columns, as it is or without its last cell. -/
inductive Shortens (columns : Nat) : List String → List String → Prop
  | same (row : List String) : Shortens columns row row
  | shorter {front : List String} {cell : String} (full : front.length + 1 = columns)
    (more : 2 ≤ front.length) (blank : Text.isBlankText cell = true) :
    Shortens columns (front ++ [cell]) front

/-- The rows of two texts, where those of the second one may be shorter. -/
structure ShortensRows (columns : Nat) (rows rows' : Source (List String)) : Prop where
  items : List.Forall₂ (Shortens columns) rows.items rows'.items
  fault : rows'.fault = rows.fault

/-! ## Two readers -/

namespace Scan

variable {columns : Nat} {s s' : Scan}

/-- Two readers that differ in nothing but the rows behind them. -/
inductive Level (columns : Nat) : Scan → Scan → Prop
  | intro (place : Place) (chars : List Char) (count : Nat) (cells : List String)
    {rows rows' : List (List String)} (alike : List.Forall₂ (Shortens columns) rows rows') :
    Level columns ⟨place, chars, count, cells, rows⟩ ⟨place, chars, count, cells, rows'⟩

namespace Level

theorem addChar (level : Level columns s s') (c : Char) (place : Place) :
    Level columns (s.addChar c place) (s'.addChar c place) := by
  cases level with
  | intro _ chars count cells alike =>
    unfold Scan.addChar Scan.spoil
    dsimp only
    split_ifs <;> exact .intro _ _ _ _ alike

theorem endCell (level : Level columns s s') (place : Place) :
    Level columns (s.endCell place) (s'.endCell place) := by
  cases level with
  | intro _ chars count cells alike => exact .intro _ _ _ _ alike

theorem endRow (level : Level columns s s') : Level columns s.endRow s'.endRow := by
  cases level with
  | intro _ chars count cells alike => exact .intro _ _ _ _ (.cons (.same _) alike)

theorem stepPlain (level : Level columns s s') (c : Char) :
    Level columns (s.stepPlain c) (s'.stepPlain c) := by
  unfold Scan.stepPlain
  split_ifs
  · exact level.endCell _
  · exact (level.endCell _).endRow
  · exact level.endCell _
  · exact level.addChar c _

theorem stepCell (level : Level columns s s') (c : Char) :
    Level columns (s.stepCell c) (s'.stepCell c) := by
  unfold Scan.stepCell
  split_ifs
  · cases level with
    | intro _ chars count cells alike => exact .intro _ _ _ _ alike
  · exact level.stepPlain c

theorem stepRow (level : Level columns s s') (c : Char) :
    Level columns (s.stepRow c) (s'.stepRow c) := by
  unfold Scan.stepRow
  split_ifs
  · exact level.endRow
  · cases level with
    | intro _ chars count cells alike => exact .intro _ _ _ _ alike
  · exact level.stepCell c

theorem spoil (level : Level columns s s') (c : Char) (flaw : CellFlaw) :
    Level columns (s.spoil c flaw) (s'.spoil c flaw) := by
  cases level with
  | intro _ chars count cells alike => exact .intro _ _ _ _ alike

theorem step (level : Level columns s s') (c : Char) :
    Level columns (s.step c) (s'.step c) := by
  have place : s'.place = s.place := by cases level; rfl
  unfold Scan.step
  rw [place]
  cases s.place with
  | rowStart => exact level.stepRow c
  | cellStart => exact level.stepCell c
  | plain => exact level.stepPlain c
  | quoted =>
    dsimp only
    split_ifs
    · cases level with
      | intro _ chars count cells alike => exact .intro _ _ _ _ alike
    · exact level.addChar c _
  | quoteSeen =>
    dsimp only
    split_ifs
    · exact level.addChar c _
    · exact level.stepPlain c
    · exact level.spoil c _
  | returnSeen =>
    dsimp only
    split_ifs
    · exact level.endRow
    · exact level.endRow.stepRow c
  | spoilt flaw => exact level.spoil c flaw
  | broken flaw => exact level

theorem finished (level : Level columns s s') (fault : Option Fault) :
    ShortensRows columns (s.finished fault) (s'.finished fault) := by
  cases level with
  | intro _ chars count cells alike => exact ⟨List.rel_reverse alike, rfl⟩

theorem finish (level : Level columns s s') : ShortensRows columns s.finish s'.finish := by
  have place : s'.place = s.place := by cases level; rfl
  unfold Scan.finish
  rw [place]
  cases s.place with
  | rowStart => exact level.finished none
  | cellStart | plain | quoteSeen => exact (level.endCell _).endRow.finished none
  | quoted => exact level.finished _
  | returnSeen => exact level.endRow.finished none
  | spoilt flaw | broken flaw => exact level.finished _

end Level

/-- Two readers at one place. Behind a carriage return the row that they are about to put down may
be shorter for the second one. -/
inductive Beside (columns : Nat) : Scan → Scan → Prop
  | level {s s' : Scan} (level : Level columns s s') : Beside columns s s'
  | returned {cells cells' : List String} {rows rows' : List (List String)}
    (row : Shortens columns cells.reverse cells'.reverse)
    (alike : List.Forall₂ (Shortens columns) rows rows') :
    Beside columns ⟨.returnSeen, [], 0, cells, rows⟩ ⟨.returnSeen, [], 0, cells', rows'⟩

theorem level_endRow_returned {cells cells' : List String} {rows rows' : List (List String)}
    (row : Shortens columns cells.reverse cells'.reverse)
    (alike : List.Forall₂ (Shortens columns) rows rows') (place : Place) :
    Level columns (endRow ⟨place, [], 0, cells, rows⟩) (endRow ⟨place, [], 0, cells', rows'⟩) :=
  .intro _ _ _ _ (.cons row alike)

theorem Beside.step (beside : Beside columns s s') (c : Char) :
    Beside columns (s.step c) (s'.step c) := by
  cases beside with
  | level level => exact .level (level.step c)
  | returned row alike =>
    have put := level_endRow_returned row alike .returnSeen
    unfold Scan.step
    dsimp only
    split_ifs
    · exact .level put
    · exact .level (put.stepRow c)

theorem Beside.finish (beside : Beside columns s s') :
    ShortensRows columns s.finish s'.finish := by
  cases beside with
  | level level => exact level.finish
  | returned row alike => exact (level_endRow_returned row alike .returnSeen).finished none

/-! ## Cells that are left out -/

/-- Behind a cell, be it empty, which a separator or the end of the row would end. -/
def isBehindCell (s : Scan) : Bool :=
  match s.place with
  | .cellStart | .plain | .quoteSeen => true
  | _ => false

/-- From behind the last cell but one, a separator and some characters make the last cell of a full
row, and this cell is blank. -/
structure FinalBlank (columns : Nat) (s : Scan) (cs : List Char) : Prop where
  behind : s.isBehindCell = true
  full : s.cells.length + 2 = columns
  more : s.cells ≠ []
  ends : (s.run (',' :: cs)).isBehindCell = true
  alone : (s.run (',' :: cs)).cells = (s.endCell .cellStart).cells
  within : (s.run (',' :: cs)).rows = s.rows
  blank : (s.run (',' :: cs)).chars.all Text.isBlank = true

instance (columns : Nat) (s : Scan) (cs : List Char) : Decidable (s.FinalBlank columns cs) :=
  decidable_of_iff (s.isBehindCell = true ∧ s.cells.length + 2 = columns ∧ s.cells ≠ [] ∧
    (s.run (',' :: cs)).isBehindCell = true ∧
    (s.run (',' :: cs)).cells = (s.endCell .cellStart).cells ∧
    (s.run (',' :: cs)).rows = s.rows ∧ (s.run (',' :: cs)).chars.all Text.isBlank = true)
    ⟨fun ⟨a, b, c, d, e, f, g⟩ => ⟨a, b, c, d, e, f, g⟩,
      fun ⟨a, b, c, d, e, f, g⟩ => ⟨a, b, c, d, e, f, g⟩⟩

section Behind

variable (behind : s.isBehindCell = true)

include behind

theorem place_of_isBehindCell :
    s.place = .cellStart ∨ s.place = .plain ∨ s.place = .quoteSeen := by
  unfold isBehindCell at behind
  split at behind <;> simp_all

theorem step_feed : s.step '\n' = (s.endCell .rowStart).endRow := by
  unfold Scan.step
  rcases place_of_isBehindCell behind with place | place | place <;> rw [place] <;> rfl

theorem step_carriage : s.step '\r' = s.endCell .returnSeen := by
  unfold Scan.step
  rcases place_of_isBehindCell behind with place | place | place <;> rw [place] <;> rfl

theorem finish_behindCell : s.finish = (s.endCell .rowStart).endRow.finished none := by
  unfold Scan.finish
  rcases place_of_isBehindCell behind with place | place | place <;> rw [place]

end Behind

namespace FinalBlank

variable {cs : List Char}

/-- Without its last cell the row is a shorter one. -/
theorem shortens (final : s.FinalBlank columns cs) (place place' : Place) :
    Shortens columns ((s.run (',' :: cs)).endCell place).cells.reverse
      (s.endCell place').cells.reverse := by
  have last : ((s.run (',' :: cs)).endCell place).cells.reverse =
      (s.endCell place').cells.reverse ++ [String.ofList (s.run (',' :: cs)).chars.reverse] := by
    show (_ :: (s.run (',' :: cs)).cells).reverse = _
    rw [final.alone, List.reverse_cons]
    rfl
  have cells : (s.endCell place').cells.reverse.length = s.cells.length + 1 := by
    rw [List.length_reverse]
    rfl
  have others := List.length_pos_iff.mpr final.more
  rw [last]
  refine .shorter (by rw [cells, final.full]) (by omega) ?_
  rw [Text.isBlankText, String.toList_ofList, List.all_reverse]
  exact final.blank

theorem level_behind (final : s.FinalBlank columns cs) (level : Level columns s s') :
    s'.isBehindCell = true ∧ ∀ place, (s'.endCell place).cells = (s.endCell place).cells ∧
      List.Forall₂ (Shortens columns) s.rows s'.rows := by
  have behind := final.behind
  cases level with
  | intro place chars count cells alike => exact ⟨behind, fun _ => ⟨rfl, alike⟩⟩

/-- A reader that goes through the last cell and one that does not are side by side again when the
line ends. -/
theorem step (final : s.FinalBlank columns cs) (level : Level columns s s') {c : Char}
    (newline : c = '\n' ∨ c = '\r') :
    Beside columns ((s.run (',' :: cs)).step c) (s'.step c) := by
  rcases final.level_behind level with ⟨behind, same⟩
  have row := fun place => final.shortens place place
  have alike := (same .rowStart).2
  rw [← final.within] at alike
  rcases newline with rfl | rfl
  · rw [step_feed final.ends, step_feed behind]
    refine .level (.intro _ _ _ _ (.cons ?_ alike))
    rw [(same _).1]
    exact row _
  · rw [step_carriage final.ends, step_carriage behind]
    refine .returned ?_ alike
    have shorter := row .returnSeen
    rw [← (same _).1] at shorter
    exact shorter

theorem finish (final : s.FinalBlank columns cs) (level : Level columns s s') :
    ShortensRows columns (s.run (',' :: cs)).finish s'.finish := by
  rcases final.level_behind level with ⟨behind, same⟩
  have alike := (same .rowStart).2
  rw [← final.within] at alike
  rw [finish_behindCell final.ends, finish_behindCell behind]
  refine Level.finished (.intro _ _ _ _ (.cons ?_ alike)) none
  rw [(same _).1]
  exact final.shortens _ _

end FinalBlank

theorem Beside.level_of_behind (beside : Beside columns s s') (behind : s.isBehindCell = true) :
    Level columns s s' := by
  cases beside with
  | level level => exact level
  | returned row alike => cases behind

end Scan

/-! ## Texts -/

/-- What a reader has in front of it, and the same text where some lines, or the end of the text,
come without the last separator of a full row and the blank cell behind it. -/
inductive ShortensText (columns : Nat) : Scan → List Char → List Char → Prop
  | done (s : Scan) : ShortensText columns s [] []
  | keep {s : Scan} (c : Char) {text text' : List Char}
    (later : ShortensText columns (s.step c) text text') :
    ShortensText columns s (c :: text) (c :: text')
  | line {s : Scan} {cs : List Char} (final : s.FinalBlank columns cs) {c : Char}
    (newline : c = '\n' ∨ c = '\r') {text text' : List Char}
    (later : ShortensText columns ((s.run (',' :: cs)).step c) text text') :
    ShortensText columns s (',' :: cs ++ c :: text) (c :: text')
  | last {s : Scan} {cs : List Char} (final : s.FinalBlank columns cs) :
    ShortensText columns s (',' :: cs) []

namespace ShortensText

variable {columns : Nat} {s : Scan} {text text' : List Char}

/-- Two texts begin alike. -/
theorem append (cs : List Char) (later : ShortensText columns (s.run cs) text text') :
    ShortensText columns s (cs ++ text) (cs ++ text') := by
  induction cs generalizing s with
  | nil => exact later
  | cons c cs ih => exact .keep c (ih later)

theorem finish (shortens : ShortensText columns s text text') {s' : Scan}
    (beside : s.Beside columns s') :
    ShortensRows columns (s.run text).finish (s'.run text').finish := by
  induction shortens generalizing s' with
  | done s => exact beside.finish
  | keep c later ih => exact ih (beside.step c)
  | line final newline later ih =>
    rw [Scan.run_append]
    exact ih (final.step (beside.level_of_behind final.behind) newline)
  | last final => exact final.finish (beside.level_of_behind final.behind)

end ShortensText

theorem readRows_shortens {columns : Nat} {text text' : List Char}
    (shortens : ShortensText columns .start text text') :
    ShortensRows columns (readRows (Text.encode text)) (readRows (Text.encode text')) := by
  rw [readRows, readRows, Text.decode_encode, Text.decode_encode]
  exact shortens.finish (.level (.intro _ _ _ _ .nil))

end Csv

namespace Csv.Shortens

variable {columns : Nat} {row row' : List String}

theorem length_le (shortens : Shortens columns row row') : row'.length ≤ row.length := by
  cases shortens with
  | same => exact Nat.le_refl _
  | shorter =>
    rw [List.length_append]
    exact Nat.le_add_right _ _

theorem isBlankRow_eq (shortens : Shortens columns row row') :
    Sheet.isBlankRow row' = Sheet.isBlankRow row := by
  cases shortens with
  | same => rfl
  | shorter full more blank =>
    rw [Sheet.isBlankRow_of_two_le more, Sheet.isBlankRow_of_two_le]
    rw [List.length_append]
    exact Nat.le_add_right_of_le more

/-- A row that is too long is not shortened. -/
theorem too_long_iff (shortens : Shortens columns row row') :
    columns < row'.length ↔ columns < row.length := by
  cases shortens with
  | same => rfl
  | shorter full =>
    rw [List.length_append, List.length_singleton]
    omega

theorem eq_of_too_long (shortens : Shortens columns row row') (long : columns < row.length) :
    row' = row := by
  cases shortens with
  | same => rfl
  | shorter full =>
    rw [List.length_append, List.length_singleton] at long
    omega

end Csv.Shortens

/-! ## Sheets -/

namespace Sheet

variable {columns : Nat} {rows rows' : List (List String)}

theorem nextRow?_shortens (alike : List.Forall₂ (Csv.Shortens columns) rows rows')
    (position : Nat) :
    (nextRow? position rows = none ∧ nextRow? position rows' = none) ∨
      ∃ row row' rest rest' after, nextRow? position rows = some (row, rest, after) ∧
        nextRow? position rows' = some (row', rest', after) ∧ isBlankRow row = false ∧
        Csv.Shortens columns row row' ∧ List.Forall₂ (Csv.Shortens columns) rest rest' := by
  induction alike generalizing position with
  | nil => exact .inl ⟨rfl, rfl⟩
  | cons first later ih =>
    rw [nextRow?, nextRow?, first.isBlankRow_eq]
    split_ifs with blank
    · exact ih (position + 1)
    · exact .inr ⟨_, _, _, _, _, rfl, rfl, by simpa using blank, first, later⟩

theorem unmarkHeader_concat (position : Nat) {front : List String} (some : front ≠ [])
    (cell : String) :
    unmarkHeader position (front ++ [cell]) =
      (unmarkHeader position front).map (· ++ [cell]) := by
  rcases List.exists_cons_of_ne_nil some with ⟨name, names, rfl⟩
  rw [List.cons_append, unmarkHeader, unmarkHeader]
  split_ifs
  · cases unmark name <;> rfl
  · rfl

/-- A header that is shortened still is so without a mark in front of it. -/
theorem unmarkHeader_shortens {header header' : List String}
    (first : Csv.Shortens columns header header') (position : Nat) :
    (∃ fault, unmarkHeader position header = .error fault ∧
        unmarkHeader position header' = .error fault) ∨
      ∃ names names', unmarkHeader position header = .ok names ∧
        unmarkHeader position header' = .ok names' ∧ Csv.Shortens columns names names' := by
  cases unmarked : unmarkHeader position header' with
  | error fault =>
    refine .inl ⟨fault, ?_, rfl⟩
    cases first with
    | same => exact unmarked
    | shorter full more blank =>
      rw [unmarkHeader_concat position (List.length_pos_iff.mp (by omega)), unmarked]
      rfl
  | ok names' =>
    have length := length_unmarkHeader unmarked
    cases first with
    | same => exact .inr ⟨names', names', unmarked, rfl, .same _⟩
    | @shorter _ cell full more blank =>
      refine .inr ⟨names' ++ [cell], names', ?_, rfl,
        .shorter (by omega) (by omega) blank⟩
      rw [unmarkHeader_concat position (List.length_pos_iff.mp (by omega)), unmarked]
      rfl

theorem columnNames_concat (seen front : List String) (cell : String) :
    ∃ last, (last = none ∨ last = some (Text.trim cell)) ∧
      columnNames seen (front ++ [cell]) = columnNames seen front ++ [last] := by
  induction front generalizing seen with
  | nil =>
    rw [List.nil_append, columnNames, columnNames]
    split_ifs
    · exact ⟨none, .inl rfl, rfl⟩
    · exact ⟨_, .inr rfl, rfl⟩
  | cons name front ih =>
    rcases ih (name :: seen) with ⟨last, which, later⟩
    refine ⟨last, which, ?_⟩
    rw [List.cons_append, columnNames, later, columnNames, List.cons_append]

theorem trim_of_isBlankText {cell : String} (blank : Text.isBlankText cell = true) :
    Text.trim cell = "" := by
  have nothing : cell.toList.dropWhile Text.isBlank = [] :=
    List.dropWhile_eq_nil_iff.mpr (List.all_eq_true.mp blank)
  rw [Text.trim, Text.trimBy, nothing]
  rfl

/-- A sheet of so many columns, the last of which has the name, where the rows read ahead have no
cells beyond these columns. -/
structure Laid (s : Sheet) (columns : Nat) (name : String) : Prop where
  count : s.columns.length = columns
  last : s.columns.getLast? = some (some name)
  narrow : ∀ row ∈ s.ahead, row.length ≤ columns

instance (s : Sheet) (columns : Nat) (name : String) : Decidable (s.Laid columns name) :=
  decidable_of_iff (s.columns.length = columns ∧ s.columns.getLast? = some (some name) ∧
    ∀ row ∈ s.ahead, row.length ≤ columns)
    ⟨fun ⟨a, b, c⟩ => ⟨a, b, c⟩, fun ⟨a, b, c⟩ => ⟨a, b, c⟩⟩

/-- Two sheets of the same columns, where rows of the second one may be shorter. -/
structure Shortens (columns : Nat) (s s' : Sheet) : Prop where
  count : s.columns.length = columns
  named : s'.columns = s.columns
  dropped : s.dropped = 0
  dropped' : s'.dropped = 0
  position : s'.position = s.position
  fault : s'.fault = s.fault
  ahead : List.Forall₂ (Csv.Shortens columns) s.ahead s'.ahead
  rest : List.Forall₂ (Csv.Shortens columns) s.rest s'.rest

/-! ### Reading ahead -/

section LookAhead

variable {names : List String} {position : Nat} {last : Option Fault}

theorem lookAhead_none (none : nextRow? position rows = none) :
    lookAhead names rows position last =
      match last with
      | some fault => .error fault
      | .none => .ok ⟨columnNames [] names, 0, [], [], [], position + rows.length, .none⟩ := by
  unfold lookAhead
  simp only [none]
  cases last <;> rfl

variable {first : List String} {rest : List (List String)} {after : Nat}

theorem lookAhead_one (one : nextRow? position rows = some (first, rest, after))
    (none : nextRow? after rest = none) :
    lookAhead names rows position last =
      match last with
      | some fault => .error fault
      | .none => .ok ⟨columnNames [] names, first.length - names.length, [], [first], [],
          after + rest.length, .none⟩ := by
  unfold lookAhead
  simp only [one, none]
  cases last <;> rfl

theorem lookAhead_two (one : nextRow? position rows = some (first, rest, after))
    {second : List String} {rest₂ : List (List String)} {after₂ : Nat}
    (two : nextRow? after rest = some (second, rest₂, after₂)) :
    lookAhead names rows position last =
      .ok (if second.length = first.length + names.length then
        ⟨columnNames first names, first.length, first, [second], rest₂, after₂, last⟩
      else ⟨columnNames [] names, first.length - names.length, [], [first, second], rest₂, after₂,
        last⟩) := by
  unfold lookAhead
  simp only [one, two]
  split_ifs <;> rfl

/-- The names of a sheet come from its header. -/
theorem lookAhead_columns {s : Sheet} (h : lookAhead names rows position last = .ok s) :
    ∃ seen, s.columns = columnNames seen names := by
  cases one : nextRow? position rows with
  | none =>
    rw [lookAhead_none one] at h
    cases last with
    | none =>
      cases h
      exact ⟨_, rfl⟩
    | some => cases h
  | some found =>
    cases two : nextRow? found.2.2 found.2.1 with
    | none =>
      rw [lookAhead_one one two] at h
      cases last with
      | none =>
        cases h
        exact ⟨_, rfl⟩
      | some => cases h
    | some =>
      rw [lookAhead_two one two] at h
      cases h
      split_ifs <;> exact ⟨_, rfl⟩

variable (alike : List.Forall₂ (Csv.Shortens columns) rows rows')

include alike

/-- Where looking ahead fails, it does so whatever the columns are called. -/
theorem lookAhead_error_shortens (names' : List String) {fault : Fault}
    (h : lookAhead names rows position last = .error fault) :
    lookAhead names' rows' position last = .error fault := by
  rcases nextRow?_shortens alike position with
    ⟨none, none'⟩ | ⟨first, first', rest, rest', after, one, one', -, -, later⟩
  · rw [lookAhead_none none] at h
    rw [lookAhead_none none']
    cases last with
    | none => cases h
    | some => exact h
  rcases nextRow?_shortens later after with
    ⟨none, none'⟩ | ⟨second, second', rest₂, rest₂', after₂, two, two', -⟩
  · rw [lookAhead_one one none] at h
    rw [lookAhead_one one' none']
    cases last with
    | none => cases h
    | some => exact h
  · rw [lookAhead_two one two] at h
    cases h

/-- Looking ahead in the rows and in the shortened ones comes to the same columns. -/
theorem lookAhead_shortens {s : Sheet} {name : String}
    (h : lookAhead names rows position last = .ok s) (laid : s.Laid columns name) :
    ∃ s', lookAhead names rows' position last = .ok s' ∧ s.Shortens columns s' := by
  have count : names.length = columns := by
    rcases lookAhead_columns h with ⟨seen, named⟩
    rw [← laid.count, named, length_columnNames]
  rcases nextRow?_shortens alike position with
    ⟨none, none'⟩ | ⟨first, first', rest, rest', after, one, one', full, lead, later⟩
  · rw [lookAhead_none none] at h
    rw [lookAhead_none none']
    cases last with
    | some => cases h
    | none =>
      cases h
      exact ⟨_, rfl, laid.count, rfl, rfl, rfl, by simp only [alike.length_eq], rfl, .nil, .nil⟩
  have shorter := lead.length_le
  rcases nextRow?_shortens later after with
    ⟨none, none'⟩ | ⟨second, second', rest₂, rest₂', after₂, two, two', -, next, behind⟩
  · rw [lookAhead_one one none] at h
    rw [lookAhead_one one' none']
    cases last with
    | some => cases h
    | none =>
      cases h
      have narrow := laid.narrow first List.mem_cons_self
      exact ⟨_, rfl, laid.count, rfl, by dsimp only; omega, by dsimp only; omega,
        by simp only [later.length_eq], rfl, .cons lead .nil, .nil⟩
  · have shorter₂ := next.length_le
    have cells : first'.length ≠ 0 := by
      intro empty
      have blank := lead.isBlankRow_eq
      rw [List.eq_nil_of_length_eq_zero empty, full] at blank
      cases blank
    rw [lookAhead_two one two] at h
    rw [lookAhead_two one' two']
    split_ifs at h with naming
    · -- the second row would have to be longer than the header
      cases h
      have narrow := laid.narrow second List.mem_cons_self
      omega
    · cases h
      have narrow := laid.narrow first List.mem_cons_self
      have narrow₂ := laid.narrow second (List.mem_cons_of_mem _ List.mem_cons_self)
      rw [if_neg (by omega)]
      exact ⟨_, rfl, laid.count, rfl, by dsimp only; omega, by dsimp only; omega, rfl, rfl,
        .cons lead (.cons next .nil), behind⟩

end LookAhead

/-- A name that is not blank in the last column shows that the header is not shortened. -/
theorem names_eq {names names' : List String} (title : Csv.Shortens columns names names')
    {seen : List String} {s : Sheet} (columns' : s.columns = columnNames seen names)
    {name : String} (laid : s.Laid columns name) (named : name ≠ "") : names' = names := by
  cases title with
  | same => rfl
  | @shorter _ cell full more blank =>
    rcases columnNames_concat seen names' cell with ⟨last, which, concat⟩
    have final := laid.last
    rw [columns', concat, List.getLast?_concat, Option.some.injEq] at final
    rw [final, trim_of_isBlankText blank] at which
    rcases which with missing | unnamed
    · cases missing
    · exact absurd (Option.some.inj unnamed) named

/-- Rows and shortened ones fail alike, or have sheets with the same columns. -/
theorem ofRows_shortens {rows rows' : Source (List String)}
    (alike : Csv.ShortensRows columns rows rows') (empty : Fault) :
    (∃ fault, ofRows empty rows = .error fault ∧ ofRows empty rows' = .error fault) ∨
      ∃ s, ofRows empty rows = .ok s ∧ ∀ name, s.Laid columns name → name ≠ "" →
        ∃ s', ofRows empty rows' = .ok s' ∧ s.Shortens columns s' := by
  unfold ofRows
  rw [alike.fault]
  rcases nextRow?_shortens alike.items 0 with
    ⟨none, none'⟩ | ⟨header, header', rest, rest', after, one, one', -, first, later⟩
  · rw [none, none']
    exact .inl ⟨_, rfl, rfl⟩
  simp only [one, one']
  rcases unmarkHeader_shortens first after with
    ⟨fault, failed, failed'⟩ | ⟨names, names', unmarked, unmarked', title⟩
  · rw [failed, failed']
    exact .inl ⟨fault, rfl, rfl⟩
  rw [unmarked, unmarked']
  cases opened : lookAhead names rest after rows.fault with
  | error fault => exact .inl ⟨fault, opened, lookAhead_error_shortens later names' opened⟩
  | ok s =>
    refine .inr ⟨s, opened, fun name laid named => ?_⟩
    rcases lookAhead_columns opened with ⟨seen, columns'⟩
    rw [names_eq title columns' laid named]
    exact lookAhead_shortens later opened laid

end Sheet

/-! ## Rows under their columns -/

/-- The cells of a row, as they are or without the last one. -/
inductive Row.Shortens (columns : Nat) : Row → Row → Prop
  | same (row : Row) : Shortens columns row row
  | shorter {front : List String} {cell : String} (full : front.length + 1 = columns)
    (blank : Text.isBlankText cell = true) :
    Shortens columns (front.map some ++ [some cell]) (front.map some ++ [none])

namespace Sheet

theorem cellsOf_full (front : List String) : cellsOf front.length front = front.map some := by
  refine List.ext_getElem? fun i => ?_
  rw [cellsOf, List.getElem?_map, List.getElem?_map]
  by_cases within : i < front.length
  · rw [List.getElem?_range within, List.getElem?_eq_getElem within]
    exact congrArg some (List.getElem?_eq_getElem within)
  · rw [List.getElem?_eq_none (by simpa using within), List.getElem?_eq_none (by omega)]
    rfl

theorem cellsOf_short (front : List String) :
    cellsOf (front.length + 1) front = front.map some ++ [none] := by
  rw [cellsOf, List.range_succ, List.map_append, List.map_singleton,
    List.getElem?_eq_none (Nat.le_refl _), ← cellsOf, cellsOf_full]

namespace Shortens

variable {columns : Nat} {s s' : Sheet} (shortens : s.Shortens columns s')

include shortens

theorem width_eq : s.width = columns ∧ s'.width = columns := by
  rw [width, width, shortens.named, shortens.dropped, shortens.dropped', shortens.count]
  exact ⟨rfl, rfl⟩

theorem named_eq (row : List String) :
    s.named row = cellsOf columns row ∧ s'.named row = cellsOf columns row := by
  simp only [Sheet.named, cellsOf, shortens.named, shortens.dropped, shortens.dropped',
    shortens.count, Nat.zero_add, and_self]

theorem named_shortens {row row' : List String} (one : Csv.Shortens columns row row') :
    Row.Shortens columns (s.named row) (s'.named row') := by
  rw [(shortens.named_eq row).1, (shortens.named_eq row').2]
  cases one with
  | same => exact .same _
  | @shorter _ cell full more blank =>
    have whole := cellsOf_full (row' ++ [cell])
    rw [List.length_append, List.length_singleton, full, List.map_append,
      List.map_singleton] at whole
    rw [whole, ← full, cellsOf_short, full]
    exact .shorter full blank

/-- The same row is the first one that is too long. -/
theorem overlong?_eq {rows rows' : List (List String)}
    (alike : List.Forall₂ (Csv.Shortens columns) rows rows') (position : Nat) :
    s'.overlong? position rows' = s.overlong? position rows := by
  have places : rows'.findIdx? (fun row => decide (s'.width < row.length)) =
      rows.findIdx? fun row => decide (s.width < row.length) := by
    rw [shortens.width_eq.1, shortens.width_eq.2]
    induction alike with
    | nil => rfl
    | cons one later ih =>
      rw [List.findIdx?_cons, List.findIdx?_cons, ih, decide_eq_decide.mpr one.too_long_iff]
  unfold overlong?
  rw [places]
  cases found : rows.findIdx? fun row => decide (s.width < row.length) with
  | none => rfl
  | some i =>
    rcases List.findIdx?_eq_some_iff_getElem.mp found with ⟨within, long, -⟩
    rcases List.forall₂_iff_get.mp alike with ⟨length, each⟩
    have same := (each i within (length ▸ within)).eq_of_too_long (by
      rw [← shortens.width_eq.1]
      exact of_decide_eq_true long)
    have cells : rows'[i]? = rows[i]? := by
      rw [List.getElem?_eq_getElem within, List.getElem?_eq_getElem (length ▸ within)]
      exact congrArg some same
    simp only [Option.map_some, cells, ← length, shortens.width_eq.1, shortens.width_eq.2]

theorem blocksFrom_shortens (size fuel position : Nat)
    {ahead ahead' rest rest' : List (List String)}
    (front : List.Forall₂ (Csv.Shortens columns) ahead ahead')
    (behind : List.Forall₂ (Csv.Shortens columns) rest rest') :
    List.Forall₂ (List.Forall₂ (Row.Shortens columns))
        (s.blocksFrom size fuel position ahead rest).items
        (s'.blocksFrom size fuel position ahead' rest').items ∧
      (s'.blocksFrom size fuel position ahead' rest').fault =
        (s.blocksFrom size fuel position ahead rest).fault := by
  induction fuel generalizing position ahead ahead' rest rest' with
  | zero => exact ⟨.nil, shortens.fault⟩
  | succ fuel ih =>
    have taken := List.forall₂_take (size - ahead.length) behind
    have block : List.Forall₂ (Csv.Shortens columns)
        (filled (ahead.take size ++ rest.take (size - ahead.length)))
        (filled (ahead'.take size ++ rest'.take (size - ahead.length))) :=
      List.rel_filter (fun _ _ one => by simp [one.isBlankRow_eq])
        (List.rel_append (List.forall₂_take size front) taken)
    have none : ∀ {rows rows' : List (List String)},
        List.Forall₂ (Csv.Shortens columns) rows rows' → rows'.isEmpty = rows.isEmpty := by
      intro rows rows' alike
      cases alike <;> rfl
    unfold blocksFrom
    dsimp only
    rw [← front.length_eq, ← taken.length_eq, none front, none taken, shortens.fault]
    split_ifs
    · exact ⟨.nil, rfl⟩
    · exact ⟨.nil, rfl⟩
    · unfold filled at block
      rw [shortens.overlong?_eq block]
      split
      · exact ⟨.nil, rfl⟩
      · have later := ih (position + (rest.take (size - ahead.length)).length)
          (List.forall₂_drop size front) (List.forall₂_drop (size - ahead.length) behind)
        refine ⟨.cons ?_ later.1, later.2⟩
        exact List.rel_map (fun _ _ one => shortens.named_shortens one) block

/-- Blocks of any size give the same rows, where those of the second sheet may be shorter, and end
with the same fault. -/
theorem blocks_shortens (size : Nat) :
    List.Forall₂ (List.Forall₂ (Row.Shortens columns)) (s.blocks size).items
        (s'.blocks size).items ∧
      (s'.blocks size).fault = (s.blocks size).fault := by
  unfold blocks
  rw [shortens.position, ← shortens.ahead.length_eq, ← shortens.rest.length_eq]
  exact shortens.blocksFrom_shortens size _ _ shortens.ahead shortens.rest

end Shortens

end Sheet

end StopAlign
