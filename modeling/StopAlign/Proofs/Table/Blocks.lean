import StopAlign.Proofs.Table.Sheet

/-!
# Blocks — what a table gives before it fails

- `Sheet.dataRows`      : the rows of a sheet, which know of no blocks
- `Sheet.blocksFrom_cases` : what reading one more block can do
- `Sheet.fittingRows`, `Sheet.blocks_fitting` : blocks of any size give the first rows in front of
  the first one that is too long
- `Sheet.blocks_one`    : blocks of one row give all of these
- `Sheet.blocks_prefix`, `Sheet.blocks_whole` : blocks of any size give the first rows in their
  order, and all of them if they end without a fault
- `Sheet.Upright.blocks` : without a row that is too long they give all rows
- `Csv.readRows_fault`, `Sheet.ofRows_error`, `Sheet.ofRows_fault`, `Sheet.blocks_fault` : the
  faults that reading a table can end with

None of these faults is about a value. A table that is read in blocks loses the rows of the block in
which such a fault is met, so the rows that come out are a prefix and may be a proper one.
-/

namespace StopAlign

open Outcome

/-! ## Faults of the text -/

namespace Csv

/-- A fault of the rows of a file: a faulty cell, or octets that are no text. -/
inductive Unreadable : Fault → Prop
  | badCell (flaw : CellFlaw) : Unreadable (.badCell flaw)
  | undecodable (failure : Text.DecodeFailure) : Unreadable (.undecodable failure)

theorem Scan.finish_fault {s : Scan} {fault : Fault} (h : s.finish.fault = some fault) :
    Unreadable fault := by
  unfold Scan.finish at h
  cases place : s.place with
  | rowStart | cellStart | plain | quoteSeen | returnSeen =>
    rw [place] at h
    cases h
  | quoted =>
    rw [place] at h
    cases h
    exact .badCell .openQuote
  | spoilt flaw | broken flaw =>
    rw [place] at h
    cases h
    exact .badCell flaw

theorem readRows_fault {octets : List UInt8} {fault : Fault}
    (h : (readRows octets).fault = some fault) : Unreadable fault := by
  unfold readRows rowsOf at h
  cases cut : (Text.decode octets).failure with
  | none =>
    simp only [cut] at h
    exact Scan.finish_fault h
  | some failure =>
    simp only [cut] at h
    split at h
    · exact Scan.finish_fault h
    · cases h
      exact .undecodable failure

end Csv

namespace Sheet

/-! ## Faults of the sheet -/

theorem unmarkHeader_error {position : Nat} {header : List String} {fault : Fault}
    (h : unmarkHeader position header = .error fault) : fault = .openName := by
  have one : ∀ name, unmark name = .error fault → fault = .openName := by
    intro name failed
    unfold unmark at failed
    split at failed
    · split at failed
      · cases failed
      · split at failed
        · split at failed <;> cases failed
          rfl
        · cases failed
    · cases failed
  cases header with
  | nil => cases h
  | cons name names =>
    rw [unmarkHeader] at h
    split at h
    · rcases bind_eq_error.mp h with first | ⟨_, -, last⟩
      · exact one name first
      · cases last
    · cases h

/-- Looking ahead ends with the fault behind the rows, or keeps it for later. -/
theorem lookAhead_fault (names : List String) (rest : List (List String)) (position : Nat)
    (last : Option Fault) :
    match lookAhead names rest position last with
    | .ok s => s.fault = last
    | .error fault => last = some fault := by
  unfold lookAhead
  cases one : nextRow? position rest with
  | none => cases last <;> rfl
  | some found =>
    rcases found with ⟨first, rest₁, position₁⟩
    cases two : nextRow? position₁ rest₁ with
    | none =>
      simp only [two]
      cases last <;> rfl
    | some found =>
      rcases found with ⟨second, rest₂, position₂⟩
      simp only [two]
      by_cases names : second.length = first.length + names.length
      · rw [if_pos names]
        rfl
      · rw [if_neg names]
        rfl

theorem ofRows_fault {empty : Fault} {rows : Source (List String)} {s : Sheet}
    (h : ofRows empty rows = .ok s) : s.fault = rows.fault := by
  unfold ofRows at h
  split at h
  · cases h
  · rename_i header rest position _
    rcases bind_eq_ok.mp h with ⟨names, -, opened⟩
    have kept := lookAhead_fault names rest position rows.fault
    rw [opened] at kept
    exact kept

theorem ofRows_error {empty fault : Fault} {rows : Source (List String)}
    (h : ofRows empty rows = .error fault) :
    rows.fault = some fault ∨ fault = empty ∨ fault = .openName := by
  unfold ofRows at h
  split at h
  · cases last : rows.fault with
    | none =>
      rw [last] at h
      cases h
      exact .inr (.inl rfl)
    | some f =>
      rw [last] at h
      cases h
      exact .inl rfl
  · rename_i header rest position _
    rcases bind_eq_error.mp h with bad | ⟨names, -, ahead⟩
    · exact .inr (.inr (unmarkHeader_error bad))
    · have kept := lookAhead_fault names rest position rows.fault
      rw [ahead] at kept
      exact .inl kept

/-! ## Rows that come out of blocks -/

/-- The rows of a sheet that are not blank, with their cells under the named columns. -/
def dataRows (s : Sheet) : List Row := (filled (s.ahead ++ s.rest)).map s.named

theorem overlong?_eq_some {s : Sheet} {position : Nat} {rows : List (List String)} {fault : Fault}
    (h : s.overlong? position rows = some fault) :
    (∃ row ∈ rows, s.width < row.length) ∧
      ∃ line seen, fault = .tooManyFields s.width line seen := by
  rcases Option.map_eq_some_iff.mp h with ⟨i, found, rfl⟩
  rcases List.findIdx?_eq_some_iff_getElem.mp found with ⟨within, long, -⟩
  exact ⟨⟨rows[i], List.getElem_mem within, of_decide_eq_true long⟩, _, _, rfl⟩

theorem length_le_of_overlong? {s : Sheet} {position : Nat} {rows : List (List String)}
    (h : s.overlong? position rows = none) : ∀ row ∈ rows, row.length ≤ s.width := by
  intro row member
  have short := List.findIdx?_eq_none_iff.mp (Option.map_eq_none_iff.mp h) row member
  exact Nat.le_of_not_lt (of_decide_eq_false short)

/-- What reading one more block can do: end with the fault behind the rows, at the end of the rows
or with a row that is too long, or give the next rows and go on behind them. -/
theorem blocksFrom_cases (s : Sheet) {size : Nat} (wide : 0 < size) (fuel position : Nat)
    (ahead rest : List (List String)) :
    let block := filled (ahead.take size ++ rest.take (size - ahead.length))
    let source := s.blocksFrom size (fuel + 1) position ahead rest
    (∃ fault, s.fault = some fault ∧ ahead.length + rest.length < size ∧
        source = ⟨[], some fault⟩) ∨
      (s.fault = none ∧ ahead = [] ∧ rest = [] ∧ source = ⟨[], none⟩) ∨
      (∃ line seen, (∃ row ∈ block, s.width < row.length) ∧
        source = ⟨[], some (.tooManyFields s.width line seen)⟩) ∨
      ∃ after later, (ahead ≠ [] ∨ rest ≠ []) ∧ (∀ row ∈ block, row.length ≤ s.width) ∧
        later = s.blocksFrom size fuel after (ahead.drop size) (rest.drop (size - ahead.length)) ∧
        source = ⟨block.map s.named :: later.items, later.fault⟩ := by
  intro block source
  simp only [source, blocksFrom]
  split
  · rename_i cut
    rcases Option.isSome_iff_exists.mp (Bool.and_eq_true_iff.mp cut).2 with ⟨fault, last⟩
    have few := of_decide_eq_true (Bool.and_eq_true_iff.mp cut).1
    rw [List.length_take] at few
    rw [last]
    exact .inl ⟨fault, rfl, by omega, rfl⟩
  rename_i uncut
  split
  · rename_i ended
    simp only [Bool.and_eq_true, List.isEmpty_iff, List.take_eq_nil_iff] at ended
    rcases ended with ⟨rfl, none | rfl⟩
    · rw [List.length_nil] at none
      omega
    · have calm : s.fault = none := by
        simpa [wide] using uncut
      exact .inr (.inl ⟨calm, rfl, rfl, rfl⟩)
  rename_i unended
  have more : ahead ≠ [] ∨ rest ≠ [] := by
    by_contra none
    rcases not_or.mp none with ⟨first, second⟩
    rw [not_not.mp first, not_not.mp second] at unended
    exact unended (by simp)
  split
  · rename_i long
    rcases overlong?_eq_some long with ⟨row, line, seen, rfl⟩
    exact .inr (.inr (.inl ⟨line, seen, row, rfl⟩))
  · rename_i short
    exact .inr (.inr (.inr ⟨_, _, more, length_le_of_overlong? short, rfl, rfl⟩))

/-- A block takes at least one row away. -/
theorem fewer_of_block {size : Nat} (wide : 0 < size) {ahead rest : List (List String)}
    (more : ahead ≠ [] ∨ rest ≠ []) :
    (ahead.drop size).length + (rest.drop (size - ahead.length)).length <
      ahead.length + rest.length := by
  have rows : 0 < ahead.length + rest.length := by
    rcases more with first | second
    · exact Nat.add_pos_left (List.length_pos_iff.mpr first) _
    · exact Nat.add_pos_right _ (List.length_pos_iff.mpr second)
  rw [List.length_drop, List.length_drop]
  omega

/-- The rows of a block and those behind it. -/
theorem filled_split (size : Nat) (ahead rest : List (List String)) :
    filled (ahead ++ rest) =
      filled (ahead.take size ++ rest.take (size - ahead.length)) ++
        filled (ahead.drop size ++ rest.drop (size - ahead.length)) := by
  rw [← List.take_append, ← List.drop_append, ← filled_append, List.take_append_drop]

/-- Whether a row has a column for each of its cells. -/
def fits (s : Sheet) (row : List String) : Bool := row.length ≤ s.width

/-- The rows of a sheet in front of the first one that is too long. -/
def fittingRows (s : Sheet) : List Row :=
  ((filled (s.ahead ++ s.rest)).takeWhile s.fits).map s.named

theorem takeWhile_split (s : Sheet) {size : Nat} {ahead rest : List (List String)}
    (short : ∀ row ∈ filled (ahead.take size ++ rest.take (size - ahead.length)),
      row.length ≤ s.width) :
    (filled (ahead ++ rest)).takeWhile s.fits =
      filled (ahead.take size ++ rest.take (size - ahead.length)) ++
        (filled (ahead.drop size ++ rest.drop (size - ahead.length))).takeWhile s.fits := by
  rw [filled_split size ahead rest]
  exact List.takeWhile_append_of_pos fun row member => decide_eq_true (short row member)

section

variable (s : Sheet) {size : Nat} (wide : 0 < size)

include wide

/-- Blocks give no row that comes behind one that is too long. -/
theorem blocksFrom_fitting (fuel position : Nat) (ahead rest : List (List String)) :
    (s.blocksFrom size fuel position ahead rest).items.flatten <+:
      ((filled (ahead ++ rest)).takeWhile s.fits).map s.named := by
  induction fuel generalizing position ahead rest with
  | zero => exact List.nil_prefix
  | succ fuel ih =>
    rcases s.blocksFrom_cases wide fuel position ahead rest with ⟨fault, -, -, cut⟩ |
      ⟨-, -, -, ended⟩ | ⟨line, seen, -, long⟩ | ⟨after, later, -, short, same, next⟩
    · rw [cut]
      exact List.nil_prefix
    · rw [ended]
      exact List.nil_prefix
    · rw [long]
      exact List.nil_prefix
    · rw [next, List.flatten_cons, s.takeWhile_split short, List.map_append, same]
      exact (List.prefix_append_right_inj _).mpr (ih _ _ _)

theorem blocksFrom_prefix (fuel position : Nat) (ahead rest : List (List String)) :
    (s.blocksFrom size fuel position ahead rest).items.flatten <+:
      (filled (ahead ++ rest)).map s.named :=
  (s.blocksFrom_fitting wide fuel position ahead rest).trans
    ((List.takeWhile_prefix s.fits).map s.named)

theorem blocksFrom_fault (fuel position : Nat) (ahead rest : List (List String)) {fault : Fault}
    (h : (s.blocksFrom size fuel position ahead rest).fault = some fault) :
    s.fault = some fault ∨ ∃ line seen, fault = .tooManyFields s.width line seen := by
  induction fuel generalizing position ahead rest with
  | zero => exact .inl h
  | succ fuel ih =>
    rcases s.blocksFrom_cases wide fuel position ahead rest with ⟨_, last, -, cut⟩ |
      ⟨-, -, -, ended⟩ | ⟨line, seen, -, long⟩ | ⟨after, later, -, -, same, next⟩
    · rw [cut] at h
      exact .inl (last.trans h)
    · rw [ended] at h
      cases h
    · rw [long] at h
      cases h
      exact .inr ⟨line, seen, rfl⟩
    · rw [next, same] at h
      exact ih _ _ _ h

/-- Blocks end without a fault where nothing is behind the rows and no row is too long, and then
they give all rows. -/
theorem blocksFrom_whole {fuel : Nat} (position : Nat) {ahead rest : List (List String)}
    (enough : ahead.length + rest.length < fuel) :
    ((s.blocksFrom size fuel position ahead rest).fault = none ↔
        s.fault = none ∧ ∀ row ∈ filled (ahead ++ rest), row.length ≤ s.width) ∧
      ((s.blocksFrom size fuel position ahead rest).fault = none →
        (s.blocksFrom size fuel position ahead rest).items.flatten =
          (filled (ahead ++ rest)).map s.named) := by
  induction fuel generalizing position ahead rest with
  | zero => omega
  | succ fuel ih =>
    rcases s.blocksFrom_cases wide fuel position ahead rest with
      ⟨fault, last, -, cut⟩ | ⟨calm, rfl, rfl, ended⟩ | ⟨line, seen, ⟨row, among, longer⟩, long⟩ |
        ⟨after, later, more, short, same, next⟩
    · rw [cut]
      exact ⟨⟨nofun, fun ⟨calm, _⟩ => by rw [calm] at last; cases last⟩, nofun⟩
    · rw [ended]
      exact ⟨⟨fun _ => ⟨calm, nofun⟩, fun _ => rfl⟩, fun _ => rfl⟩
    · rw [long, filled_split size ahead rest]
      refine ⟨⟨nofun, ?_⟩, nofun⟩
      rintro ⟨-, short⟩
      have within := short row (List.mem_append_left _ among)
      omega
    · have fewer := Nat.lt_of_lt_of_le (fewer_of_block wide more) (Nat.le_of_lt_succ enough)
      rcases ih after fewer with ⟨ends, all⟩
      rw [next, filled_split size ahead rest, same]
      refine ⟨ends.trans ?_, ?_⟩
      · constructor
        · rintro ⟨calm, behind⟩
          refine ⟨calm, fun row member => ?_⟩
          rcases List.mem_append.mp member with here | there
          · exact short row here
          · exact behind row there
        · rintro ⟨calm, every⟩
          exact ⟨calm, fun row member => every row (List.mem_append_right _ member)⟩
      · intro calm
        rw [List.flatten_cons, all calm, List.map_append]

/-- Blocks of any size give the first rows in front of the first one that is too long. -/
theorem blocks_fitting : (s.blocks size).items.flatten <+: s.fittingRows :=
  s.blocksFrom_fitting wide _ _ _ _

/-- Blocks of any size give the first rows in their order. -/
theorem blocks_prefix : (s.blocks size).items.flatten <+: s.dataRows :=
  s.blocksFrom_prefix wide _ _ _ _

/-- Blocks end with the fault behind the rows or with a row that is too long. -/
theorem blocks_fault {fault : Fault} (h : (s.blocks size).fault = some fault) :
    s.fault = some fault ∨ ∃ line seen, fault = .tooManyFields s.width line seen :=
  s.blocksFrom_fault wide _ _ _ _ h

theorem blocks_fault_eq_none :
    (s.blocks size).fault = none ↔
      s.fault = none ∧ ∀ row ∈ filled (s.ahead ++ s.rest), row.length ≤ s.width :=
  (s.blocksFrom_whole wide s.position (Nat.lt_succ_self _)).1

theorem blocks_whole (h : (s.blocks size).fault = none) :
    (s.blocks size).items.flatten = s.dataRows :=
  (s.blocksFrom_whole wide s.position (Nat.lt_succ_self _)).2 h

end

/-! ## Blocks of one row -/

/-- In a block of one row nothing stands in front of a row that is too long. -/
theorem filled_one {ahead rest : List (List String)} {row : List String}
    (among : row ∈ filled (ahead.take 1 ++ rest.take (1 - ahead.length))) :
    filled (ahead.take 1 ++ rest.take (1 - ahead.length)) = [row] := by
  have most : (filled (ahead.take 1 ++ rest.take (1 - ahead.length))).length ≤ 1 := by
    refine Nat.le_trans (List.length_filter_le _ _) ?_
    rw [List.length_append, List.length_take, List.length_take]
    omega
  have one := Nat.le_antisymm most (List.length_pos_of_mem among)
  rcases List.length_eq_one_iff.mp one with ⟨only, whole⟩
  rw [whole] at among ⊢
  rw [List.mem_singleton.mp among]

theorem blocksFrom_one (s : Sheet) {fuel : Nat} (position : Nat) {ahead rest : List (List String)}
    (enough : ahead.length + rest.length < fuel) :
    (s.blocksFrom 1 fuel position ahead rest).items.flatten =
      ((filled (ahead ++ rest)).takeWhile s.fits).map s.named := by
  induction fuel generalizing position ahead rest with
  | zero => omega
  | succ fuel ih =>
    rcases s.blocksFrom_cases Nat.one_pos fuel position ahead rest with ⟨fault, -, few, cut⟩ |
      ⟨-, rfl, rfl, ended⟩ | ⟨line, seen, ⟨row, among, longer⟩, long⟩ |
        ⟨after, later, more, short, same, next⟩
    · have first : ahead = [] := List.eq_nil_of_length_eq_zero (by omega)
      have second : rest = [] := List.eq_nil_of_length_eq_zero (by omega)
      rw [cut, first, second]
      rfl
    · rw [ended]
      rfl
    · have broad : ¬ s.fits row = true := fun fits => absurd (of_decide_eq_true fits) (by omega)
      rw [long, filled_split 1 ahead rest, filled_one among, List.singleton_append,
        List.takeWhile_cons_of_neg broad]
      rfl
    · have fewer := Nat.lt_of_lt_of_le (fewer_of_block Nat.one_pos more) (Nat.le_of_lt_succ enough)
      rw [next, List.flatten_cons, s.takeWhile_split short, List.map_append, same, ih after fewer]

/-- Blocks of one row give every row in front of the first one that is too long. -/
theorem blocks_one (s : Sheet) : (s.blocks 1).items.flatten = s.fittingRows :=
  s.blocksFrom_one s.position (Nat.lt_succ_self _)

namespace Upright

variable {s : Sheet} {names : List String} {rows : List (List String)}

/-- All rows that are not blank come out of blocks of any size. -/
theorem blocks (upright : s.Upright names rows) {size : Nat} (wide : 0 < size) :
    (s.blocks size).fault = none ∧
      (s.blocks size).items.flatten = (filled rows).map (cellsOf names.length) := by
  have calm : (s.blocks size).fault = none := by
    refine (s.blocks_fault_eq_none wide).mpr ⟨upright.fault, fun row member => ?_⟩
    rw [upright.width_eq]
    exact upright.narrow row (List.mem_of_mem_filter member)
  refine ⟨calm, ?_⟩
  rw [s.blocks_whole wide calm, dataRows, upright.body]
  exact List.map_congr_left fun row _ => upright.named_eq row

theorem rows_eq (upright : s.Upright names rows) :
    s.rows = .ok ((filled rows).map (cellsOf names.length)) := by
  rcases upright.blocks (Nat.succ_pos (s.ahead.length + s.rest.length)) with ⟨calm, all⟩
  simp only [Sheet.rows, calm, all]
  rfl

end Upright

end Sheet

end StopAlign
