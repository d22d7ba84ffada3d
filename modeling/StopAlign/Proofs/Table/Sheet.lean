import StopAlign.Proofs.Outcome
import StopAlign.Table.Sheet

/-!
# Sheet — tables without a row that is too long

- `Csv.Layout`, `Csv.Layout.Shuffled` : header and rows of a file; the same, rows in another order
- `Csv.Reordered`      : two files that differ in the order of their data rows
- `Csv.reordered_fileOf` : two files that are written so
- `Sheet.Upright`      : a sheet that has all its columns by name
- `Sheet.ofRows_layout` : the sheet of such a file
- `Sheet.ofRows_reordered` : the sheets of two files that differ in the order of their rows

Where no row is longer than the header, no cell stands in front of the named ones.
-/

namespace StopAlign

open Outcome

namespace Csv

/-- The rows of a file: blank ones in front, the header, and data rows, none of which is longer than
the header. -/
structure Layout where
  lead : List (List String)
  header : List String
  rows : List (List String)
  blank : ∀ row ∈ lead, Sheet.isBlankRow row = true
  printed : Sheet.isBlankRow header = false
  narrow : ∀ row ∈ rows, row.length ≤ header.length

namespace Layout

def all (l : Layout) : List (List String) := l.lead ++ l.header :: l.rows

/-- The second layout has the data rows of the first one in any order. -/
structure Shuffled (a b : Layout) : Prop where
  lead : b.lead = a.lead
  header : b.header = a.header
  rows : b.rows.Perm a.rows

end Layout

/-- Two files that differ in the order of their data rows. -/
def Reordered (a b : List UInt8) : Prop :=
  ∃ la lb : Layout, readRows a = ⟨la.all, none⟩ ∧ readRows b = ⟨lb.all, none⟩ ∧ la.Shuffled lb

/-- All rows of a file that follow its header have the length of it. -/
def isRectangular (octets : List UInt8) : Bool :=
  match Sheet.nextRow? 0 (readRows octets).items with
  | some (header, rows, _) => rows.all (·.length == header.length)
  | none => true

/-- The file of some rows. -/
def fileOf (rows : List (List String)) : List UInt8 :=
  Text.encode (rows.flatMap fun cells => (writeRow cells).toList)

/-- A header and rows that are read as they are written. -/
def Legible (header : List String) (rows : List (List String)) : Prop :=
  readRows (fileOf (header :: rows)) = ⟨header :: rows, none⟩ ∧ Sheet.isBlankRow header = false ∧
    ∀ row ∈ rows, row.length ≤ header.length

instance (header : List String) (rows : List (List String)) : Decidable (Legible header rows) :=
  inferInstanceAs (Decidable (_ ∧ _))

theorem reordered_fileOf {header : List String} {rows rows' : List (List String)}
    (first : Legible header rows) (second : Legible header rows') (perm : rows'.Perm rows) :
    Reordered (fileOf (header :: rows)) (fileOf (header :: rows')) :=
  ⟨⟨[], header, rows, by simp, first.2.1, first.2.2⟩,
    ⟨[], header, rows', by simp, second.2.1, second.2.2⟩, first.1, second.1, rfl, rfl, perm⟩

end Csv

namespace Sheet

theorem isBlankRow_of_two_le {row : List String} (cells : 2 ≤ row.length) :
    isBlankRow row = false := by
  match row, cells with
  | _ :: _ :: _, _ => rfl

/-- The rows that are not blank. -/
def filled (rows : List (List String)) : List (List String) := rows.filter (!isBlankRow ·)

@[simp]
theorem filled_append (rows later : List (List String)) :
    filled (rows ++ later) = filled rows ++ filled later :=
  List.filter_append ..

/-! ## Reading ahead -/

theorem nextRow?_lead {lead : List (List String)} (blank : ∀ row ∈ lead, isBlankRow row = true)
    {header : List String} (printed : isBlankRow header = false) (rest : List (List String))
    (position : Nat) :
    nextRow? position (lead ++ header :: rest) =
      some (header, rest, position + lead.length + 1) := by
  induction lead generalizing position with
  | nil => simp [nextRow?, printed]
  | cons row lead ih =>
    rw [List.cons_append, nextRow?, if_pos (blank row List.mem_cons_self),
      ih (fun other member => blank other (List.mem_cons_of_mem row member))]
    simp only [List.length_cons, Option.some.injEq, Prod.mk.injEq, true_and]
    omega

theorem nextRow?_eq_none {position : Nat} {rows : List (List String)}
    (h : nextRow? position rows = none) : filled rows = [] := by
  induction rows generalizing position with
  | nil => rfl
  | cons row rest ih =>
    rw [nextRow?] at h
    by_cases blank : isBlankRow row = true
    · rw [if_pos blank] at h
      simp [filled, blank, ← ih h]
    · rw [if_neg blank] at h
      cases h

theorem nextRow?_eq_some {position after : Nat} {rows rest : List (List String)}
    {first : List String} (h : nextRow? position rows = some (first, rest, after)) :
    filled rows = first :: filled rest ∧ isBlankRow first = false ∧ first :: rest <:+ rows := by
  induction rows generalizing position with
  | nil => cases h
  | cons row later ih =>
    rw [nextRow?] at h
    by_cases blank : isBlankRow row = true
    · rw [if_pos blank] at h
      rcases ih h with ⟨body, full, suffix⟩
      refine ⟨?_, full, suffix.trans (List.suffix_cons row later)⟩
      simpa [filled, blank] using body
    · rw [if_neg blank] at h
      cases h
      exact ⟨by simp [filled, blank], by simpa using blank, List.suffix_rfl⟩

/-! ## Upright sheets -/

/-- A sheet with the columns of some names and nothing in front of them, whose rows, blank ones left
out, are the given ones. -/
structure Upright (s : Sheet) (names : List String) (rows : List (List String)) : Prop where
  columns : s.columns = columnNames [] names
  dropped : s.dropped = 0
  rowNames : s.rowNames = []
  fault : s.fault = none
  ahead : s.ahead.length ≤ 2
  body : filled (s.ahead ++ s.rest) = filled rows
  narrow : ∀ row ∈ s.ahead ++ s.rest, row.length ≤ names.length

@[simp]
theorem length_columnNames (seen names : List String) :
    (columnNames seen names).length = names.length := by
  induction names generalizing seen with
  | nil => rfl
  | cons name names ih => simp [columnNames, ih]

theorem length_unmarkHeader {position : Nat} {header names : List String}
    (h : unmarkHeader position header = .ok names) : names.length = header.length := by
  cases header with
  | nil =>
    cases h
    rfl
  | cons name later =>
    rw [unmarkHeader] at h
    split at h
    · rcases bind_eq_ok.mp h with ⟨first, -, last⟩
      cases last
      rfl
    · cases h
      rfl

theorem lookAhead_narrow {names : List String} {rows : List (List String)}
    (narrow : ∀ row ∈ rows, row.length ≤ names.length) (position : Nat) :
    ∃ s, lookAhead names rows position none = .ok s ∧ s.Upright names rows := by
  unfold lookAhead
  cases one : nextRow? position rows with
  | none =>
    refine ⟨_, rfl, ⟨rfl, rfl, rfl, rfl, by simp, (nextRow?_eq_none one).symm, by simp⟩⟩
  | some found =>
    rcases found with ⟨first, rest, after⟩
    rcases nextRow?_eq_some one with ⟨body, full, suffix⟩
    have within : ∀ row ∈ first :: rest, row.length ≤ names.length :=
      fun row member => narrow row (suffix.subset member)
    have fits : first.length - names.length = 0 :=
      Nat.sub_eq_zero_of_le (within first List.mem_cons_self)
    cases two : nextRow? after rest with
    | none =>
      have alone : filled ([first] ++ []) = filled rows := by
        rw [body, nextRow?_eq_none two]
        simp [filled, full]
      simp only [two]
      refine ⟨_, rfl, ⟨rfl, fits, rfl, rfl, by simp, alone, ?_⟩⟩
      intro row member
      exact within row (List.mem_cons.mpr (.inl (by simpa using member)))
    | some found =>
      rcases found with ⟨second, rest₂, after₂⟩
      rcases nextRow?_eq_some two with ⟨body₂, full₂, suffix₂⟩
      have within₂ : ∀ row ∈ second :: rest₂, row.length ≤ names.length :=
        fun row member => within row (List.mem_cons_of_mem first (suffix₂.subset member))
      -- the second row is as long as the header at most, so it leaves no room for the first one
      have apart : second.length ≠ first.length + names.length := by
        have cells : first.length ≠ 0 := by
          intro empty
          rw [List.eq_nil_of_length_eq_zero empty] at full
          cases full
        have bound := within₂ second List.mem_cons_self
        omega
      have both : filled ([first, second] ++ rest₂) = filled rows := by
        rw [body, body₂]
        simp [filled, full, full₂]
      simp only [two, if_neg apart]
      refine ⟨_, rfl, ⟨rfl, fits, rfl, rfl, by simp, both, ?_⟩⟩
      intro row member
      rcases List.mem_cons.mp member with rfl | later
      · exact within row List.mem_cons_self
      · exact within₂ row later

/-- The sheet of a file without a row that is too long, or the fault of its header. -/
theorem ofRows_layout (empty : Fault) (l : Csv.Layout) :
    (∃ fault, unmarkHeader (l.lead.length + 1) l.header = .error fault ∧
        ofRows empty ⟨l.all, none⟩ = .error fault) ∨
      ∃ names s, unmarkHeader (l.lead.length + 1) l.header = .ok names ∧
        ofRows empty ⟨l.all, none⟩ = .ok s ∧ s.Upright names l.rows := by
  have first := nextRow?_lead l.blank l.printed l.rows 0
  rw [Nat.zero_add] at first
  unfold ofRows Csv.Layout.all
  simp only [first]
  cases unmarked : unmarkHeader (l.lead.length + 1) l.header with
  | error fault => exact .inl ⟨fault, rfl, rfl⟩
  | ok names =>
    have width := length_unmarkHeader unmarked
    rcases lookAhead_narrow (fun row member => width ▸ l.narrow row member)
      (l.lead.length + 1) with ⟨s, opened, upright⟩
    exact .inr ⟨names, s, rfl, opened, upright⟩

/-! ## Rows -/

/-- The cells of a row under the first columns. -/
def cellsOf (columns : Nat) (row : List String) : Row := (List.range columns).map (row[·]?)

namespace Upright

variable {s : Sheet} {names : List String} {rows : List (List String)}

theorem width_eq (upright : s.Upright names rows) : s.width = names.length := by
  rw [width, upright.columns, upright.dropped, length_columnNames, Nat.add_zero]

theorem named_eq (upright : s.Upright names rows) (row : List String) :
    s.named row = cellsOf names.length row := by
  simp only [named, cellsOf, upright.columns, upright.dropped, length_columnNames, Nat.zero_add]

end Upright

/-! ## Rows in another order -/

theorem columnsOf_congr {s r : Sheet} (columns : r.columns = s.columns) (name : String) :
    r.columnsOf name = s.columnsOf name := by
  simp only [columnsOf, columns]

theorem column?_congr {s r : Sheet} (columns : r.columns = s.columns) (name : String) :
    r.column? name = s.column? name := by
  rw [column?, column?, columnsOf_congr columns]

theorem missing_congr {s r : Sheet} (columns : r.columns = s.columns) (names : List String) :
    r.missing names = s.missing names := by
  simp only [missing, column?_congr columns]

theorem filled_perm {rows rows' : List (List String)} (h : rows'.Perm rows) :
    (filled rows').Perm (filled rows) :=
  h.filter _

/-- Sheets of two files that differ in the order of their rows. -/
theorem ofRows_reordered {a b : List UInt8} (reordered : Csv.Reordered a b) {empty : Fault}
    {s : Sheet} (opened : ofRows empty (Csv.readRows a) = .ok s) :
    ∃ r names rows rows', ofRows empty (Csv.readRows b) = .ok r ∧
      s.Upright names rows ∧ r.Upright names rows' ∧ rows'.Perm rows := by
  rcases reordered with ⟨la, lb, ha, hb, shuffled⟩
  rw [ha] at opened
  rw [hb]
  rcases ofRows_layout empty la with ⟨fault, -, failed⟩ | ⟨names, s', unmarked, found, upright⟩
  · rw [failed] at opened
    cases opened
  · rw [found] at opened
    cases opened
    rcases ofRows_layout empty lb with ⟨fault, failed, -⟩ | ⟨others, r, again, second, behind⟩
    · rw [shuffled.lead, shuffled.header, unmarked] at failed
      cases failed
    · rw [shuffled.lead, shuffled.header, unmarked] at again
      cases again
      exact ⟨r, names, la.rows, lb.rows, second, upright, behind, shuffled.rows⟩

end Sheet

end StopAlign
