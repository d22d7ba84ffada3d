import Std.Data.String.ToInt
import StopAlign.Export.Offsets

/-!
# Offsets — a cell of offsets is read back

- `readOffsets`           : the numbers of a cell, between its semicolons
- `splitOn_writeOffsets`  : the pieces of a cell are its numbers as they are written
- `readOffsets_writeOffsets` : what is read from a cell is what was written into it
- `writeOffsets_ne_empty` : and the cell is not empty
-/

namespace StopAlign

/-- The numbers between the semicolons of a cell, where each piece is one. -/
def readOffsets (cell : String) : List (Option Int) :=
  (cell.toList.splitOn ';').map fun piece => (String.ofList piece).toInt?

/-! ## Numbers -/

theorem semicolon_notMem_repr (n : Nat) : ';' ∉ n.repr.toList := by
  intro member
  rw [Nat.toList_repr] at member
  have digit := Nat.isDigit_of_mem_toDigits (by decide) (by decide) member
  exact absurd digit (by decide)

theorem toList_negSucc (n : Nat) :
    (toString (Int.negSucc n)).toList = '-' :: (n + 1).repr.toList := by
  change ("-" ++ (n + 1).repr).toList = _
  rw [String.toList_append]
  rfl

theorem semicolon_notMem_toString (n : Int) : ';' ∉ (toString n).toList := by
  cases n with
  | ofNat n => exact semicolon_notMem_repr n
  | negSucc n =>
    rw [toList_negSucc]
    intro member
    rcases List.mem_cons.mp member with sign | digits
    · exact absurd sign (by decide)
    · exact semicolon_notMem_repr (n + 1) digits

theorem toList_toString_ne_nil (n : Int) : (toString n).toList ≠ [] := by
  cases n with
  | ofNat n =>
    intro empty
    exact Nat.repr_ne_empty (String.toList_eq_nil_iff.mp empty)
  | negSucc n =>
    rw [toList_negSucc]
    exact List.cons_ne_nil _ _

/-! ## Cells -/

section Cells

variable {offsets : List Int} (filled : offsets ≠ [])

include filled

theorem splitOn_writeOffsets :
    (writeOffsets offsets).toList.splitOn ';' = offsets.map fun n => (toString n).toList := by
  rw [writeOffsets, String.toList_intercalate, List.map_map]
  apply List.splitOn_intercalate
  · intro piece member
    rcases List.mem_map.mp member with ⟨n, -, rfl⟩
    exact semicolon_notMem_toString n
  · simpa using filled

/-- What is read from a cell of offsets is what was written into it. -/
theorem readOffsets_writeOffsets : readOffsets (writeOffsets offsets) = offsets.map some := by
  rw [readOffsets, splitOn_writeOffsets filled, List.map_map]
  apply List.map_congr_left
  intro n _
  simp only [Function.comp_apply, String.ofList_toList]
  exact Int.toInt?_repr n

theorem writeOffsets_ne_empty : writeOffsets offsets ≠ "" := by
  intro empty
  have pieces := splitOn_writeOffsets filled
  rw [empty] at pieces
  have one : "".toList.splitOn ';' = [[]] := rfl
  rw [one] at pieces
  -- the first number would be a piece without characters
  cases offsets with
  | nil => exact filled rfl
  | cons n rest => exact toList_toString_ne_nil n (List.cons.inj pieces).1.symm

end Cells

end StopAlign
