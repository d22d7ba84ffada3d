import Mathlib.Data.Int.ConditionallyCompleteOrder
import StopAlign.Proofs.Number.Binary64
import StopAlign.Proofs.Table.Numeric

/-!
# Doubles — the doubles in the cells of a column, and their order

- `Numeral.stands_toFloat`  : the double of a numeral stands where its exact value is rounded to
- `Reads`, `reads`          : the exact number in a cell, and what the cell is read as
- `stands_double`, `stands_realOf` : so does the double in a cell, or in a column of doubles
- `isNaN_realOf`            : it is no number where the cell has none
- `exactAt`, `roundedAt`, `textAt` : where a cell stands by its number, its double or its text
- `wholeKey_le`, `realKey_le`, `textKey_le` : keys compare as their cells stand
- `ToldByDoubles`, `le_iff` : numbers with different doubles stand in the order of these

Numerals far outside the range of doubles are not written out. There the size of a numeral says
enough: it is rounded to infinity, or to zero.
-/

namespace StopAlign

open Text Number

/-! ## Numerals -/

namespace Number.Numeral

theorem value_eq (n : Numeral) :
    n.value = signed (signOf n.negative) ((n.digits : ℚ) * (10 : ℚ) ^ n.scale) := by
  unfold value toInt
  cases n.negative with
  | true =>
    rw [if_pos rfl]
    push_cast
    exact neg_mul _ _
  | false =>
    rw [if_neg Bool.false_ne_true]
    rfl

theorem tenTo_cast (k : ℕ) : ((tenTo k : ℕ) : ℚ) = (10 : ℚ) ^ k := by
  simp [tenTo]

/-- Three binary digits are less than a decimal one. -/
theorem twoTo_le_tenTo (k : ℕ) : (2 : ℚ) ^ (3 * k : ℤ) ≤ (tenTo k : ℕ) := by
  rw [tenTo_cast, zpow_mul, zpow_natCast]
  exact pow_le_pow_left₀ (by positivity) (by norm_num) k

/-- The double of a numeral stands where its exact value is rounded to. -/
theorem stands_toFloat (n : Numeral) : Stands n.value (place n.toFloat) := by
  rw [value_eq]
  unfold toFloat
  split_ifs with none huge tiny whole
  · rw [none, place_ofPattern, Nat.cast_zero, zero_mul]
    exact stands_small _ le_rfl (by positivity)
  · rcases huge with ⟨large, up⟩
    obtain ⟨k, same⟩ := Int.eq_ofNat_of_zero_le up
    rw [same] at large ⊢
    have least : (2 : ℚ) ^ (n.digits.log2 : ℤ) ≤ n.digits := by
      exact_mod_cast Nat.log2_self_le none
    have beyond : (2 : ℚ) ^ (1025 : ℤ) ≤ (n.digits * tenTo k : ℕ) := by
      calc (2 : ℚ) ^ (1025 : ℤ) ≤ 2 ^ ((n.digits.log2 : ℤ) + 3 * k) :=
            zpow_le_zpow_right₀ (by norm_num) (by omega)
        _ = 2 ^ (n.digits.log2 : ℤ) * 2 ^ (3 * k : ℤ) := zpow_add₀ (by norm_num) _ _
        _ ≤ n.digits * tenTo k := by
          gcongr
          exact twoTo_le_tenTo k
        _ = (n.digits * tenTo k : ℕ) := (Nat.cast_mul _ _).symm
    rw [place_ofPattern, zpow_natCast, ← tenTo_cast, ← Nat.cast_mul]
    exact stands_huge _ beyond
  · rw [place_ofPattern]
    refine stands_small _ (by positivity) ?_
    obtain ⟨k, same⟩ : ∃ k : ℕ, n.scale = -(k : ℤ) := ⟨(-n.scale).toNat, by omega⟩
    rw [same] at tiny ⊢
    have most : (n.digits : ℚ) < 2 ^ ((n.digits.log2 : ℤ) + 1) := by
      exact_mod_cast (Nat.lt_log2_self (n := n.digits))
    have power : (0 : ℚ) < 2 ^ (3 * k : ℤ) := by positivity
    rw [zpow_neg, zpow_natCast, ← tenTo_cast, ← div_eq_mul_inv]
    calc (n.digits : ℚ) / tenTo k ≤ n.digits / 2 ^ (3 * k : ℤ) := by
          gcongr
          exact twoTo_le_tenTo k
      _ < 2 ^ ((n.digits.log2 : ℤ) + 1) / 2 ^ (3 * k : ℤ) := by gcongr
      _ = 2 ^ ((n.digits.log2 : ℤ) + 1 - 3 * k) := (zpow_sub₀ (by norm_num) _ _).symm
      _ ≤ 2 ^ (-1075 : ℤ) := zpow_le_zpow_right₀ (by norm_num) (by omega)
  · obtain ⟨k, same⟩ := Int.eq_ofNat_of_zero_le whole
    rw [same, Int.toNat_natCast, zpow_natCast, ← tenTo_cast, ← Nat.cast_mul]
    have stands := stands_ofRatio n.negative (n.digits * tenTo k) Nat.one_pos
    rwa [Nat.cast_one, div_one] at stands
  · obtain ⟨k, same⟩ : ∃ k : ℕ, n.scale = -(k : ℤ) := ⟨(-n.scale).toNat, by omega⟩
    rw [same, neg_neg, Int.toNat_natCast, zpow_neg, zpow_natCast, ← tenTo_cast, ← div_eq_mul_inv]
    exact stands_ofRatio n.negative n.digits (tenTo_pos k)

end Number.Numeral

/-! ## Cells -/

namespace Number.Reading

/-- The double of a reading that has one. -/
def double? : Reading → Option Float
  | .whole _ x | .real x => some x
  | _ => none

end Number.Reading

/-- The exact number in a cell and what the cell is read as. -/
inductive Reads : Option ℚ → Reading → Prop
  | blank : Reads none .blank
  | whole (n : Numeral) : Reads (some n.value) (.whole n.toInt n.toFloat)
  | long (n : Numeral) (digits : Nat) : Reads (some n.value) (.long digits)
  | severed (n : Numeral) : Reads (some n.value) .severed
  | real (n : Numeral) : Reads (some n.value) (.real n.toFloat)
  | infinite (negative : Bool) : Reads none (.real (ofPattern negative infinityBits))
  | wrong : Reads none .wrong

theorem reads (cell : Option String) : Reads (numberIn? cell) (readingOf cell) := by
  cases cell with
  | none => exact .blank
  | some s =>
    simp only [numberIn?, readingOf, Reading.of]
    by_cases empty : (trim s).toList.isEmpty = true
    · rw [if_pos empty, List.isEmpty_iff.mp empty]
      exact .blank
    rw [if_neg empty]
    generalize (trim s).toList = cs
    cases numeral : Numeral.read? (trimBy isAsciiMargin (cs.takeWhile (!isNull ·))) with
    | some n =>
      simp only [Option.map_some, Reading.ofDigits]
      split_ifs
      · exact .long n _
      · exact .severed n
      · exact .whole n
      · exact .real n
    | none =>
      simp only [Option.map_none, readInfinity?]
      split
      · rename_i x infinite
        split_ifs at infinite
        cases infinite
        exact .infinite _
      · exact .wrong

/-- The double in a cell stands where the exact number in it is rounded to. -/
theorem stands_double {cell : Option String} {x : Float} {q : ℚ}
    (read : (readingOf cell).double? = some x) (number : numberIn? cell = some q) :
    Stands q (place x) := by
  have both := reads cell
  rw [number] at both
  generalize readingOf cell = reading at read both
  cases both with
  | whole n | real n =>
    cases read
    exact n.stands_toFloat
  | _ => cases read

theorem isNaN_double {cell : Option String} {x : Float}
    (read : (readingOf cell).double? = some x) : x.isNaN = false := by
  have both := reads cell
  generalize readingOf cell = reading, numberIn? cell = number at read both
  cases both with
  | whole n | real n =>
    cases read
    exact n.stands_toFloat.isNaN
  | infinite negative =>
    cases read
    exact isNaN_ofPattern negative infinityBits
  | _ => cases read

/-- A number that keeps its cell from no sort has a double. -/
theorem exists_double {cell : Option String} {q : ℚ} (number : numberIn? cell = some q)
    (calm : ∀ i, sortFault? cell i = none) : ∃ x, (readingOf cell).double? = some x := by
  have both := reads cell
  have calm := calm 0
  rw [number] at both
  simp only [sortFault?] at calm
  generalize readingOf cell = reading at calm both
  cases both with
  | whole n | real n => exact ⟨_, rfl⟩
  | _ => cases calm

/-! ## Columns of doubles -/

section Columns

variable (whole : Bool) {cell : Option String}

/-- A column of doubles holds the double of a cell, or the one of the integer that is read there. -/
theorem realOf_eq {x : Float} (read : (readingOf cell).double? = some x) :
    realOf whole cell = x ∨ ∃ n, readingOf cell = .whole n x ∧ realOf whole cell = ofInteger n := by
  unfold realOf
  cases reading : readingOf cell with
  | whole n y =>
    rw [reading] at read
    cases read
    cases whole with
    | true => exact .inr ⟨n, rfl, rfl⟩
    | false => exact .inl rfl
  | real y =>
    rw [reading] at read
    cases read
    cases whole <;> exact .inl rfl
  | _ =>
    rw [reading] at read
    cases read

/-- The number that a column of doubles holds stands where the exact one is rounded to. -/
theorem stands_realOf {x : Float} {q : ℚ} (read : (readingOf cell).double? = some x)
    (number : numberIn? cell = some q) : Stands q (place (realOf whole cell)) := by
  rcases realOf_eq whole read with same | ⟨n, reading, same⟩
  · rw [same]
    exact stands_double read number
  · rw [same]
    cases number.symm.trans (numberIn?_of_whole reading)
    exact stands_ofInteger n

/-- In a column of doubles, what is no number is the cell without a double. -/
theorem isNaN_realOf :
    (realOf whole cell).isNaN = false ↔ (readingOf cell).double?.isSome = true := by
  cases read : (readingOf cell).double? with
  | some x =>
    refine iff_of_true ?_ rfl
    rcases realOf_eq whole read with same | ⟨n, -, same⟩
    · rw [same]
      exact isNaN_double read
    · rw [same]
      exact (stands_ofInteger n).isNaN
  | none =>
    refine iff_of_false ?_ Bool.false_ne_true
    have nothing : realOf whole cell = notANumber := by
      unfold realOf
      cases reading : readingOf cell with
      | whole n x | real x =>
        rw [reading] at read
        cases read
      | _ => cases whole <;> rfl
    rw [nothing]
    decide +kernel

end Columns

/-! ## Keys -/

/-- The exact number in a cell; cells without one come last. -/
def exactAt (cell : Option String) : WithTop ℚ :=
  match numberIn? cell with
  | some q => q
  | none => ⊤

/-- Where the double in a cell stands; cells without one come last. -/
def roundedAt (cell : Option String) : WithTop Standing :=
  match (readingOf cell).double? with
  | some x => (place x : Standing)
  | none => ⊤

/-- The text in a cell without the blanks around it; a cell that is left out comes last. -/
def textAt (cell : Option String) : WithTop String :=
  match cell with
  | some s => trim s
  | none => ⊤

section Order

variable {a b : Option String}

theorem textKey_le : (textKey a).le (textKey b) = decide (textAt a ≤ textAt b) := by
  rw [Bool.eq_iff_iff, decide_eq_true_iff]
  cases b with
  | none => exact iff_of_true (by cases a <;> rfl) le_top
  | some t =>
    cases a with
    | none => exact iff_of_false Bool.false_ne_true (not_le.mpr (WithTop.coe_lt_top _))
    | some s =>
      show (!decide (trim t < trim s)) = true ↔ ((trim s : String) : WithTop String) ≤ (trim t : String)
      rw [WithTop.coe_le_coe, Bool.not_eq_true', decide_eq_false_iff_not, not_lt]

theorem wholeKey_le (ha : (readingOf a).isWhole = true) (hb : (readingOf b).isWhole = true) :
    (wholeKey (readingOf a)).le (wholeKey (readingOf b)) = decide (exactAt a ≤ exactAt b) := by
  rw [Bool.eq_iff_iff, decide_eq_true_iff]
  cases first : readingOf a with
  | whole m x =>
    cases second : readingOf b with
    | whole n y =>
      rw [exactAt, exactAt, numberIn?_of_whole first, numberIn?_of_whole second]
      show decide (m ≤ n) = true ↔ ((m : ℚ) : WithTop ℚ) ≤ (n : ℚ)
      rw [WithTop.coe_le_coe, Int.cast_le, decide_eq_true_iff]
    | _ =>
      rw [second] at hb
      cases hb
  | _ =>
    rw [first] at ha
    cases ha

theorem realKey_eq (cell : Option String) :
    realKey (readingOf cell) = ((readingOf cell).double?.map SortKey.real).getD .last := by
  cases readingOf cell <;> rfl

theorem realKey_le : (realKey (readingOf a)).le (realKey (readingOf b)) =
    decide (roundedAt a ≤ roundedAt b) := by
  rw [Bool.eq_iff_iff, decide_eq_true_iff, realKey_eq, realKey_eq, roundedAt, roundedAt]
  cases second : (readingOf b).double? with
  | none => exact iff_of_true (by cases (readingOf a).double? <;> rfl) le_top
  | some y =>
    cases first : (readingOf a).double? with
    | none => exact iff_of_false Bool.false_ne_true (not_le.mpr (WithTop.coe_lt_top _))
    | some x =>
      show decide (x ≤ y) = true ↔ ((place x : Standing) : WithTop Standing) ≤ (place y : Standing)
      rw [WithTop.coe_le_coe, decide_eq_true_iff]
      exact le_iff_place (isNaN_double first) (isNaN_double second)

end Order

/-- Whether no kind of number holds all cells of a column, which are left as texts then. -/
def staysText (rs : List Reading) : Bool :=
  rs.any Reading.isUnsigned && (rs.any Reading.isNegative || rs.any Reading.isBlank)

section Kinds

variable {rs : List Reading}

theorem keyOf_text (text : staysText rs = true) : keyOf rs = textKey := if_pos text

theorem keyOf_whole (number : staysText rs = false) (whole : rs.all Reading.isWhole = true) :
    keyOf rs = fun cell => wholeKey (readingOf cell) :=
  (if_neg (Bool.eq_false_iff.mp number)).trans (if_pos whole)

theorem keyOf_real (number : staysText rs = false) (mixed : rs.all Reading.isWhole = false) :
    keyOf rs = fun cell => realKey (readingOf cell) :=
  (if_neg (Bool.eq_false_iff.mp number)).trans (if_neg (Bool.eq_false_iff.mp mixed))

end Kinds

/-! ## Numbers that doubles tell apart -/

/-- The cells hold finite numbers or none, and different numbers have different doubles. -/
structure ToldByDoubles (cells : List (Option String)) : Prop where
  finite : ∀ a ∈ cells, exactAt a = ⊤ → roundedAt a = ⊤
  apart : ∀ a ∈ cells, ∀ b ∈ cells, roundedAt a = roundedAt b → exactAt a = exactAt b

instance (cells : List (Option String)) : Decidable (ToldByDoubles cells) :=
  decidable_of_iff ((∀ a ∈ cells, exactAt a = ⊤ → roundedAt a = ⊤) ∧
      ∀ a ∈ cells, ∀ b ∈ cells, roundedAt a = roundedAt b → exactAt a = exactAt b)
    ⟨fun ⟨finite, apart⟩ => ⟨finite, apart⟩, fun told => ⟨told.finite, told.apart⟩⟩

namespace ToldByDoubles

variable {cells : List (Option String)} (told : ToldByDoubles cells)
  (calm : ∀ cell ∈ cells, ∀ i, sortFault? cell i = none)

include told calm

/-- Rounding keeps the order of numbers. -/
theorem roundedAt_mono {a b : Option String} (ha : a ∈ cells) (hb : b ∈ cells)
    (le : exactAt a ≤ exactAt b) : roundedAt a ≤ roundedAt b := by
  cases second : numberIn? b with
  | none =>
    have last : exactAt b = ⊤ := by rw [exactAt, second]
    rw [told.finite b hb last]
    exact le_top
  | some q =>
    cases first : numberIn? a with
    | none =>
      rw [exactAt, exactAt, first, second] at le
      exact absurd le (not_le.mpr (WithTop.coe_lt_top q))
    | some r =>
      rcases exists_double first (calm a ha) with ⟨x, hx⟩
      rcases exists_double second (calm b hb) with ⟨y, hy⟩
      rw [exactAt, exactAt, first, second] at le
      rw [roundedAt, roundedAt, hx, hy]
      have order := (stands_double hx first).mono (stands_double hy second)
        (WithTop.coe_le_coe.mp le)
      exact WithTop.coe_le_coe.mpr order

theorem le_iff {a b : Option String} (ha : a ∈ cells) (hb : b ∈ cells) :
    roundedAt a ≤ roundedAt b ↔ exactAt a ≤ exactAt b := by
  refine ⟨fun le => ?_, told.roundedAt_mono calm ha hb⟩
  by_contra more
  have ge := told.roundedAt_mono calm hb ha (not_le.mp more).le
  exact more (told.apart a ha b hb (le_antisymm le ge)).le

end ToldByDoubles

end StopAlign
