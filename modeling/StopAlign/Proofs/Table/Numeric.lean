import Mathlib.Algebra.Field.Rat
import Mathlib.Data.String.Basic
import StopAlign.Proofs.Number.Order
import StopAlign.Table.Numeric

/-!
# Numeric — columns of numbers, cell by cell

- `realOf`, `reals_eq`  : the double in a cell, once it is known what the column holds
- `SortKey.rank`, `le_eq_rank` : where a key stands among the keys of its column
- `sortKeys_eq_ok`      : keys are made cell by cell, all of one kind
- `numberIn?`           : the exact number in a cell
- `keyOf_untied`        : in a column of integers, different numbers have keys that differ

What a column holds is asked of all its cells, but not of their order.
-/

namespace StopAlign

open Number

/-! ## Doubles -/

/-- The double in a cell, where `whole` says that the column is one of integers. -/
def realOf (whole : Bool) (cell : Option String) : Float :=
  if whole then (readingOf cell).wholeToFloat else (readingOf cell).toFloat

theorem reals_eq (cells : List (Option String)) :
    reals cells = cells.map (realOf (integral (readings cells))) := by
  unfold reals
  by_cases whole : integral (readings cells) = true
  · rw [if_pos whole, whole, readings, List.map_map]
    rfl
  · rw [if_neg whole, Bool.eq_false_iff.mpr whole, readings, List.map_map]
    rfl

theorem integral_perm {cells others : List (Option String)} (perm : others.Perm cells) :
    integral (readings others) = integral (readings cells) := by
  have same : (readings others).Perm (readings cells) := perm.map _
  simp only [integral, same.all_eq, same.any_eq]

/-! ## Keys -/

namespace SortKey

/-- Whether a key is a number, or a text in the place of one. -/
def isNumber : SortKey → Bool
  | .whole _ | .text _ => true
  | .real x => !x.isNaN
  | .last => false

/-- Whether two keys are of one kind. -/
def alike : SortKey → SortKey → Bool
  | .whole _, .whole _ | .real _, .real _ | .text _, .text _ => true
  | _, _ => false

/-- Where a key stands among those of its kind. -/
def rank : SortKey → Standing ×ₗ String
  | .whole n => toLex (stand 0 n 0, "")
  | .real x => toLex (standing x.toModel.unpack, "")
  | .text s => toLex (stand 0 0 0, s)
  | .last => toLex (stand 4 0 0, "")

/-- Whether neither of two keys goes before the other one. -/
def ties (a b : SortKey) : Bool := a.le b && b.le a

theorem toLex_le_iff_left {s s' : Standing} {t : String} :
    toLex (s, t) ≤ toLex (s', t) ↔ s ≤ s' := by
  rw [Prod.Lex.toLex_le_toLex, le_iff_lt_or_eq (a := s)]
  simp

/-- Keys of one kind that are numbers compare as they stand. -/
theorem le_eq_rank {a b : SortKey} (kind : a.alike b = true) (ha : a.isNumber = true)
    (hb : b.isNumber = true) : a.le b = decide (a.rank ≤ b.rank) := by
  rw [Bool.eq_iff_iff, decide_eq_true_iff]
  cases a with
  | whole m =>
    cases b with
    | whole n =>
      rw [le, rank, rank, toLex_le_iff_left, stand_le, decide_eq_true_iff]
      omega
    | _ => cases kind
  | real x =>
    cases b with
    | real y =>
      have hx : x.toModel.unpack.isNaN = false := by
        rwa [isNumber, Bool.not_eq_true'] at ha
      have hy : y.toModel.unpack.isNaN = false := by
        rwa [isNumber, Bool.not_eq_true'] at hb
      rw [rank, rank, toLex_le_iff_left, ← le_iff_standing hx hy, le, decide_eq_true_iff]
      exact decide_eq_true_iff
    | _ => cases kind
  | text s =>
    cases b with
    | text t =>
      rw [rank, rank, Prod.Lex.toLex_le_toLex, le]
      simp only [Bool.not_eq_true', decide_eq_false_iff_not, lt_irrefl, false_or, true_and]
      exact not_lt
    | _ => cases kind
  | last => cases ha

end SortKey

theorem sortFault?_eq_none {cell : Option String} {i : Nat} (h : sortFault? cell i = none)
    (j : Nat) : sortFault? cell j = none := by
  unfold sortFault? at h ⊢
  cases reading : readingOf cell with
  | wrong | long _ | severed =>
    rw [reading] at h
    cases h
  | _ => rfl

/-- Whether a column has a fault does not depend on the order of its cells. -/
theorem findSome?_sortFault {cells : List (Option String)} :
    (cells.zipIdx.findSome? fun (cell, i) => sortFault? cell i) = none ↔
      ∀ cell ∈ cells, ∀ i, sortFault? cell i = none := by
  rw [List.findSome?_eq_none_iff]
  constructor
  · intro calm cell member i
    rcases List.getElem_of_mem member with ⟨j, within, rfl⟩
    have place : (cells[j], j) ∈ cells.zipIdx := by
      rw [List.mk_mem_zipIdx_iff_getElem?]
      exact List.getElem?_eq_getElem within
    exact sortFault?_eq_none (calm _ place) i
  · rintro calm ⟨cell, i⟩ member
    exact calm cell (List.mem_of_getElem? (List.mk_mem_zipIdx_iff_getElem?.mp member)) i

/-- How the cells of a column with some readings become keys. -/
def keyOf (rs : List Reading) : Option String → SortKey :=
  if rs.any Reading.isUnsigned && (rs.any Reading.isNegative || rs.any Reading.isBlank) then textKey
  else if rs.all Reading.isWhole then fun cell => wholeKey (readingOf cell)
  else fun cell => realKey (readingOf cell)

theorem sortKeys_eq (cells : List (Option String)) :
    sortKeys cells =
      match cells.zipIdx.findSome? fun (cell, i) => sortFault? cell i with
      | some fault => .error fault
      | none => .ok (cells.map (keyOf (readings cells))) := by
  unfold sortKeys keyOf
  cases cells.zipIdx.findSome? fun (cell, i) => sortFault? cell i with
  | some fault => rfl
  | none =>
    have mapped : ∀ f : Reading → SortKey,
        (readings cells).map f = cells.map fun cell => f (readingOf cell) := fun _ => List.map_map
    by_cases texts : ((readings cells).any Reading.isUnsigned &&
        ((readings cells).any Reading.isNegative || (readings cells).any Reading.isBlank)) = true
    · simp only [if_pos texts]
      rfl
    · by_cases wholes : (readings cells).all Reading.isWhole = true
      · simp only [if_neg texts, if_pos wholes, mapped]
        rfl
      · simp only [if_neg texts, if_neg wholes, mapped]
        rfl

theorem keyOf_perm {cells others : List (Option String)} (perm : others.Perm cells) :
    keyOf (readings others) = keyOf (readings cells) := by
  have same : (readings others).Perm (readings cells) := perm.map _
  simp only [keyOf, same.all_eq, same.any_eq]

theorem textKey_alike {a b : Option String} (ha : (textKey a).isNumber = true)
    (hb : (textKey b).isNumber = true) : (textKey a).alike (textKey b) = true := by
  cases a with
  | none => cases ha
  | some s =>
    cases b with
    | none => cases hb
    | some t => rfl

theorem wholeKey_alike {r q : Reading} (hr : (wholeKey r).isNumber = true)
    (hq : (wholeKey q).isNumber = true) : (wholeKey r).alike (wholeKey q) = true := by
  cases r with
  | whole n x =>
    cases q with
    | whole m y => rfl
    | _ => cases hq
  | _ => cases hr

theorem realKey_alike {r q : Reading} (hr : (realKey r).isNumber = true)
    (hq : (realKey q).isNumber = true) : (realKey r).alike (realKey q) = true := by
  cases r with
  | whole _ x | real x =>
    cases q with
    | whole _ y | real y => rfl
    | _ => cases hq
  | _ => cases hr

/-- The keys of a column that are numbers are of one kind. -/
theorem keyOf_alike (rs : List Reading) {a b : Option String}
    (ha : (keyOf rs a).isNumber = true) (hb : (keyOf rs b).isNumber = true) :
    (keyOf rs a).alike (keyOf rs b) = true := by
  have way : keyOf rs = textKey ∨ (keyOf rs = fun cell => wholeKey (readingOf cell)) ∨
      keyOf rs = fun cell => realKey (readingOf cell) := by
    unfold keyOf
    split
    · exact .inl rfl
    · split
      · exact .inr (.inl rfl)
      · exact .inr (.inr rfl)
  rcases way with text | whole | real
  · rw [text] at ha hb ⊢
    exact textKey_alike ha hb
  · rw [whole] at ha hb ⊢
    exact wholeKey_alike ha hb
  · rw [real] at ha hb ⊢
    exact realKey_alike ha hb

/-- The keys of a column are made cell by cell, unless a cell is no number. -/
theorem sortKeys_eq_ok {cells : List (Option String)} {keys : List SortKey} :
    sortKeys cells = .ok keys ↔
      (∀ cell ∈ cells, ∀ i, sortFault? cell i = none) ∧
        keys = cells.map (keyOf (readings cells)) := by
  rw [sortKeys_eq, ← findSome?_sortFault]
  cases cells.zipIdx.findSome? fun (cell, i) => sortFault? cell i with
  | some fault =>
    constructor
    · intro h
      cases h
    · rintro ⟨h, -⟩
      cases h
  | none =>
    constructor
    · intro h
      cases h
      exact ⟨rfl, rfl⟩
    · rintro ⟨-, rfl⟩
      rfl

/-! ## Numbers as they are written -/

/-- The exact value of a numeral. -/
def Number.Numeral.value (n : Numeral) : ℚ := (n.toInt : ℚ) * (10 : ℚ) ^ n.scale

/-- The exact number in a cell. -/
def numberIn? : Option String → Option ℚ
  | some s =>
    let word := (Text.trim s).toList.takeWhile (!isNull ·)
    (Numeral.read? (Text.trimBy isAsciiMargin word)).map Numeral.value
  | none => none

theorem Number.Numeral.scale_of_whole {cs : List Char} {n : Numeral} (h : Numeral.read? cs = some n)
    (whole : n.whole = true) : n.scale = 0 := by
  simp only [Numeral.read?] at h
  split at h
  · cases h
  · rcases Option.map_eq_some_iff.mp h with ⟨exponent, -, rfl⟩
    simp only [Bool.and_eq_true, Option.isNone_iff_eq_none] at whole
    rcases whole with ⟨fraction, plain⟩
    simp [fraction, plain]

theorem numberIn?_of_whole {cell : Option String} {n : Int} {x : Float}
    (h : readingOf cell = .whole n x) : numberIn? cell = some (n : ℚ) := by
  cases cell with
  | none => cases h
  | some s =>
    simp only [readingOf, Reading.of] at h
    split at h
    · cases h
    · split at h
      · rename_i m read
        split at h
        · rename_i whole
          simp only [Reading.ofDigits] at h
          split at h
          · cases h
          · split at h
            · cases h
            · cases h
              simp only [numberIn?, read, Option.map_some, Numeral.value,
                Numeral.scale_of_whole read whole, zpow_zero, mul_one]
        · cases h
      · split at h <;> cases h

theorem textKey_untied {a b : Option String} (different : numberIn? a ≠ numberIn? b) :
    (textKey a).ties (textKey b) = false := by
  cases a with
  | none =>
    cases b with
    | none => exact absurd rfl different
    | some t => rfl
  | some s =>
    cases b with
    | none => rfl
    | some t =>
      by_contra ties
      simp only [textKey, SortKey.ties, SortKey.le, Bool.not_eq_false, Bool.and_eq_true,
        Bool.not_eq_true', decide_eq_false_iff_not, not_lt] at ties
      have same : Text.trim s = Text.trim t := le_antisymm ties.1 ties.2
      exact different (by simp only [numberIn?, same])

theorem wholeKey_untied {a b : Option String} (ha : (readingOf a).isWhole = true)
    (hb : (readingOf b).isWhole = true) (different : numberIn? a ≠ numberIn? b) :
    (wholeKey (readingOf a)).ties (wholeKey (readingOf b)) = false := by
  cases first : readingOf a with
  | whole m x =>
    cases second : readingOf b with
    | whole n y =>
      rw [numberIn?_of_whole first, numberIn?_of_whole second] at different
      have apart : m ≠ n := fun same => different (by rw [same])
      simp only [wholeKey, SortKey.ties, SortKey.le, Bool.and_eq_false_iff, decide_eq_false_iff_not]
      omega
    | _ =>
      rw [second] at hb
      cases hb
  | _ =>
    rw [first] at ha
    cases ha

/-- In a column of integers, those that are written differently do not tie. -/
theorem keyOf_untied {rs : List Reading} (whole : rs.all Reading.isWhole = true)
    {a b : Option String} (ha : (readingOf a).isWhole = true) (hb : (readingOf b).isWhole = true)
    (different : numberIn? a ≠ numberIn? b) : (keyOf rs a).ties (keyOf rs b) = false := by
  unfold keyOf
  split
  · exact textKey_untied different
  · exact wholeKey_untied ha hb different

theorem keyOf_isNumber {rs : List Reading} (whole : rs.all Reading.isWhole = true)
    {cell : Option String} (h : (readingOf cell).isWhole = true) :
    (keyOf rs cell).isNumber = true := by
  unfold keyOf
  split
  · cases cell with
    | none => cases h
    | some s => rfl
  · cases reading : readingOf cell with
    | whole n x => simp only [reading, wholeKey, SortKey.isNumber]
    | _ =>
      rw [reading] at h
      cases h

end StopAlign
