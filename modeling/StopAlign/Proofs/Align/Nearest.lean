import Mathlib.Algebra.Order.AbsoluteValue.Basic
import Mathlib.Algebra.Order.Field.Basic
import Mathlib.Algebra.Order.Ring.Rat
import Mathlib.Tactic.Linarith
import StopAlign.Proofs.Align.Travelled

/-!
# Nearest — offsets by distance over exact numbers

- `midpoints_sorted` : the gaps of ascending distances ascend
- `abs_sub_le_of_past`, `abs_sub_le_of_short` : a stop on one side of the middle of two distances is
  nearer to the distance on that side
- `nearest_of_firstNotBelow` : the point before the first gap that is not below a stop is a nearest
  one
- `travelledOffsets_nearest` : each stop is matched with a point nearest to it by distance

Gap `k` is the middle of the points `k` and `k + 1`. The gap before a matched point is below the
stop and the gap after it is not, so the stop is past the middle on the one side and short of it on
the other. All points further out are further away.
-/

namespace StopAlign

section Middles

variable {ds : List ℚ}

theorem getElem?_midpoints {k : Nat} {a b : ℚ} (first : ds[k]? = some a)
    (second : ds[k + 1]? = some b) : (midpoints ds)[k]? = some ((a + b) / 2) := by
  rw [midpoints, List.getElem?_zipWith, first, List.getElem?_tail, second]

/-- Distances that ascend do so by their positions. -/
theorem le_of_ascending (ascending : ds.Pairwise (· ≤ ·)) {i j : Nat} {a b : ℚ}
    (first : ds[i]? = some a) (second : ds[j]? = some b) (order : i ≤ j) : a ≤ b := by
  rcases List.getElem?_eq_some_iff.mp first with ⟨_, rfl⟩
  rcases List.getElem?_eq_some_iff.mp second with ⟨within, rfl⟩
  rcases Nat.eq_or_lt_of_le order with rfl | before
  · exact le_rfl
  · exact List.pairwise_iff_getElem.mp ascending i j _ within before

theorem midpoints_sorted (ascending : ds.Pairwise (· ≤ ·)) : (midpoints ds).Pairwise (· ≤ ·) := by
  refine List.pairwise_iff_getElem.mpr fun i j hi hj before => ?_
  rw [length_midpoints] at hi hj
  have step : ∀ k, (h : k < ds.length) → ds[k]? = some ds[k] :=
    fun k h => List.getElem?_eq_getElem h
  have low := le_of_ascending ascending (step i (by omega)) (step j (by omega)) (by omega)
  have high := le_of_ascending ascending (step (i + 1) (by omega)) (step (j + 1) (by omega))
    (by omega)
  simp only [midpoints, List.getElem_zipWith, List.getElem_tail]
  linarith

end Middles

section Sides

variable {x near far : ℚ}

theorem abs_sub_le_of_past (order : far ≤ near) (past : far + near ≤ 2 * x) :
    |x - near| ≤ |x - far| := by
  have right : x - far ≤ |x - far| := le_abs_self _
  refine abs_le.mpr ⟨?_, ?_⟩ <;> linarith

theorem abs_sub_le_of_short (order : near ≤ far) (short : 2 * x ≤ near + far) :
    |x - near| ≤ |x - far| := by
  have left : -(x - far) ≤ |x - far| := neg_le_abs _
  refine abs_le.mpr ⟨?_, ?_⟩ <;> linarith

end Sides

/-- The point before the first gap that is not below a stop is a nearest one. -/
theorem nearest_of_firstNotBelow {ds : List ℚ} (ascending : ds.Pairwise (· ≤ ·)) {x d : ℚ} {j : Nat}
    (first : FirstNotBelow (midpoints ds) x j) (here : ds[j]? = some d) {e : ℚ} (other : e ∈ ds) :
    |x - d| ≤ |x - e| := by
  rcases List.mem_iff_getElem?.mp other with ⟨i, there⟩
  have within := (List.getElem?_eq_some_iff.mp here).1
  rcases Nat.lt_trichotomy i j with before | rfl | after
  · -- the stop is past the gap before its point
    obtain ⟨b, previous⟩ : ∃ b, ds[j - 1]? = some b := ⟨_, List.getElem?_eq_getElem (by omega)⟩
    have gap := getElem?_midpoints previous (by rwa [Nat.sub_add_cancel (by omega)])
    have low := le_of_ascending ascending there previous (by omega)
    have order := le_of_ascending ascending there here (by omega)
    rw [← List.getElem?_take_of_lt (show j - 1 < j by omega)] at gap
    have past := first.before _ (List.mem_of_getElem? gap)
    exact abs_sub_le_of_past order (by linarith)
  · rw [here] at there
    exact (Option.some.inj there) ▸ le_rfl
  · -- the stop is not past the gap after its point
    have bound := (List.getElem?_eq_some_iff.mp there).1
    obtain ⟨b, next⟩ : ∃ b, ds[j + 1]? = some b := ⟨_, List.getElem?_eq_getElem (by omega)⟩
    have gap := getElem?_midpoints here next
    have high := le_of_ascending ascending next there (by omega)
    have order := le_of_ascending ascending here there (by omega)
    have short := first.here _ gap
    exact abs_sub_le_of_short order (by linarith)

/-- Where a shape has a gap table, stops that ascend are each matched with a point that no other
point of the shape is nearer than by distance. -/
theorem travelledOffsets_nearest (ds stops : List ℚ) (ascending : ds.Pairwise (· ≤ ·))
    (table : gapTable ds ≠ []) (onward : stops.Pairwise (· ≤ ·)) :
    (travelledOffsets stops (gapTable ds)).length = stops.length ∧
      ∀ (k : Nat) x, stops[k]? = some x → ∃ j d,
        (travelledOffsets stops (gapTable ds))[k]? = some j ∧ ds[j]? = some d ∧
          ∀ e ∈ ds, |x - d| ≤ |x - e| := by
  have gaps : gapTable ds = midpoints ds := by
    unfold gapTable at table ⊢
    exact if_pos (by_contra fun none => table (if_neg none))
  have count := length_gapTable table
  refine ⟨length_offsetsFrom _ 0 stops, fun k x here => ?_⟩
  rw [gaps] at count ⊢
  rcases travelledOffsets_firstNotBelow (midpoints_sorted ascending) onward here with
    ⟨j, placed, first⟩
  have within : j < ds.length := by
    have := first.inside
    omega
  have point : ds[j]? = some ds[j] := List.getElem?_eq_getElem within
  exact ⟨j, ds[j], placed, point,
    fun e other => nearest_of_firstNotBelow ascending first point other⟩

/-- A shape that stands still twice, with a stop before its first point, stops on the middle of two
points and on a plateau, and a stop beyond its last point. -/
theorem travelledOffsets_plateaus :
    gapTable [(1 : ℚ), 1, 3, 3, 3, 4] = [1, 2, 3, 3, 7 / 2] ∧
      travelledOffsets [(0 : ℚ), 2, 3, 15 / 4, 9] [1, 2, 3, 3, 7 / 2] = [0, 1, 2, 5, 5] ∧
      ∀ e ∈ [(1 : ℚ), 1, 3, 3, 3, 4], |15 / 4 - 4| ≤ |15 / 4 - e| := by
  have gaps : gapTable [(1 : ℚ), 1, 3, 3, 3, 4] = [1, 2, 3, 3, 7 / 2] := by decide +kernel
  have offsets : travelledOffsets [(0 : ℚ), 2, 3, 15 / 4, 9] [1, 2, 3, 3, 7 / 2] =
      [0, 1, 2, 5, 5] := by decide +kernel
  rcases (travelledOffsets_nearest [1, 1, 3, 3, 3, 4] [0, 2, 3, 15 / 4, 9] (by decide +kernel)
    (by decide +kernel) (by decide +kernel)).2 3 (15 / 4) rfl with ⟨j, d, placed, point, nearest⟩
  rw [gaps, offsets] at placed
  cases placed
  cases point
  exact ⟨gaps, offsets, nearest⟩

end StopAlign
