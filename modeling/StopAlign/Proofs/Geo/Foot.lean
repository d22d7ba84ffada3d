import Mathlib.Algebra.Order.Field.Basic
import Mathlib.Algebra.Order.Ring.Rat
import Mathlib.Tactic.LinearCombination
import Mathlib.Tactic.Ring
import StopAlign.Geo.Position

/-!
# Foot — the closest point of a segment over exact numbers

- `Position.toward`      : the places between the ends of a segment
- `planeSquare`          : the squared distance in the plane of the projection
- `clamp_nearest`        : cutting a parameter back gives the number nearest to it from 0 to 1
- `foot`, `planeSquare_toward` : along a segment the squared distance grows with the square of the
  way from the foot of the perpendicular
- `planeSquare_collapsed` : a segment that the scale makes a point is everywhere equally far
- `closestOnSegment?`    : the projection where a division by zero has no result
- `closestOnSegment_least` : the projection divides, and no place of the segment is closer

The scale may be any number. Where it is zero all places of one latitude fall together, so that a
segment along a parallel has no length either, and no foot.
-/

namespace StopAlign

/-- The place at a share of the way from `a` to `b`. -/
def Position.toward (a b : Position ℚ) (t : ℚ) : Position ℚ :=
  ⟨a.lat + t * (b.lat - a.lat), a.lon + t * (b.lon - a.lon)⟩

/-- The squared distance of two places in the plane. -/
def planeSquare (scale : ℚ) (p q : Position ℚ) : ℚ :=
  (q.lon - p.lon) * scale * ((q.lon - p.lon) * scale) + (q.lat - p.lat) * (q.lat - p.lat)

theorem planeSquare_nonneg (scale : ℚ) (p q : Position ℚ) : 0 ≤ planeSquare scale p q :=
  add_nonneg (mul_self_nonneg _) (mul_self_nonneg _)

/-! ## Parameters that are cut back -/

theorem clamp_cases (t : ℚ) :
    (t ≤ 0 ∧ clamp t = 0) ∨ (0 < t ∧ t < 1 ∧ clamp t = t) ∨ (1 ≤ t ∧ clamp t = 1) := by
  unfold clamp
  dsimp only
  by_cases below : t < 1
  · rw [if_pos below]
    by_cases positive : 0 < t
    · exact .inr (.inl ⟨positive, below, if_pos positive⟩)
    · exact .inl ⟨not_lt.mp positive, if_neg positive⟩
  · rw [if_neg below]
    exact .inr (.inr ⟨not_lt.mp below, if_pos one_pos⟩)

theorem clamp_bounds (t : ℚ) : 0 ≤ clamp t ∧ clamp t ≤ 1 := by
  rcases clamp_cases t with ⟨-, low⟩ | ⟨positive, below, same⟩ | ⟨-, high⟩
  · rw [low]
    exact ⟨le_rfl, zero_le_one⟩
  · rw [same]
    exact ⟨positive.le, below.le⟩
  · rw [high]
    exact ⟨zero_le_one, le_rfl⟩

/-- From a parameter that is cut back, every other number from 0 to 1 lies on the far side. -/
theorem clamp_side (t : ℚ) {u : ℚ} (low : 0 ≤ u) (high : u ≤ 1) :
    0 ≤ (u - clamp t) * (clamp t - t) := by
  rcases clamp_cases t with ⟨negative, cut⟩ | ⟨-, -, same⟩ | ⟨beyond, cut⟩
  · rw [cut]
    exact mul_nonneg (sub_nonneg.mpr low) (sub_nonneg.mpr negative)
  · rw [same, sub_self, mul_zero]
  · rw [cut]
    exact mul_nonneg_of_nonpos_of_nonpos (sub_nonpos.mpr high) (sub_nonpos.mpr beyond)

theorem clamp_nearest (t : ℚ) {u : ℚ} (low : 0 ≤ u) (high : u ≤ 1) :
    (clamp t - t) * (clamp t - t) ≤ (u - t) * (u - t) := by
  have apart : (u - t) * (u - t) = (clamp t - t) * (clamp t - t) +
      ((u - clamp t) * (u - clamp t) + 2 * ((u - clamp t) * (clamp t - t))) := by ring
  rw [apart]
  refine le_add_of_nonneg_right (add_nonneg (mul_self_nonneg _) ?_)
  exact mul_nonneg zero_le_two (clamp_side t low high)

/-! ## Along a segment -/

section Segment

variable (scale : ℚ) (p a b : Position ℚ)

/-- How far along the line through `a` and `b` the foot of the perpendicular from `p` lies. -/
def foot : ℚ :=
  -((a.lon - p.lon) * scale * ((b.lon - a.lon) * scale) +
    (a.lat - p.lat) * (b.lat - a.lat)) / planeSquare scale a b

variable {scale a b}

/-- The squared distance is least at the foot. -/
theorem planeSquare_toward (long : planeSquare scale a b ≠ 0) (u : ℚ) :
    planeSquare scale p (a.toward b u) = planeSquare scale p (a.toward b (foot scale p a b)) +
      planeSquare scale a b * ((u - foot scale p a b) * (u - foot scale p a b)) := by
  have level : foot scale p a b * planeSquare scale a b =
      -((a.lon - p.lon) * scale * ((b.lon - a.lon) * scale) +
        (a.lat - p.lat) * (b.lat - a.lat)) := div_mul_cancel₀ _ long
  simp only [planeSquare, Position.toward] at level ⊢
  linear_combination 2 * (u - foot scale p a b) * level

/-- All places of a segment that the scale makes a point are equally far. -/
theorem planeSquare_collapsed (short : planeSquare scale a b = 0) (u : ℚ) :
    planeSquare scale p (a.toward b u) = planeSquare scale p a := by
  rcases (add_eq_zero_iff_of_nonneg (mul_self_nonneg _) (mul_self_nonneg _)).mp short with
    ⟨east, north⟩
  rw [mul_self_eq_zero] at east north
  have lon : (a.lon + u * (b.lon - a.lon) - p.lon) * scale = (a.lon - p.lon) * scale := by
    linear_combination u * east
  have lat : a.lat + u * (b.lat - a.lat) - p.lat = a.lat - p.lat := by
    linear_combination u * north
  simp only [planeSquare, Position.toward, lon, lat]

end Segment

/-! ## The closest point -/

/-- A quotient, where there is one. -/
def quotient? (x y : ℚ) : Option ℚ := if y = 0 then none else some (x / y)

/-- The closest point of a segment, or nothing if a division by zero is met on the way to it. -/
def closestOnSegment? (scale : ℚ) (p a b : Position ℚ) : Option (Position ℚ) :=
  closestBy quotient? scale p a b

section Closest

variable (scale : ℚ) (p a b : Position ℚ)

/-- The division is only met where the divisor is not zero. -/
theorem closestOnSegment?_eq :
    closestOnSegment? scale p a b = some (closestOnSegment scale p a b) := by
  unfold closestOnSegment? closestOnSegment closestBy
  dsimp only
  split_ifs with point
  · rfl
  · rw [quotient?, if_neg (fun zero => point (beq_iff_eq.mpr zero))]
    rfl

theorem closestOnSegment_eq_toward :
    closestOnSegment scale p a b =
      if planeSquare scale a b = 0 then a else a.toward b (clamp (foot scale p a b)) := by
  have east : (b.lon - p.lon) * scale - (a.lon - p.lon) * scale = (b.lon - a.lon) * scale := by
    ring
  have north : b.lat - p.lat - (a.lat - p.lat) = b.lat - a.lat := by ring
  simp only [closestOnSegment, closestBy, east, north, beq_iff_eq]
  by_cases short : planeSquare scale a b = 0
  · rw [if_pos short]
    exact congrArg Id.run (if_pos short)
  · rw [if_neg short]
    exact congrArg Id.run (if_neg short)

/-- For every scale, place and segment the projection never divides by zero. What it answers lies
on the segment, and no place of the segment is closer in the plane. -/
theorem closestOnSegment_least :
    closestOnSegment? scale p a b = some (closestOnSegment scale p a b) ∧
      ∃ t, 0 ≤ t ∧ t ≤ 1 ∧ closestOnSegment scale p a b = a.toward b t ∧
        ∀ u, 0 ≤ u → u ≤ 1 →
          planeSquare scale p (closestOnSegment scale p a b) ≤
            planeSquare scale p (a.toward b u) := by
  refine ⟨closestOnSegment?_eq scale p a b, ?_⟩
  rw [closestOnSegment_eq_toward]
  by_cases short : planeSquare scale a b = 0
  · rw [if_pos short]
    refine ⟨0, le_rfl, zero_le_one, ?_, fun u _ _ => (planeSquare_collapsed p short u).ge⟩
    simp only [Position.toward, zero_mul, add_zero]
  · rw [if_neg short]
    rcases clamp_bounds (foot scale p a b) with ⟨low, high⟩
    refine ⟨_, low, high, rfl, fun u first last => ?_⟩
    rw [planeSquare_toward p short u, planeSquare_toward p short (clamp _)]
    exact add_le_add_right (mul_le_mul_of_nonneg_left (clamp_nearest _ first last)
      (planeSquare_nonneg scale a b)) _

end Closest

/-- The frame may be turned over, and the foot may lie beyond an end. -/
example : closestOnSegment (-1 / 2) ⟨1, 1⟩ ⟨0, 0⟩ ⟨0, 4⟩ = (⟨0, 1⟩ : Position ℚ) ∧
    closestOnSegment (-1 / 2) ⟨1, 9⟩ ⟨0, 0⟩ ⟨0, 4⟩ = (⟨0, 4⟩ : Position ℚ) := by
  decide +kernel

end StopAlign
