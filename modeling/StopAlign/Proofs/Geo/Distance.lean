import StopAlign.Proofs.Geo.Polyline

/-!
# Distance — how measuring fails

- `greatCircle_error`, `closestPointOn_error` : a distance and a projection without a value
- `nearest_error`, `closestPoint_error`       : the nearest segment and the closest point of a line

Sines, cosines and roots are the only steps without a value for some numbers, so a line of two
points or more fails with the fault `mathDomain` or not at all.
-/

namespace StopAlign

open Outcome

variable {fault : Fault}

/-! ## Two places -/

theorem sineOf_error {angle : Float} (h : sineOf angle = .error fault) : fault = .mathDomain := by
  unfold sineOf at h
  split at h <;> cases h
  rfl

theorem cosineOf_error {angle : Float} (h : cosineOf angle = .error fault) :
    fault = .mathDomain := by
  unfold cosineOf at h
  split at h <;> cases h
  rfl

theorem rootOf_error {x : Float} (h : rootOf x = .error fault) : fault = .mathDomain := by
  unfold rootOf at h
  split at h <;> cases h
  rfl

theorem greatCircle_error {a b : Point} (h : greatCircle a b = .error fault) :
    fault = .mathDomain := by
  unfold greatCircle at h
  rcases bind_eq_error.mp h with north | ⟨_, -, h⟩
  · exact sineOf_error north
  rcases bind_eq_error.mp h with narrow | ⟨_, -, h⟩
  · exact cosineOf_error narrow
  rcases bind_eq_error.mp h with narrow | ⟨_, -, h⟩
  · exact cosineOf_error narrow
  rcases bind_eq_error.mp h with east | ⟨_, -, h⟩
  · exact sineOf_error east
  rcases bind_eq_error.mp h with root | ⟨_, -, last⟩
  · exact rootOf_error root
  · cases last

theorem closestPointOn_error {p a b : Point} (h : closestPointOn p a b = .error fault) :
    fault = .mathDomain := by
  rcases bind_eq_error.mp h with scale | ⟨_, -, last⟩
  · exact cosineOf_error scale
  · cases last

/-! ## A place and a line -/

namespace Polyline

theorem project_error {p : Point} {leg : Leg} (h : leg.project p = .error fault) :
    fault = .mathDomain := by
  rcases bind_eq_error.mp h with point | ⟨_, -, h⟩
  · exact closestPointOn_error point
  rcases bind_eq_error.mp h with distance | ⟨_, -, last⟩
  · exact greatCircle_error distance
  · cases last

/-- A line of two points has a segment to be nearest, if they can be measured. -/
theorem nearest_error {p : Point} {line : Polyline} (two : 2 ≤ line.length)
    (h : nearest p line = .error fault) : fault = .mathDomain := by
  unfold nearest at h
  rcases bind_eq_error.mp h with measured | ⟨projections, all, h⟩
  · rcases mapM_eq_error measured with ⟨leg, -, failed⟩
    exact project_error failed
  · have count : projections.length = line.length - 1 := by
      rw [← length_legsFrom 0 line]
      exact (mapM_eq_ok all).length_eq.symm
    cases projections with
    | nil =>
      rw [List.length_nil] at count
      omega
    | cons first others => cases h

/-- A line of fewer points answers without measuring. -/
theorem closestPoint_error {p : Point} {line : Polyline}
    (h : closestPoint p line = .error fault) : fault = .mathDomain ∧ 2 ≤ line.length := by
  unfold closestPoint at h
  by_cases short : line.length < 2
  · rw [if_pos short] at h
    cases h
  have two : 2 ≤ line.length := Nat.le_of_not_lt short
  rw [if_neg short] at h
  refine ⟨?_, two⟩
  rcases bind_eq_error.mp h with near | ⟨best, -, h⟩
  · exact nearest_error two near
  rcases bind_eq_error.mp h with toStart | ⟨_, -, h⟩
  · exact greatCircle_error toStart
  rcases bind_eq_error.mp h with toFinish | ⟨_, -, last⟩
  · exact greatCircle_error toFinish
  · split at last <;> cases last

end Polyline
end StopAlign
