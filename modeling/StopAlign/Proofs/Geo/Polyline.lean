import Mathlib.Data.List.Chain
import StopAlign.Geo.Polyline
import StopAlign.Proofs.Outcome

/-!
# Polyline — where the closest point of a line can lie

- `mem_legsFrom`       : the indices of the segments of a line
- `nearest_mem`        : the nearest segment is one of the line
- `closestPoint_range` : the closest point is a point of the line
- `cutsFrom_segments`  : cuts never go back to an earlier segment
- `cutsFrom_error`     : no fault but one of a projection onto the rest of the line
-/

namespace StopAlign
namespace Polyline

open Outcome

theorem mem_legsFrom {index : Nat} {line : Polyline} {leg : Leg} (h : leg ∈ legsFrom index line) :
    index ≤ leg.index ∧ leg.index + 1 < index + line.length := by
  induction line generalizing index with
  | nil => cases h
  | cons a tail ih =>
    cases tail with
    | nil => cases h
    | cons b rest =>
      rcases List.mem_cons.mp h with first | later
      · subst first
        simp only [List.length_cons]
        omega
      · have bounds := ih later
        simp only [List.length_cons] at bounds ⊢
        omega

/-- A projection is one onto the segment that was asked for. -/
theorem leg_of_project {p : Point} {leg : Leg} {projection : Projection}
    (h : leg.project p = .ok projection) : projection.leg = leg := by
  unfold Leg.project at h
  rcases bind_eq_ok.mp h with ⟨point, -, h⟩
  rcases bind_eq_ok.mp h with ⟨distance, -, h⟩
  cases h
  rfl

theorem foldl_nearer_mem (first : Projection) (others : List Projection) :
    others.foldl Projection.nearer first ∈ first :: others := by
  induction others generalizing first with
  | nil => exact List.mem_singleton.mpr rfl
  | cons other others ih =>
    have one : first.nearer other = first ∨ first.nearer other = other := by
      unfold Projection.nearer
      by_cases closer : other.distance < first.distance
      · exact .inr (if_pos closer)
      · exact .inl (if_neg closer)
    rcases List.mem_cons.mp (ih (first.nearer other)) with last | later
    · rw [List.foldl_cons, last]
      rcases one with same | same <;> simp [same]
    · exact List.mem_cons_of_mem _ (List.mem_cons_of_mem _ later)

theorem nearest_mem {p : Point} {line : Polyline} {best : Projection}
    (h : nearest p line = .ok best) : best.leg ∈ legs line := by
  unfold nearest at h
  rcases bind_eq_ok.mp h with ⟨projections, all, h⟩
  match projections, h with
  | first :: others, h =>
    cases h
    rcases mem_of_mapM all (foldl_nearer_mem first others) with ⟨leg, member, projected⟩
    rw [leg_of_project projected]
    exact member

/-- The closest point of a line with points is one of them; a line without any answers zero. -/
theorem closestPoint_range {p : Point} {line : Polyline} {fit : Fit}
    (h : closestPoint p line = .ok fit) :
    0 ≤ fit.offset ∧ fit.offset < max 1 (line.length : Int) := by
  unfold closestPoint at h
  by_cases short : line.length < 2
  · rw [if_pos short] at h
    cases h
    dsimp only
    omega
  · rw [if_neg short] at h
    rcases bind_eq_ok.mp h with ⟨-, -, h⟩
    rcases bind_eq_ok.mp h with ⟨best, near, h⟩
    rcases bind_eq_ok.mp h with ⟨toStart, -, h⟩
    rcases bind_eq_ok.mp h with ⟨toFinish, -, h⟩
    have bounds := mem_legsFrom (nearest_mem near)
    split at h
    · cases h
      dsimp only
      omega
    · cases h
      dsimp only
      omega

/-! ## Cuts -/

/-- What is left of a line behind a cut still has a segment. -/
theorem length_drop_nearest {p : Point} {line : Polyline} {best : Projection}
    (h : nearest p line = .ok best) :
    2 ≤ (line.drop best.leg.index).length ∧
      best.leg.index + (line.drop best.leg.index).length = line.length := by
  have bounds := mem_legsFrom (nearest_mem h)
  rw [List.length_drop]
  omega

/-- One cut for each waypoint, none on a segment before the one of the cut before it. -/
theorem cutsFrom_segments {index : Nat} {line : Polyline} {waypoints : List Point}
    {found : List Cut} (h : cutsFrom index line waypoints = .ok found) :
    found.length = waypoints.length ∧ (index :: found.map (·.segment)).IsChain (· ≤ ·) ∧
      ∀ cut ∈ found, cut.segment + 1 < index + line.length := by
  induction waypoints generalizing index line found with
  | nil =>
    cases h
    exact ⟨rfl, List.isChain_singleton _, fun cut member => nomatch member⟩
  | cons p rest ih =>
    rcases bind_eq_ok.mp h with ⟨best, near, h⟩
    rcases bind_eq_ok.mp h with ⟨later, searched, last⟩
    cases last
    rcases ih searched with ⟨count, chain, bounds⟩
    rcases length_drop_nearest near with ⟨two, whole⟩
    refine ⟨?_, ?_, ?_⟩
    · rw [List.length_cons, count, List.length_cons]
    · exact List.isChain_cons_cons.mpr ⟨Nat.le_add_right _ _, chain⟩
    · intro cut member
      rcases List.mem_cons.mp member with here | behind
      · subst here
        dsimp only
        omega
      · have bound := bounds cut behind
        omega

theorem cutsFrom_error {index : Nat} {line : Polyline} {waypoints : List Point} {fault : Fault}
    (two : 2 ≤ line.length) (h : cutsFrom index line waypoints = .error fault) :
    ∃ p ∈ waypoints, ∃ part, part <:+ line ∧ 2 ≤ part.length ∧ nearest p part = .error fault := by
  induction waypoints generalizing index line with
  | nil => cases h
  | cons p rest ih =>
    rcases bind_eq_error.mp h with failed | ⟨best, near, h⟩
    · exact ⟨p, List.mem_cons_self, line, List.suffix_rfl, two, failed⟩
    · rcases bind_eq_error.mp h with failed | ⟨later, -, h⟩
      · rcases ih (length_drop_nearest near).1 failed with ⟨q, member, part, suffix, rest⟩
        exact ⟨q, List.mem_cons_of_mem p member, part, suffix.trans (List.drop_suffix _ _), rest⟩
      · cases h

end Polyline
end StopAlign
