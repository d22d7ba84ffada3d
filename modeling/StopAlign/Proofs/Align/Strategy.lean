import StopAlign.Proofs.Align.Division
import StopAlign.Proofs.Geo.Distance

/-!
# Strategy — how placing stops on a shape fails

- `Immeasurable`        : a place without a closest point on some part of a shape
- `greedyInner_error`   : the search from left to right fails at one of its stops
- `placedOffsets_error` : both strategies fail at an inner stop that is immeasurable, or not at all

The first and the last stop are never measured. How far the search has come when it fails, and so
the part of the shape, is up to the strategy.
-/

namespace StopAlign

open Outcome Polyline

/-- A place without a closest point on some part of a shape that has a segment. -/
def Immeasurable (shape : Polyline) (p : Point) : Prop :=
  ∃ part, part <:+: shape ∧ 2 ≤ part.length ∧ closestPoint p part = .error .mathDomain

theorem immeasurable_of_error {shape part : Polyline} {p : Point} {fault : Fault}
    (within : part <:+: shape) (h : closestPoint p part = .error fault) :
    fault = .mathDomain ∧ Immeasurable shape p := by
  rcases closestPoint_error h with ⟨rfl, two⟩
  exact ⟨rfl, part, within, two, h⟩

theorem greedyInner_error {shape : Polyline} {start slack : Int} {stops : List Point}
    {fault : Fault} (h : greedyInner shape start slack stops = .error fault) :
    fault = .mathDomain ∧ ∃ p ∈ stops, Immeasurable shape p := by
  induction stops generalizing start slack with
  | nil => cases h
  | cons p rest ih =>
    rcases bind_eq_error.mp h with closest | ⟨fit, -, h⟩
    · have within : greedyWindow shape start slack <:+: shape := slice_infix _ _ _
      rcases immeasurable_of_error within closest with ⟨rfl, lost⟩
      exact ⟨rfl, p, List.mem_cons_self, lost⟩
    rcases bind_eq_error.mp h with later | ⟨_, -, last⟩
    · rcases ih later with ⟨rfl, q, member, lost⟩
      exact ⟨rfl, q, List.mem_cons_of_mem p member, lost⟩
    · cases last

theorem greedyOffsets_error {shape : Polyline} {stops : List Point} {fault : Fault}
    (two : 2 ≤ stops.length) (h : greedyOffsets shape stops = .error fault) :
    fault = .mathDomain ∧ ∃ p ∈ stops.tail.dropLast, Immeasurable shape p := by
  match stops, two with
  | first :: second :: rest, _ =>
    rcases bind_eq_error.mp h with inner | ⟨_, -, last⟩
    · exact greedyInner_error inner
    · cases last

theorem divisionOffsets_error {shape : Polyline} {stops : List Point} {fault : Fault}
    (two : 2 ≤ stops.length) (h : divisionOffsets shape stops = .error fault) :
    fault = .mathDomain ∧ ∃ p ∈ stops.tail.dropLast, Immeasurable shape p := by
  rw [divisionOffsets_eq two] at h
  rcases bind_eq_error.mp h with divided | ⟨_, -, last⟩
  · rcases divide_error divided with ⟨p, member, window, within, closest⟩
    rw [places_slotsFrom] at member
    rcases immeasurable_of_error within closest with ⟨rfl, lost⟩
    exact ⟨rfl, p, member, lost⟩
  · cases last

/-- Placing stops fails at an inner stop that is immeasurable, or not at all. -/
theorem placedOffsets_error {strategy : Strategy} {shape : Polyline} {stops : List Point}
    {fault : Fault} (h : placedOffsets strategy shape stops = .error fault) :
    fault = .mathDomain ∧ ∃ p ∈ stops.tail.dropLast, Immeasurable shape p := by
  unfold placedOffsets at h
  split at h
  · cases h
  rename_i enough
  have two : 2 ≤ stops.length := by omega
  cases found : strategy.offsets shape stops with
  | ok offsets =>
    rw [found] at h
    cases h
  | error cause =>
    rw [found] at h
    cases h
    cases strategy with
    | greedy => exact greedyOffsets_error two found
    | division => exact divisionOffsets_error two found

end StopAlign
