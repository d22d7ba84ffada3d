import StopAlign.Proofs.Align.Strategy
import StopAlign.Proofs.Trip.Fitting
import StopAlign.Trip.Segments

/-!
# Lines — how drawing the pieces of trips fails

- `segments_error`        : cutting a shape fails at an inner stop that is immeasurable
- `Stranded`              : a trip that has offsets and such a stop
- `matchedSegments_error` : drawing trips fails at one that is stranded, or at a line of one point

Offsets by distance never ask where a stop is. That a stop cannot be measured comes out only when the
pieces of its trip are drawn.
-/

namespace StopAlign

open Outcome Polyline

/-- A projection without a value is a closest point without one. -/
theorem immeasurable_of_nearest {shape part : Polyline} {p : Point} {fault : Fault}
    (within : part <:+: shape) (two : 2 ≤ part.length) (h : nearest p part = .error fault) :
    fault = .mathDomain ∧ Immeasurable shape p := by
  have closest : closestPoint p part = .error fault := by
    rw [closestPoint, if_neg (by omega), h]
    rfl
  exact immeasurable_of_error within closest

theorem segments_error {shape : Polyline} {stops : List Point} {fault : Fault}
    (h : segments shape stops = .error fault) :
    fault = .mathDomain ∧ ∃ p ∈ stops.tail.dropLast, Immeasurable shape p := by
  unfold segments at h
  split at h
  · cases h
  rcases bind_eq_error.mp h with cutting | ⟨_, -, last⟩
  swap
  · cases last
  unfold cuts at cutting
  split at cutting
  · cases cutting
  rcases cutsFrom_error (by omega) cutting with ⟨p, member, part, suffix, two, lost⟩
  rcases immeasurable_of_nearest suffix.isInfix two lost with ⟨domain, lost⟩
  exact ⟨domain, p, member, lost⟩

theorem linesOf_error {trip : Ident} {pieces : List Polyline} {fault : Fault}
    (h : linesOf trip pieces = .error fault) : fault = .onePointLine := by
  rcases mapM_eq_error h with ⟨⟨points, index⟩, -, failed⟩
  simp only at failed
  split at failed
  · cases failed
    rfl
  · cases failed

/-- A trip that has offsets, and an inner stop without a closest point on some part of its shape. -/
structure Stranded (net : Network) (l : Ledger) (t : Trip) (shape : Polyline)
    (places : List Point) : Prop where
  matched : (l.offsets? t.id).isSome = true
  drawn : l.polyline net.store t.id = .ok shape
  placed : net.places t.stops = .ok places
  lost : ∃ p ∈ places.tail.dropLast, Immeasurable shape p

section Lines

variable {net : Network} {l : Ledger} {fault : Fault}
  (drawn : ∀ trip, ∃ shape, l.polyline net.store trip = .ok shape)

include drawn

theorem matchedLines_error {t : Trip} (h : matchedLines net l t = .error fault) :
    fault = .onePointLine ∨
      fault = .mathDomain ∧ ∃ shape places, Stranded net l t shape places := by
  rcases bind_eq_error.mp h with undrawn | ⟨shape, points, h⟩
  · rcases drawn t.id with ⟨shape, points⟩
    cases points.symm.trans undrawn
  split at h
  · cases h
  · cases h
  · rename_i places filled placed
    rcases bind_eq_error.mp h with cutting | ⟨pieces, -, drawing⟩
    · rcases segments_error cutting with ⟨domain, lost⟩
      refine .inr ⟨domain, _, places, ?_, points, placed, lost⟩
      -- without offsets there would be no points
      by_contra unmatched
      rw [Ledger.polyline, if_neg unmatched] at points
      cases points
      exact filled rfl
    · exact .inl (linesOf_error drawing)

theorem matchedSegments_error {trips : List Trip} (h : matchedSegments net l trips = .error fault) :
    fault = .onePointLine ∨
      fault = .mathDomain ∧ ∃ t ∈ trips, ∃ shape places, Stranded net l t shape places := by
  rcases bind_eq_error.mp h with failed | ⟨_, -, last⟩
  · rcases mapM_eq_error failed with ⟨t, member, failed⟩
    rcases matchedLines_error drawn failed with line | ⟨domain, stranded⟩
    · exact .inl line
    · exact .inr ⟨domain, t, member, stranded⟩
  · cases last

end Lines

end StopAlign
