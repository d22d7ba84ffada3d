import StopAlign.Proofs.Geo.Polyline
import StopAlign.Trip.Segments

/-!
# Segments — the pieces of a shape lie side by side

- `Tiles`          : pieces from stop to stop that share out the inner points of a shape
- `between_append` : up to a cut, and from the cut on
- `pieces_tile`    : cuts that never go back make such pieces
- `segments_tile`  : so do the stops of a trip, unless a projection fails

A shape without a segment has no inner points, and every cut of it is at its beginning.
-/

namespace StopAlign

open Outcome Polyline

/-- Pieces from each stop to the next one, with the inner points of a shape between them, each once
and in their order. -/
structure Tiles (stops : List Point) (inner : Polyline) (pieces : List Polyline) : Prop where
  count : pieces.length + 1 = stops.length
  ends : ∀ i piece, pieces[i]? = some piece → ∃ a b mid,
    stops[i]? = some a ∧ stops[i + 1]? = some b ∧ piece = a :: (mid ++ [b])
  inner_eq : pieces.flatMap (fun piece => piece.tail.dropLast) = inner

theorem tiles_singleton (a b : Point) (mid : Polyline) :
    Tiles [a, b] mid [a :: (mid ++ [b])] where
  count := rfl
  ends := by
    intro i piece here
    match i, here with
    | 0, here =>
      cases here
      exact ⟨a, b, mid, rfl, rfl, rfl⟩
  inner_eq := by simp

theorem Tiles.cons {a b : Point} {stops : List Point} {inner : Polyline} {pieces : List Polyline}
    (tiles : Tiles (b :: stops) inner pieces) (mid : Polyline) :
    Tiles (a :: b :: stops) (mid ++ inner) ((a :: (mid ++ [b])) :: pieces) where
  count := by
    have count := tiles.count
    simp only [List.length_cons] at count ⊢
    omega
  ends := by
    intro i piece here
    match i, here with
    | 0, here =>
      cases here
      exact ⟨a, b, mid, rfl, rfl, rfl⟩
    | i + 1, here => exact tiles.ends i piece here
  inner_eq := by simp [tiles.inner_eq]

/-- The points up to a cut and those from the cut on are all the points; a shape without a segment
has none. -/
theorem between_append (shape : Polyline) {after cut : Nat} (ahead : after ≤ cut)
    (h : cut + 1 < shape.length ∨ shape.length < 2) :
    between shape after cut ++ shape.dropLast.drop (cut + 1) = shape.dropLast.drop (after + 1) := by
  unfold between
  rcases h with inside | short
  · have upTo : shape.take (cut + 1) = shape.dropLast.take (cut + 1) := by
      rw [List.dropLast_eq_take, List.take_take, Nat.min_eq_left (by omega)]
    have room : after + 1 ≤ (shape.dropLast.take (cut + 1)).length := by
      rw [List.length_take, List.length_dropLast]
      omega
    rw [upTo, ← List.drop_append_of_le_length room, List.take_append_drop]
  · rw [List.drop_eq_nil_of_le, List.drop_eq_nil_of_le, List.drop_eq_nil_of_le]
    · rfl
    all_goals simp only [List.length_dropLast, List.length_take]; omega

/-- Cuts that never go back make pieces that lie side by side. -/
theorem pieces_tile (shape : Polyline) {after : Nat} {cuts : List Cut} {stops : List Point}
    (count : cuts.length + 2 = stops.length)
    (ahead : (after :: cuts.map (·.segment)).IsChain (· ≤ ·))
    (inside : ∀ cut ∈ cuts, cut.segment + 1 < shape.length ∨ shape.length < 2) :
    Tiles stops (shape.dropLast.drop (after + 1)) (pieces shape after cuts stops) := by
  induction cuts generalizing after stops with
  | nil =>
    match stops, count with
    | [a, b], _ =>
      have rest : between shape.dropLast after shape.length = shape.dropLast.drop (after + 1) := by
        unfold between
        rw [List.take_of_length_le (by rw [List.length_dropLast]; omega)]
      rw [pieces, rest]
      exact tiles_singleton a b _
  | cons cut cuts ih =>
    match stops, count with
    | a :: b :: stops, count =>
      rcases List.isChain_cons_cons.mp ahead with ⟨first, later⟩
      have tail : Tiles (b :: stops) _ _ := ih (by simpa using count) later
        fun other member => inside other (List.mem_cons_of_mem cut member)
      rw [pieces, ← between_append shape first (inside cut List.mem_cons_self)]
      exact tail.cons _

/-- The cuts of a shape at waypoints never go back, and leave its last point alone. -/
theorem cuts_eq_ok {shape : Polyline} {waypoints : List Point} {found : List Cut}
    (h : cuts shape waypoints = .ok found) :
    found.length = waypoints.length ∧ (0 :: found.map (·.segment)).IsChain (· ≤ ·) ∧
      ∀ cut ∈ found, cut.segment + 1 < shape.length ∨ shape.length < 2 := by
  unfold cuts at h
  split at h
  · rename_i short
    cases h
    refine ⟨List.length_map _, ?_, fun cut _ => .inr short⟩
    rw [List.map_map]
    induction waypoints with
    | nil => exact List.isChain_singleton _
    | cons p rest ih => exact List.isChain_cons_cons.mpr ⟨Nat.le_refl 0, ih⟩
  · rcases cutsFrom_segments h with ⟨count, chain, bounds⟩
    refine ⟨count, chain, ?_⟩
    intro cut member
    have bound := bounds cut member
    omega

/-- At least two stops cut a shape into one piece less, from each stop to the next one, and the
pieces share out all points of the shape but the first and the last one; or else the projection of
an inner stop onto the rest of the shape fails, and the cutting fails with it. -/
theorem segments_tile (shape : Polyline) (stops : List Point) (two : 2 ≤ stops.length) :
    (∃ pieces, segments shape stops = .ok pieces ∧ Tiles stops shape.tail.dropLast pieces) ∨
      ∃ fault, segments shape stops = .error fault ∧ ∃ p ∈ stops.tail.dropLast, ∃ part,
        part <:+ shape ∧ 2 ≤ part.length ∧ nearest p part = .error fault := by
  have inner : shape.dropLast.drop 1 = shape.tail.dropLast := by
    rw [List.drop_one, List.tail_dropLast]
  unfold segments
  rw [if_neg (by omega)]
  cases found : cuts shape stops.tail.dropLast with
  | ok cs =>
    rcases cuts_eq_ok found with ⟨count, ahead, inside⟩
    have stopsOf : cs.length + 2 = stops.length := by
      rw [count, List.length_dropLast, List.length_tail]
      omega
    exact .inl ⟨_, rfl, inner ▸ pieces_tile shape stopsOf ahead inside⟩
  | error fault =>
    refine .inr ⟨fault, rfl, ?_⟩
    unfold cuts at found
    split at found
    · cases found
    · exact cutsFrom_error (by omega) found

/-- A shape that comes back on itself. -/
def hairpin : Polyline := [⟨0, 0⟩, ⟨0, 0.001⟩, ⟨0, 0.002⟩, ⟨0, 0.001⟩, ⟨0, 0⟩]

/-- Stops whose order is not the one of the shape. -/
def hairpinStops : List Point := [⟨0, 0⟩, ⟨0, 0.002⟩, ⟨0, 0.0015⟩, ⟨0, 0.0018⟩, ⟨0, 0⟩]

theorem segments_hairpin :
    2 ≤ hairpinStops.length ∧ ∃ pieces, segments hairpin hairpinStops = .ok pieces ∧
      Tiles hairpinStops [⟨0, 0.001⟩, ⟨0, 0.002⟩, ⟨0, 0.001⟩] pieces := by
  refine ⟨by decide, ?_⟩
  have calm : (segments hairpin hairpinStops).toOption.isSome = true := by decide +kernel
  rcases segments_tile hairpin hairpinStops (by decide) with found | ⟨fault, failed, -⟩
  · exact found
  · rw [failed] at calm
    cases calm

end StopAlign
