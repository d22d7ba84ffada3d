import Mathlib.Data.List.Chain
import Mathlib.Data.List.Infix
import StopAlign.Align.Strategy
import StopAlign.Proofs.Geo.Polyline

/-!
# Division — the offsets that the search from the best stop yields

- `Divides`          : a division of a range, said without fuel
- `Seated`, `Roomy`  : the slots are the stops between the anchors; there is a point for each
- `Divides.ascends`  : in a range with room the offsets ascend from anchor to anchor
- `divide_error`     : no fault but one of the projections

A range with room stays one on both sides of a chosen stop, because the stop lies in its window. A
fit that was kept from a wider range is no exception: it is kept only inside the window.
-/

namespace StopAlign

open Outcome Polyline

/-! ## Divisions -/

/-- A division of a range with the given slots. -/
inductive Divides (shape : Polyline) : Range → List Slot → Division → Prop
  | leaf (r : Range) : Divides shape r [] (.leaf r)
  | node {r : Range} {slots fitted : List Slot} {p : Pick} {left right : Division}
      (refitted : slots.mapM (Slot.refit shape r) = .ok fitted) (picked : pick? fitted = some p)
      (before : Divides shape ⟨r.low, p.best.anchor⟩ p.before left)
      (after : Divides shape ⟨p.best.anchor, r.high⟩ p.after right) :
      Divides shape r slots (.node r fitted p.best left right)

theorem pick?_eq_none {slots : List Slot} (h : pick? slots = none) : slots = [] := by
  cases slots with
  | nil => rfl
  | cons s rest =>
    unfold pick? at h
    split at h
    · cases h
    · split at h <;> cases h

/-- The chosen slot is one of the slots, with the others on both sides of it. -/
theorem pick?_eq_some {slots : List Slot} {p : Pick} (h : pick? slots = some p) :
    slots = p.before ++ p.best :: p.after := by
  induction slots generalizing p with
  | nil => cases h
  | cons s rest ih =>
    unfold pick? at h
    cases later : pick? rest with
    | none =>
      rw [later] at h
      cases h
      rw [pick?_eq_none later]
      rfl
    | some q =>
      rw [later] at h
      dsimp only at h
      split at h
      · cases h
        exact congrArg (s :: ·) (ih later)
      · cases h
        rfl

theorem length_pick {slots : List Slot} {p : Pick} (h : pick? slots = some p) :
    slots.length = p.before.length + p.after.length + 1 := by
  rw [pick?_eq_some h, List.length_append, List.length_cons]
  omega

/-- Enough fuel makes no difference. -/
theorem divides_of_divide {shape : Polyline} {fuel : Nat} {r : Range} {slots : List Slot}
    {d : Division} (enough : slots.length ≤ fuel) (h : divide shape fuel r slots = .ok d) :
    Divides shape r slots d := by
  induction fuel generalizing r slots d with
  | zero =>
    have none : slots = [] := List.length_eq_zero_iff.mp (Nat.le_zero.mp enough)
    cases h
    rw [none]
    exact .leaf r
  | succ fuel ih =>
    unfold divide at h
    rcases bind_eq_ok.mp h with ⟨fitted, refitted, h⟩
    have same : slots.length = fitted.length := (mapM_eq_ok refitted).length_eq
    cases picked : pick? fitted with
    | none =>
      rw [picked] at h
      cases h
      have none : slots = [] := by
        rw [← List.length_eq_zero_iff, same, pick?_eq_none picked]
        rfl
      rw [none]
      exact .leaf r
    | some p =>
      rw [picked] at h
      rcases bind_eq_ok.mp h with ⟨left, before, h⟩
      rcases bind_eq_ok.mp h with ⟨right, after, h⟩
      cases h
      have parts := length_pick picked
      exact .node refitted picked (ih (by omega) before) (ih (by omega) after)

/-! ## Refitting -/

theorem Slot.refit_eq_ok {shape : Polyline} {r : Range} {s t : Slot}
    (h : s.refit shape r = .ok t) :
    t.stop = s.stop ∧ t.place = s.place ∧
      (t.fit = s.fit ∧ r.admits s.stop s.fit.offset = true ∨
        ∃ fit, closestPoint s.place (r.window shape s.stop) = .ok fit ∧
          t.fit = ⟨r.windowStart s.stop + fit.offset, fit.distance⟩) := by
  unfold refit at h
  by_cases kept : r.admits s.stop s.fit.offset = true
  · rw [if_pos kept] at h
    cases h
    exact ⟨rfl, rfl, .inl ⟨rfl, kept⟩⟩
  · rw [if_neg kept] at h
    rcases bind_eq_ok.mp h with ⟨found, searched, h⟩
    rcases bind_eq_ok.mp searched with ⟨fit, closest, last⟩
    cases last
    cases h
    exact ⟨rfl, rfl, .inr ⟨fit, closest, rfl⟩⟩

theorem stops_of_refit {shape : Polyline} {r : Range} {slots fitted : List Slot}
    (h : slots.mapM (Slot.refit shape r) = .ok fitted) :
    fitted.map (·.stop) = slots.map (·.stop) :=
  map_eq_of_mapM (fun _ _ refit => (Slot.refit_eq_ok refit).1) h

/-- No stop is lost, and their order is kept. -/
theorem Divides.stops {shape : Polyline} {r : Range} {slots : List Slot} {d : Division}
    (h : Divides shape r slots d) : d.chosen.map (·.stop) = slots.map (·.stop) := by
  induction h with
  | leaf r => rfl
  | node refitted picked before after ihl ihr =>
    rw [← stops_of_refit refitted, pick?_eq_some picked, Division.chosen, List.map_append,
      List.map_cons, ihl, ihr, List.map_append, List.map_cons]

/-! ## Room -/

/-- The slots are the stops between the anchors. -/
structure Seated (r : Range) (slots : List Slot) : Prop where
  stops : slots.map (·.stop) = List.range' (r.low.stop + 1) slots.length
  count : r.low.stop + slots.length + 1 = r.high.stop

/-- The anchors are points of the shape, at least as far apart as their stops. -/
structure Roomy (shape : Polyline) (r : Range) : Prop where
  low_nonneg : 0 ≤ r.low.offset
  high_lt : r.high.offset < shape.length
  spread : (r.high.stop : Int) - r.low.stop ≤ r.high.offset - r.low.offset

theorem Seated.of_refit {shape : Polyline} {r : Range} {slots fitted : List Slot}
    (seated : Seated r slots) (h : slots.mapM (Slot.refit shape r) = .ok fitted) :
    Seated r fitted := by
  have same : slots.length = fitted.length := (mapM_eq_ok h).length_eq
  refine ⟨?_, same ▸ seated.count⟩
  rw [stops_of_refit h, ← same]
  exact seated.stops

theorem Seated.stop_lt {r : Range} {slots : List Slot} (seated : Seated r slots) {s : Slot}
    (h : s ∈ slots) : r.low.stop < s.stop ∧ s.stop < r.high.stop := by
  have member : s.stop ∈ slots.map (·.stop) := List.mem_map_of_mem h
  rw [seated.stops, List.mem_range'_1] at member
  have count := seated.count
  omega

/-- The stops on both sides of a chosen one. -/
theorem Seated.split {r : Range} {before after : List Slot} {s : Slot}
    (seated : Seated r (before ++ s :: after)) :
    Seated ⟨r.low, s.anchor⟩ before ∧ Seated ⟨s.anchor, r.high⟩ after := by
  have stops := seated.stops
  have count := seated.count
  rw [List.length_append, List.length_cons] at stops count
  rw [List.map_append, List.map_cons, ← List.range'_append_1, List.range'_succ] at stops
  rcases List.append_inj stops (by simp) with ⟨earlier, others⟩
  rcases List.cons.inj others with ⟨here, later⟩
  refine ⟨⟨earlier, ?_⟩, ⟨?_, ?_⟩⟩
  · dsimp only [Slot.anchor]
    omega
  · dsimp only [Slot.anchor]
    rw [later, here]
  · dsimp only [Slot.anchor]
    omega

/-- In a range with room the window of a stop has as many points as the range is wide. -/
theorem Roomy.length_window {shape : Polyline} {r : Range} (roomy : Roomy shape r) {stop : Nat}
    (inside : r.low.stop < stop ∧ stop < r.high.stop) :
    ((r.window shape stop).length : Int) = r.width := by
  have low := roomy.low_nonneg
  have high := roomy.high_lt
  have spread := roomy.spread
  have first : 0 ≤ r.windowStart stop := by
    unfold Range.windowStart
    omega
  have width : 0 ≤ r.width := by
    unfold Range.width
    omega
  have last : r.windowStart stop + r.width ≤ shape.length := by
    unfold Range.windowStart Range.width
    omega
  rw [Range.window, Span.length_slice_of_le shape _ _ first (by omega) last]
  omega

/-- After refitting every stop of a range with room is inside its window. -/
theorem Roomy.admits_of_refit {shape : Polyline} {r : Range} (roomy : Roomy shape r) {s t : Slot}
    (inside : r.low.stop < s.stop ∧ s.stop < r.high.stop) (h : s.refit shape r = .ok t) :
    r.admits t.stop t.fit.offset = true := by
  rcases Slot.refit_eq_ok h with ⟨stop, -, ⟨kept, admitted⟩ | ⟨fit, closest, found⟩⟩
  · rw [stop, kept]
    exact admitted
  · have range := closestPoint_range closest
    have points := roomy.length_window inside
    have spread := roomy.spread
    have wide : 1 ≤ r.width := by
      unfold Range.width
      omega
    rw [stop, found, Range.admits, Bool.and_eq_true, decide_eq_true_iff, decide_eq_true_iff]
    dsimp only
    omega

/-- A stop inside its window leaves room on both sides. -/
theorem Roomy.split {shape : Polyline} {r : Range} (roomy : Roomy shape r) {s : Slot}
    (inside : r.low.stop < s.stop ∧ s.stop < r.high.stop)
    (admitted : r.admits s.stop s.fit.offset = true) :
    Roomy shape ⟨r.low, s.anchor⟩ ∧ Roomy shape ⟨s.anchor, r.high⟩ := by
  have low := roomy.low_nonneg
  have high := roomy.high_lt
  have spread := roomy.spread
  rw [Range.admits, Bool.and_eq_true, decide_eq_true_iff, decide_eq_true_iff, Range.windowStart,
    Range.width] at admitted
  constructor
  · constructor <;> dsimp only [Slot.anchor] <;> omega
  · constructor <;> dsimp only [Slot.anchor] <;> omega

/-- The offsets ascend strictly from one anchor to the other. -/
theorem Divides.ascends {shape : Polyline} {r : Range} {slots : List Slot} {d : Division}
    (h : Divides shape r slots d) (seated : Seated r slots) (roomy : Roomy shape r) :
    (r.low.offset :: (d.offsets ++ [r.high.offset])).IsChain (· < ·) := by
  induction h with
  | leaf r =>
    have spread := roomy.spread
    have count := seated.count
    simp only [List.length_nil] at count
    refine List.isChain_pair.mpr ?_
    omega
  | @node r slots fitted p left right refitted picked before after ihl ihr =>
    have seated := seated.of_refit refitted
    have here : p.best ∈ fitted := by
      rw [pick?_eq_some picked]
      exact List.mem_append_right _ List.mem_cons_self
    have inside := seated.stop_lt here
    have admitted : r.admits p.best.stop p.best.fit.offset = true := by
      rcases mem_of_mapM refitted here with ⟨s, -, refit⟩
      have stop := (Slot.refit_eq_ok refit).1
      exact roomy.admits_of_refit (stop ▸ inside) refit
    rw [pick?_eq_some picked] at seated
    rcases seated.split with ⟨seatedBefore, seatedAfter⟩
    rcases roomy.split inside admitted with ⟨roomyBefore, roomyAfter⟩
    have lower := ihl seatedBefore roomyBefore
    have upper := ihr seatedAfter roomyAfter
    -- the chosen offset ends the lower chain and begins the upper one
    have joined : ((r.low.offset :: left.offsets) ++
        p.best.fit.offset :: (right.offsets ++ [r.high.offset])).IsChain (· < ·) :=
      List.isChain_split.mpr ⟨lower, upper⟩
    simpa [Division.offsets, Division.chosen] using joined

/-! ## Faults -/

theorem slice_infix {α : Type} (xs : List α) (low high : Int) : Span.slice xs low high <:+: xs :=
  (List.drop_suffix _ _).isInfix.trans (List.take_prefix _ _).isInfix

theorem places_of_refit {shape : Polyline} {r : Range} {slots fitted : List Slot}
    (h : slots.mapM (Slot.refit shape r) = .ok fitted) :
    fitted.map (·.place) = slots.map (·.place) :=
  map_eq_of_mapM (fun _ _ refit => (Slot.refit_eq_ok refit).2.1) h

theorem Slot.refit_eq_error {shape : Polyline} {r : Range} {s : Slot} {fault : Fault}
    (h : s.refit shape r = .error fault) :
    closestPoint s.place (r.window shape s.stop) = .error fault := by
  unfold refit at h
  split at h
  · cases h
  · rcases bind_eq_error.mp h with searched | ⟨found, -, h⟩
    · rcases bind_eq_error.mp searched with closest | ⟨fit, -, h⟩
      · exact closest
      · cases h
    · cases h

/-- A division fails only with a fault of a projection onto a part of the shape. -/
theorem divide_error {shape : Polyline} {fuel : Nat} {r : Range} {slots : List Slot}
    {fault : Fault} (h : divide shape fuel r slots = .error fault) :
    ∃ p ∈ slots.map (·.place), ∃ window, window <:+: shape ∧
      closestPoint p window = .error fault := by
  induction fuel generalizing r slots with
  | zero => cases h
  | succ fuel ih =>
    unfold divide at h
    rcases bind_eq_error.mp h with failed | ⟨fitted, refitted, h⟩
    · rcases mapM_eq_error failed with ⟨s, member, failed⟩
      exact ⟨s.place, List.mem_map_of_mem member, r.window shape s.stop, slice_infix _ _ _,
        Slot.refit_eq_error failed⟩
    · cases picked : pick? fitted with
      | none =>
        rw [picked] at h
        cases h
      | some p =>
        rw [picked] at h
        have parts : slots.map (·.place) =
            p.before.map (·.place) ++ p.best.place :: p.after.map (·.place) := by
          rw [← places_of_refit refitted, pick?_eq_some picked, List.map_append, List.map_cons]
        rcases bind_eq_error.mp h with failed | ⟨left, -, h⟩
        · rcases ih failed with ⟨place, member, rest⟩
          exact ⟨place, parts ▸ List.mem_append_left _ member, rest⟩
        · rcases bind_eq_error.mp h with failed | ⟨right, -, h⟩
          · rcases ih failed with ⟨place, member, rest⟩
            exact ⟨place, parts ▸ List.mem_append_right _ (List.mem_cons_of_mem _ member), rest⟩
          · cases h

/-! ## All stops -/

/-- Offsets of stops on a shape, strictly ascending from its first point to its last one. -/
structure Spans (stops points : Nat) (offsets : List Int) : Prop where
  length_eq : offsets.length = stops
  head?_eq : offsets.head? = some 0
  getLast?_eq : offsets.getLast? = some ((points : Int) - 1)
  ascending : offsets.Pairwise (· < ·)

theorem places_slotsFrom (stop : Nat) (places : List Point) :
    (slotsFrom stop places).map (·.place) = places := by
  induction places generalizing stop with
  | nil => rfl
  | cons p rest ih => rw [slotsFrom, List.map_cons, ih]

theorem length_slotsFrom (stop : Nat) (places : List Point) :
    (slotsFrom stop places).length = places.length := by
  rw [← List.length_map (·.place), places_slotsFrom]

theorem stops_slotsFrom (stop : Nat) (places : List Point) :
    (slotsFrom stop places).map (·.stop) = List.range' stop places.length := by
  induction places generalizing stop with
  | nil => rfl
  | cons p rest ih => rw [slotsFrom, List.map_cons, ih, List.length_cons, List.range'_succ]

/-- A division of all stops of a shape with a point for each of them. -/
theorem division_eq_ok {shape : Polyline} {stops : List Point} {d : Division}
    (two : 2 ≤ stops.length) (room : stops.length ≤ shape.length)
    (h : division shape stops = .ok d) :
    d.offsets.length + 2 = stops.length ∧
      (0 :: (d.offsets ++ [lastOffset shape])).Pairwise (· < ·) := by
  have count : stops.tail.dropLast.length + 2 = stops.length := by
    rw [List.length_dropLast, List.length_tail]
    omega
  have divides := divides_of_divide (Nat.le_refl _) h
  have seated : Seated ⟨⟨0, 0⟩, ⟨stops.length - 1, lastOffset shape⟩⟩
      (slotsFrom 1 stops.tail.dropLast) := by
    refine ⟨?_, ?_⟩
    · rw [stops_slotsFrom, length_slotsFrom]
    · dsimp only
      rw [length_slotsFrom]
      omega
  have roomy : Roomy shape ⟨⟨0, 0⟩, ⟨stops.length - 1, lastOffset shape⟩⟩ := by
    constructor <;> dsimp only [lastOffset] <;> omega
  refine ⟨?_, (divides.ascends seated roomy).pairwise⟩
  have stopsOf := congrArg List.length divides.stops
  rw [List.length_map, List.length_map, length_slotsFrom] at stopsOf
  rw [Division.offsets, List.length_map, stopsOf, count]

theorem divisionOffsets_eq {shape : Polyline} {stops : List Point} (two : 2 ≤ stops.length) :
    divisionOffsets shape stops =
      (division shape stops >>= fun d => .ok (0 :: (d.offsets ++ [lastOffset shape]))) := by
  match stops, two with
  | first :: second :: rest, _ => rfl

/-- At least two stops on a shape with a point for each of them have offsets that ascend strictly
from the first point to the last one, whatever the distances are; or else a projection of an inner
stop onto a part of the shape fails, and the search fails with it. -/
theorem placedOffsets_division (shape : Polyline) (stops : List Point) (two : 2 ≤ stops.length)
    (room : stops.length ≤ shape.length) :
    (∃ offsets, placedOffsets .division shape stops = .ok (some offsets) ∧
      Spans stops.length shape.length offsets) ∨
    ∃ fault, placedOffsets .division shape stops = .error fault ∧
      ∃ p ∈ stops.tail.dropLast, ∃ window, window <:+: shape ∧
        closestPoint p window = .error fault := by
  have enough : ¬(stops.length < 2 ∨ shape.length < stops.length) := by omega
  rw [placedOffsets, if_neg enough, Strategy.offsets, divisionOffsets_eq two]
  cases divided : division shape stops with
  | error fault =>
    rcases divide_error divided with ⟨p, member, rest⟩
    rw [places_slotsFrom] at member
    exact .inr ⟨fault, rfl, p, member, rest⟩
  | ok d =>
    rcases division_eq_ok two room divided with ⟨count, ascending⟩
    refine .inl ⟨_, rfl, ?_, rfl, ?_, ascending⟩
    · rw [List.length_cons, List.length_append, List.length_singleton]
      omega
    · rw [← List.cons_append, List.getLast?_concat]
      rfl

/-- A shape that comes back to its first point. -/
def crossing : Polyline := [⟨0, 0⟩, ⟨0, 0.001⟩, ⟨0.001, 0.001⟩, ⟨0, 0⟩, ⟨0, -0.001⟩]

/-- Stops of which two are at one place and one is at no place. -/
def crossingStops : List Point := [⟨0, 0⟩, ⟨0, 0⟩, ⟨Number.notANumber, 0⟩, ⟨0, -0.001⟩]

theorem placedOffsets_crossing :
    2 ≤ crossingStops.length ∧ crossingStops.length ≤ crossing.length ∧
      ∃ offsets, placedOffsets .division crossing crossingStops = .ok (some offsets) ∧
        Spans crossingStops.length crossing.length offsets := by
  refine ⟨by decide, by decide, ?_⟩
  have calm : (placedOffsets .division crossing crossingStops).toOption.isSome = true := by
    decide +kernel
  rcases placedOffsets_division crossing crossingStops (by decide) (by decide) with
    found | ⟨fault, failed, -⟩
  · exact found
  · rw [failed] at calm
    cases calm

end StopAlign
