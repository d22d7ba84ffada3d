import StopAlign.Proofs.Align.Strategy

/-!
# Greedy — the offsets that the search from left to right yields

- `length_greedyWindow`  : the window of a stop has one point more than there is slack
- `greedyInner_ascends`  : the offsets ascend from the start of the search to the last point
- `placedOffsets_spans`  : offsets by place ascend from the first point to the last one
- `openPoints`           : the points that are open to a stop when the one before it has its offset
- `placedOffsets_greedy` : each inner stop takes the closest one of the points open to it

A match uses up slack, and moves the start by one point more: start, slack and the number of later
stops add up to the last point throughout.
-/

namespace StopAlign

open Outcome Polyline

theorem length_greedyWindow (shape : Polyline) {start slack : Int} (first : 0 ≤ start)
    (wide : 0 ≤ slack) (inside : start + slack < shape.length) :
    ((greedyWindow shape start slack).length : Int) = slack + 1 := by
  unfold greedyWindow
  rw [Span.length_slice_of_le shape _ _ first (by omega) (by omega)]
  omega

/-- The offsets ascend strictly from any point before the start to the last point. -/
theorem greedyInner_ascends {shape : Polyline} {start slack : Int} {stops : List Point}
    {offsets : List Int} (h : greedyInner shape start slack stops = .ok offsets)
    (first : 0 ≤ start) (wide : 0 ≤ slack)
    (room : start + slack + stops.length = lastOffset shape) :
    offsets.length = stops.length ∧
      ∀ low < start, (low :: (offsets ++ [lastOffset shape])).IsChain (· < ·) := by
  induction stops generalizing start slack offsets with
  | nil =>
    cases h
    refine ⟨rfl, ?_⟩
    intro low before
    simp only [List.length_nil] at room
    exact List.isChain_pair.mpr (by omega)
  | cons p rest ih =>
    rcases bind_eq_ok.mp h with ⟨fit, closest, h⟩
    rcases bind_eq_ok.mp h with ⟨later, searched, last⟩
    cases last
    simp only [List.length_cons] at room
    have points : (shape.length : Int) - 1 = lastOffset shape := rfl
    have window := length_greedyWindow shape first wide (by omega)
    have range := closestPoint_range closest
    have next := ih searched (by omega) (by omega) (by omega)
    refine ⟨?_, ?_⟩
    · rw [List.length_cons, next.1, List.length_cons]
    · intro low before
      exact List.isChain_cons_cons.mpr ⟨by omega, next.2 (start + fit.offset) (by omega)⟩

theorem greedyOffsets_spans {shape : Polyline} {stops : List Point} {offsets : List Int}
    (two : 2 ≤ stops.length) (room : stops.length ≤ shape.length)
    (h : greedyOffsets shape stops = .ok offsets) : Spans stops.length shape.length offsets := by
  match stops, two, h with
  | first :: second :: rest, _, h =>
    rcases bind_eq_ok.mp h with ⟨inner, searched, last⟩
    cases last
    have count : (second :: rest).dropLast.length = rest.length := by simp
    simp only [List.length_cons] at room searched
    have found := greedyInner_ascends searched (by omega) (by omega) (by
      rw [count, lastOffset]
      omega)
    refine ⟨?_, rfl, ?_, (found.2 0 (by omega)).pairwise⟩
    · simp [found.1]
    · rw [← List.cons_append, List.getLast?_concat]
      rfl

theorem divisionOffsets_spans {shape : Polyline} {stops : List Point} {offsets : List Int}
    (two : 2 ≤ stops.length) (room : stops.length ≤ shape.length)
    (h : divisionOffsets shape stops = .ok offsets) : Spans stops.length shape.length offsets := by
  rw [divisionOffsets_eq two] at h
  rcases bind_eq_ok.mp h with ⟨d, divided, last⟩
  cases last
  rcases division_eq_ok two room divided with ⟨count, ascending⟩
  refine ⟨?_, rfl, ?_, ascending⟩
  · simp only [List.length_cons, List.length_append, List.length_nil]
    omega
  · rw [← List.cons_append, List.getLast?_concat]
    rfl

/-- Offsets by place belong to at least two stops and span the whole shape. -/
theorem placedOffsets_spans {strategy : Strategy} {shape : Polyline} {stops : List Point}
    {offsets : List Int} (h : placedOffsets strategy shape stops = .ok (some offsets)) :
    Spans stops.length shape.length offsets := by
  unfold placedOffsets at h
  split at h
  · cases h
  · rename_i enough
    cases found : strategy.offsets shape stops with
    | error fault =>
      rw [found] at h
      cases h
    | ok all =>
      rw [found] at h
      cases h
      cases strategy with
      | greedy => exact greedyOffsets_spans (by omega) (by omega) found
      | division => exact divisionOffsets_spans (by omega) (by omega) found

/-- Offsets that span a shape are offsets of its points. -/
theorem Spans.bounds {stops points : Nat} {offsets : List Int} (spans : Spans stops points offsets)
    {o : Int} (member : o ∈ offsets) : 0 ≤ o ∧ o < points := by
  have ascending := spans.ascending
  refine ⟨?_, ?_⟩
  · rcases List.head?_eq_some_iff.mp spans.head?_eq with ⟨rest, parts⟩
    rw [parts] at member ascending
    rcases List.mem_cons.mp member with here | later
    · exact here ▸ Int.le_refl 0
    · exact Int.le_of_lt ((List.pairwise_cons.mp ascending).1 o later)
  · rcases List.getLast?_eq_some_iff.mp spans.getLast?_eq with ⟨front, parts⟩
    rw [parts] at member ascending
    rcases List.mem_append.mp member with before | last
    · have less := (List.pairwise_append.mp ascending).2.2 o before _ (List.mem_singleton_self _)
      omega
    · have same := List.mem_singleton.mp last
      omega

/-! ## Each stop and the one before it -/

/-- The match of a stop is searched behind the match before it. The windows of consecutive stops end
one point after the other. -/
theorem greedyInner_window {shape : Polyline} {start slack : Int} {stops : List Point}
    {offsets : List Int} (h : greedyInner shape start slack stops = .ok offsets)
    (first : 0 ≤ start) (wide : 0 ≤ slack)
    (room : start + slack + stops.length = lastOffset shape) {k : Nat} {p : Point}
    (here : stops[k]? = some p) :
    ∃ previous fit, ((start - 1) :: offsets)[k]? = some previous ∧
      previous < start + slack + k ∧
      closestPoint p (Span.slice shape (previous + 1) (start + slack + k + 1)) = .ok fit ∧
      offsets[k]? = some (previous + 1 + fit.offset) := by
  induction stops generalizing start slack offsets k with
  | nil => cases here
  | cons q rest ih =>
    rcases bind_eq_ok.mp h with ⟨fit, closest, h⟩
    rcases bind_eq_ok.mp h with ⟨later, searched, last⟩
    cases last
    cases k with
    | zero =>
      cases here
      refine ⟨start - 1, fit, rfl, by omega, ?_, ?_⟩
      · rw [Int.sub_add_cancel, Int.natCast_zero, Int.add_zero]
        exact closest
      · rw [Int.sub_add_cancel]
        rfl
    | succ k =>
      simp only [List.length_cons] at room
      have points : (shape.length : Int) - 1 = lastOffset shape := rfl
      have window := length_greedyWindow shape first wide (by omega)
      have range := closestPoint_range closest
      rcases ih searched (by omega) (by omega) (by omega) here with
        ⟨previous, next, before, inside, found, offset⟩
      -- what the match uses up of the slack is what the start of the next window gains
      have ends : start + fit.offset + 1 + (slack - fit.offset) + k =
          start + slack + ((k + 1 : Nat) : Int) := by omega
      rw [Int.add_sub_cancel] at before
      rw [ends] at inside found
      exact ⟨previous, next, before, inside, found, offset⟩

/-- The points open to stop `i` of `n` stops when the stop before it has the offset `previous`:
those behind this offset that leave one point for each stop behind stop `i`. On a shape of `m`
points they are the points `previous + 1` to `m - n + i`. -/
def openPoints (shape : Polyline) (n i previous : Nat) : Polyline :=
  (shape.take (shape.length - n + i + 1)).drop (previous + 1)

/-- The window of a stop, told by how far its end has come, has the points that are open to it. -/
theorem slice_eq_openPoints (shape : Polyline) {n k previous : Nat} (room : n ≤ shape.length)
    (inner : k + 1 < n) (before : previous < shape.length - n + k + 2) :
    Span.slice shape ((previous : Int) + 1) (1 + ((shape.length : Int) - n) + k + 1) =
      openPoints shape n (k + 1) previous := by
  have top : 1 + ((shape.length : Int) - n) + k + 1 =
      ((shape.length - n + (k + 1) + 1 : Nat) : Int) := by omega
  rw [top, ← Int.natCast_add_one]
  exact Span.slice_natCast shape (by omega) (by omega)

theorem openPoints_ne_nil (shape : Polyline) {n i previous : Nat} (room : n ≤ shape.length)
    (inner : i < n) (before : previous < shape.length - n + i) :
    openPoints shape n i previous ≠ [] := by
  rw [openPoints, ← List.length_pos_iff, List.length_drop, List.length_take]
  omega

theorem greedyOffsets_open {shape : Polyline} {stops : List Point} {offsets : List Int}
    (room : stops.length ≤ shape.length) (h : greedyOffsets shape stops = .ok offsets) {i : Nat}
    {p : Point} (inner : 0 < i ∧ i + 1 < stops.length) (here : stops[i]? = some p) :
    ∃ (previous : Nat) (fit : Fit), offsets[i - 1]? = some (previous : Int) ∧
      openPoints shape stops.length i previous ≠ [] ∧
      closestPoint p (openPoints shape stops.length i previous) = .ok fit ∧
      offsets[i]? = some (previous + 1 + fit.offset) := by
  have spans := greedyOffsets_spans (by omega) room h
  match stops, h with
  | first :: second :: rest, h =>
    rcases bind_eq_ok.mp h with ⟨found, searched, last⟩
    cases last
    have count : (second :: rest).dropLast.length = rest.length := by simp
    rcases Nat.exists_eq_add_one.mpr inner.1 with ⟨k, rfl⟩
    simp only [List.length_cons] at room searched inner ⊢
    -- the loop runs over the inner stops alone, so a stop stands there one place earlier
    have among : (second :: rest).dropLast[k]? = some p := by
      rw [List.getElem?_dropLast, if_pos (by simp only [List.length_cons]; omega)]
      exact here
    rcases greedyInner_window searched (by omega) (by omega)
      (by rw [count, lastOffset]; omega) among with ⟨previous, fit, before, inside, closest, offset⟩
    have within : k < found.length + 1 := by
      simpa using (List.getElem?_eq_some_iff.mp before).1
    have member : (0 :: (found ++ [lastOffset shape]))[k]? = some previous := by
      rw [← List.cons_append, List.getElem?_append_left (by simpa using within)]
      exact before
    -- an offset of the whole list is an index, so the window can be told without integers
    have positive := (spans.bounds (List.mem_of_getElem? member)).1
    rcases Int.eq_ofNat_of_zero_le positive with ⟨low, rfl⟩
    have slice := slice_eq_openPoints shape room (show k + 1 < rest.length + 1 + 1 by omega)
      (show low < _ by omega)
    refine ⟨low, fit, member, ?_, slice ▸ closest, ?_⟩
    · exact openPoints_ne_nil shape room (by omega) (by omega)
    · have bound := (List.getElem?_eq_some_iff.mp offset).1
      rw [List.getElem?_cons_succ, List.getElem?_append_left bound]
      exact offset

/-- From left to right, at least two stops on a shape with a point for each of them have offsets
that ascend strictly from the first point to the last one, and each inner stop has the closest one
of the points that are open to it; or else the search fails at an inner stop that is immeasurable on
some part of the shape. -/
theorem placedOffsets_greedy (shape : Polyline) (stops : List Point) (two : 2 ≤ stops.length)
    (room : stops.length ≤ shape.length) :
    (∃ offsets, placedOffsets .greedy shape stops = .ok (some offsets) ∧
      Spans stops.length shape.length offsets ∧
      ∀ i p, 0 < i → i + 1 < stops.length → stops[i]? = some p →
        ∃ (previous : Nat) (fit : Fit), offsets[i - 1]? = some (previous : Int) ∧
          openPoints shape stops.length i previous ≠ [] ∧
          closestPoint p (openPoints shape stops.length i previous) = .ok fit ∧
          offsets[i]? = some (previous + 1 + fit.offset)) ∨
    placedOffsets .greedy shape stops = .error .mathDomain ∧
      ∃ p ∈ stops.tail.dropLast, Immeasurable shape p := by
  cases placed : placedOffsets .greedy shape stops with
  | error fault =>
    rcases placedOffsets_error placed with ⟨rfl, lost⟩
    exact .inr ⟨rfl, lost⟩
  | ok found =>
    have enough : ¬(stops.length < 2 ∨ shape.length < stops.length) := by omega
    rw [placedOffsets, if_neg enough, Strategy.offsets] at placed
    cases searched : greedyOffsets shape stops with
    | error fault =>
      rw [searched] at placed
      cases placed
    | ok offsets =>
      rw [searched] at placed
      cases placed
      refine .inl ⟨offsets, rfl, greedyOffsets_spans two room searched, ?_⟩
      intro i p behind ahead here
      exact greedyOffsets_open room searched ⟨behind, ahead⟩ here

/-- A shape that comes back to its first point and goes on. -/
def loop : Polyline :=
  [⟨0, 0⟩, ⟨0, 0.001⟩, ⟨0.001, 0.001⟩, ⟨0.001, 0⟩, ⟨0, 0⟩, ⟨0, -0.001⟩]

/-- Stops with one point to spare, which the first inner one uses up. -/
def loopStops : List Point := [⟨0, 0⟩, ⟨0.001, 0.0008⟩, ⟨0, 0⟩, ⟨0, 0⟩, ⟨0, -0.001⟩]

theorem placedOffsets_loop :
    2 ≤ loopStops.length ∧ loopStops.length ≤ loop.length ∧
      placedOffsets .greedy loop loopStops = .ok (some [0, 2, 3, 4, 5]) ∧
      Spans 5 6 [0, 2, 3, 4, 5] ∧
      ∃ fit, closestPoint ⟨0, 0⟩ (openPoints loop 5 2 2) = .ok fit ∧ fit.offset = 0 := by
  have offsets : (placedOffsets .greedy loop loopStops).toOption =
      some (some [0, 2, 3, 4, 5]) := by decide +kernel
  rcases placedOffsets_greedy loop loopStops (by decide) (by decide) with
    ⟨found, placed, spans, each⟩ | ⟨failed, -⟩
  · rw [placed] at offsets
    cases offsets
    rcases each 2 ⟨0, 0⟩ (by decide) (by decide) rfl with ⟨previous, fit, before, -, closest, here⟩
    have low : (2 : Int) = previous := Option.some.inj before
    have third : (3 : Int) = previous + 1 + fit.offset := Option.some.inj here
    have same : previous = 2 := by omega
    subst same
    exact ⟨by decide, by decide, placed, spans, fit, closest, by omega⟩
  · rw [failed] at offsets
    cases offsets

end StopAlign
