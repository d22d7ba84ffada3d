import Mathlib.Data.List.Chain
import Mathlib.Data.List.Count
import Mathlib.Data.List.MinMax
import StopAlign.Align.Travelled
import StopAlign.Proofs.Number.Order

/-!
# Travelled — where offsets by distance lie

- `search_bounds`, `lowerBound_bounds` : a search stays between its bounds, whatever it compares
- `offsetsFrom_chain`, `travelledOffsets_bounds` : they never go back, and none is beyond the gaps
- `search_eq`, `lowerBound_eq` : over sorted gaps a search counts the gaps below, from its start on
- `travelledOffsets_of_greatest` : over sorted gaps an offset counts the gaps below the greatest
  distance so far
- `travelledOffsets_doubles` : both for doubles

The bounds ask nothing of the distances: they may be unsorted, infinite or no numbers. The count
is a fact of linear orders. Doubles have none, but doubles that are numbers compare as their
places do, and `travelledOffsets_map` takes the count over.
-/

namespace StopAlign

theorem search_bounds (below : Nat → Bool) (fuel : Nat) {low high : Nat} (h : low ≤ high) :
    low ≤ search below fuel low high ∧ search below fuel low high ≤ high := by
  induction fuel generalizing low high with
  | zero => exact ⟨Nat.le_refl low, h⟩
  | succ fuel ih =>
    unfold search
    by_cases more : low < high
    · rw [if_pos more]
      dsimp only
      have middle : low ≤ (low + high) / 2 ∧ (low + high) / 2 < high := by omega
      by_cases here : below ((low + high) / 2) = true
      · have upper := @ih ((low + high) / 2 + 1) high (by omega)
        rw [if_pos here]
        omega
      · have lower := @ih low ((low + high) / 2) middle.1
        rw [if_neg here]
        omega
    · rw [if_neg more]
      exact ⟨Nat.le_refl low, h⟩

/-- A search finds the position up to which all positions are below. -/
theorem search_eq {below : Nat → Bool} {fuel low high place : Nat} (enough : high ≤ low + fuel)
    (inside : low ≤ place ∧ place ≤ high)
    (parts : ∀ i, low ≤ i → i < high → (below i = true ↔ i < place)) :
    search below fuel low high = place := by
  induction fuel generalizing low high with
  | zero =>
    unfold search
    omega
  | succ fuel ih =>
    unfold search
    by_cases more : low < high
    · rw [if_pos more]
      dsimp only
      have middle : low ≤ (low + high) / 2 ∧ (low + high) / 2 < high := by omega
      have cut := parts ((low + high) / 2) middle.1 middle.2
      by_cases here : below ((low + high) / 2) = true
      · rw [if_pos here]
        have ahead := cut.mp here
        exact ih (by omega) (by omega) fun i lower upper => parts i (by omega) upper
      · rw [if_neg here]
        have behind : ¬(low + high) / 2 < place := fun before => here (cut.mpr before)
        exact ih (by omega) (by omega) fun i lower upper => parts i lower (by omega)
    · rw [if_neg more]
      omega

section Offsets

variable {α : Type} [LT α] [DecidableLT α]

theorem lowerBound_bounds (gaps : List α) (x : α) {low : Nat} (h : low ≤ gaps.length) :
    low ≤ lowerBound gaps x low ∧ lowerBound gaps x low ≤ gaps.length :=
  search_bounds _ _ h

/-- From the position of the search on, the offsets never go back and stay within the gaps. -/
theorem offsetsFrom_chain (gaps : List α) {position : Nat} (h : position ≤ gaps.length)
    (stops : List α) :
    (position :: offsetsFrom gaps position stops).IsChain (· ≤ ·) ∧
      ∀ o ∈ offsetsFrom gaps position stops, o ≤ gaps.length := by
  induction stops generalizing position with
  | nil => exact ⟨List.isChain_singleton _, fun o member => nomatch member⟩
  | cons x rest ih =>
    rcases lowerBound_bounds gaps x h with ⟨ahead, within⟩
    rcases ih within with ⟨chain, bounds⟩
    refine ⟨List.isChain_cons_cons.mpr ⟨ahead, chain⟩, ?_⟩
    intro o member
    rcases List.mem_cons.mp member with here | later
    · exact here ▸ within
    · exact bounds o later

/-- One offset for each stop, never going back, none beyond the gaps. -/
theorem travelledOffsets_bounds (stops gaps : List α) :
    (travelledOffsets stops gaps).length = stops.length ∧
      (travelledOffsets stops gaps).Pairwise (· ≤ ·) ∧
      ∀ o ∈ travelledOffsets stops gaps, o ≤ gaps.length := by
  rcases offsetsFrom_chain gaps (Nat.zero_le _) stops with ⟨chain, bounds⟩
  exact ⟨length_offsetsFrom gaps 0 stops, (List.pairwise_cons.mp chain.pairwise).2, bounds⟩

end Offsets

/-- A gap table that is not empty has a gap for each point but the first one. -/
theorem length_gapTable {α : Type} [Add α] [Div α] [OfNat α 0] [OfNat α 2] [LT α] [DecidableLT α]
    {ds : List α} (h : gapTable ds ≠ []) : (gapTable ds).length + 1 = ds.length := by
  unfold gapTable at h ⊢
  dsimp only at h ⊢
  split at h
  · rename_i positive
    rw [if_pos positive, length_midpoints]
    have some : (midpoints ds).length ≠ 0 := fun none => h (List.length_eq_zero_iff.mp none)
    rw [length_midpoints] at some
    omega
  · contradiction

/-- A member of a list that no other one exceeds. -/
structure Greatest {α : Type} [LE α] (xs : List α) (top : α) : Prop where
  among : top ∈ xs
  bound : ∀ x ∈ xs, x ≤ top

/-- The first position whose gap is not below a distance, or the number of gaps if all are. -/
structure FirstNotBelow {α : Type} [LT α] (gaps : List α) (x : α) (position : Nat) : Prop where
  inside : position ≤ gaps.length
  before : ∀ gap ∈ gaps.take position, gap < x
  here : ∀ gap, gaps[position]? = some gap → ¬gap < x

/-- In a list that ascends a member is the greatest one up to its place. -/
theorem greatest_take {α : Type} [LE α] {xs : List α} (ascending : xs.Pairwise fun a b => a ≤ b)
    {k : Nat} {x : α} (here : xs[k]? = some x) (self : x ≤ x) : Greatest (xs.take (k + 1)) x := by
  rcases List.getElem?_eq_some_iff.mp here with ⟨within, rfl⟩
  rw [List.take_succ_eq_append_getElem within]
  refine ⟨List.mem_append_right _ List.mem_cons_self, fun y member => ?_⟩
  rcases List.mem_append.mp member with earlier | last
  · rcases List.mem_take_iff_getElem.mp earlier with ⟨i, bound, rfl⟩
    exact List.pairwise_iff_getElem.mp ascending i k _ within (by omega)
  · exact List.mem_singleton.mp last ▸ self

theorem firstNotBelow_countP {α : Type} [LT α] [DecidableLT α] {gaps : List α} {x : α}
    (first : ∀ (i : Nat) gap, gaps[i]? = some gap → (gap < x ↔ i < gaps.countP fun g => g < x)) :
    FirstNotBelow gaps x (gaps.countP fun g => g < x) := by
  refine ⟨List.countP_le_length, fun gap member => ?_, fun gap here lower => ?_⟩
  · rcases List.mem_take_iff_getElem.mp member with ⟨i, bound, rfl⟩
    exact (first i _ (List.getElem?_eq_getElem _)).mpr (by omega)
  · exact Nat.lt_irrefl _ ((first _ gap here).mp lower)

section Sorted

variable {α : Type} [LinearOrder α] {gaps : List α}

/-- The gaps below a distance are the first ones. -/
theorem lt_iff_lt_countP (sorted : gaps.Pairwise (· ≤ ·)) (x : α) {i : Nat} {gap : α}
    (here : gaps[i]? = some gap) : gap < x ↔ i < gaps.countP fun g => g < x := by
  induction gaps generalizing i with
  | nil => cases here
  | cons g rest ih =>
    rcases List.pairwise_cons.mp sorted with ⟨least, later⟩
    rw [List.countP_cons]
    by_cases below : g < x
    · rw [if_pos (decide_eq_true below)]
      cases i with
      | zero =>
        cases here
        exact iff_of_true below (Nat.succ_pos _)
      | succ i => exact (ih later here).trans Nat.succ_lt_succ_iff.symm
    · -- the first gap is not below, so none is
      have none : rest.countP (fun g => g < x) = 0 := by
        refine List.countP_eq_zero.mpr fun other member => ?_
        rw [decide_eq_true_iff]
        exact fun lower => below (lt_of_le_of_lt (least other member) lower)
      rw [none, if_neg (by simpa using below)]
      refine iff_of_false ?_ (Nat.not_lt_zero i)
      cases i with
      | zero =>
        cases here
        exact below
      | succ i =>
        exact fun lower => below (lt_of_le_of_lt (least gap (List.mem_of_getElem? here)) lower)

theorem lowerBound_eq (sorted : gaps.Pairwise (· ≤ ·)) (x : α) {low : Nat}
    (inside : low ≤ gaps.length) :
    lowerBound gaps x low = max low (gaps.countP fun gap => gap < x) := by
  have most : (gaps.countP fun gap => gap < x) ≤ gaps.length := List.countP_le_length
  refine search_eq (Nat.le_add_left _ _) ⟨Nat.le_max_left _ _, Nat.max_le.mpr ⟨inside, most⟩⟩ ?_
  intro i lower upper
  have here : gaps[i]? = some gaps[i] := List.getElem?_eq_getElem upper
  rw [here, Option.any_some, decide_eq_true_iff, lt_iff_lt_countP sorted x here]
  omega

/-- The offset of a stop is the least position that is not before the start of the search and not
before the place of any stop up to this one. -/
theorem offsetsFrom_le_iff (sorted : gaps.Pairwise (· ≤ ·)) {position : Nat}
    (inside : position ≤ gaps.length) {stops : List α} {k o : Nat}
    (here : (offsetsFrom gaps position stops)[k]? = some o) (j : Nat) :
    o ≤ j ↔ position ≤ j ∧ ∀ x ∈ stops.take (k + 1), (gaps.countP fun gap => gap < x) ≤ j := by
  induction stops generalizing position k with
  | nil => cases here
  | cons x rest ih =>
    have next := lowerBound_eq sorted x inside
    cases k with
    | zero =>
      cases here
      rw [next, Nat.max_le]
      simp
    | succ k =>
      have within := (lowerBound_bounds gaps x inside).2
      rw [ih within here, next, Nat.max_le, List.take_succ_cons, List.forall_mem_cons, and_assoc]

/-- The offset of a stop is the number of gaps below the greatest distance up to this stop. -/
theorem travelledOffsets_of_greatest (sorted : gaps.Pairwise (· ≤ ·)) {stops : List α} {k : Nat}
    (within : k < stops.length) {top : α} (greatest : Greatest (stops.take (k + 1)) top) :
    (travelledOffsets stops gaps)[k]? = some (gaps.countP fun gap => gap < top) := by
  have count : k < (travelledOffsets stops gaps).length :=
    (length_offsetsFrom gaps 0 stops).symm ▸ within
  have here : (travelledOffsets stops gaps)[k]? = some (travelledOffsets stops gaps)[k] :=
    List.getElem?_eq_getElem count
  have least := offsetsFrom_le_iff sorted (Nat.zero_le _) here
  rw [here, Option.some.injEq]
  apply Nat.le_antisymm
  · refine (least _).mpr ⟨Nat.zero_le _, fun x member => ?_⟩
    refine List.countP_mono_left fun gap _ below => ?_
    rw [decide_eq_true_iff] at below ⊢
    exact lt_of_lt_of_le below (greatest.bound x member)
  · exact ((least _).mp (Nat.le_refl _)).2 top greatest.among

/-- Over sorted gaps stops that ascend are each matched by the first gap that is not below. -/
theorem travelledOffsets_firstNotBelow (sorted : gaps.Pairwise (· ≤ ·)) {stops : List α}
    (ascending : stops.Pairwise (· ≤ ·)) {k : Nat} {x : α} (here : stops[k]? = some x) :
    ∃ position, (travelledOffsets stops gaps)[k]? = some position ∧
      FirstNotBelow gaps x position := by
  have within := (List.getElem?_eq_some_iff.mp here).1
  exact ⟨_, travelledOffsets_of_greatest sorted within (greatest_take ascending here le_rfl),
    firstNotBelow_countP fun i gap inGaps => lt_iff_lt_countP sorted x inGaps⟩

end Sorted

/-- A map that keeps the order of gaps and stops keeps the offsets. -/
theorem travelledOffsets_map {α β : Type} [LT α] [DecidableLT α] [LT β] [DecidableLT β]
    (place : α → β) {stops gaps : List α}
    (order : ∀ gap ∈ gaps, ∀ x ∈ stops, place gap < place x ↔ gap < x) :
    travelledOffsets (stops.map place) (gaps.map place) = travelledOffsets stops gaps := by
  unfold travelledOffsets
  generalize 0 = position
  induction stops generalizing position with
  | nil => rfl
  | cons x rest ih =>
    have same : lowerBound (gaps.map place) (place x) position = lowerBound gaps x position := by
      unfold lowerBound
      rw [List.length_map]
      congr 1
      funext i
      rw [List.getElem?_map, Option.any_map]
      cases here : gaps[i]? with
      | none => rfl
      | some gap =>
        exact decide_eq_decide.mpr (order gap (List.mem_of_getElem? here) x List.mem_cons_self)
    rw [List.map_cons, offsetsFrom, offsetsFrom, same,
      ih fun gap member y later => order gap member y (List.mem_cons_of_mem x later)]

/-! ## Doubles -/

open Number

section Doubles

variable {gaps : List Float} (numbers : ∀ gap ∈ gaps, gap.isNaN = false)

include numbers

theorem exists_greatest (some : gaps ≠ []) : ∃ top, Greatest gaps top := by
  cases best : gaps.argmax place with
  | none => exact absurd (List.argmax_eq_none.mp best) some
  | some top =>
    have among := List.argmax_mem best
    refine ⟨top, among, fun x member => ?_⟩
    exact (le_iff_place (numbers x member) (numbers top among)).mpr
      (List.le_of_mem_argmax member best)

theorem sorted_place (sorted : gaps.Pairwise fun a b => a ≤ b) :
    (gaps.map place).Pairwise (· ≤ ·) := by
  refine List.pairwise_map.mpr (sorted.imp_of_mem fun hx hy le => ?_)
  exact (le_iff_place (numbers _ hx) (numbers _ hy)).mp le

theorem countP_place {x : Float} (number : x.isNaN = false) :
    ((gaps.map place).countP fun gap => decide (gap < place x)) =
      gaps.countP fun gap => gap < x := by
  rw [List.countP_map]
  refine List.countP_congr fun gap member => ?_
  rw [Function.comp_apply, decide_eq_true_iff, decide_eq_true_iff,
    lt_iff_place (numbers gap member) number]

variable {stops : List Float} (sorted : gaps.Pairwise fun a b => a ≤ b)
  (stopNumbers : ∀ x ∈ stops, x.isNaN = false)

include sorted stopNumbers

/-- The count for doubles, by way of their places. -/
theorem travelledOffsets_countP {k : Nat} (within : k < stops.length) {top : Float}
    (greatest : Greatest (stops.take (k + 1)) top) :
    (travelledOffsets stops gaps)[k]? = some (gaps.countP fun gap => gap < top) := by
  have number : ∀ x ∈ stops.take (k + 1), x.isNaN = false :=
    fun x member => stopNumbers x (List.mem_of_mem_take member)
  have placed : Greatest ((stops.map place).take (k + 1)) (place top) := by
    rw [← List.map_take]
    refine ⟨List.mem_map_of_mem greatest.among, fun y member => ?_⟩
    rcases List.mem_map.mp member with ⟨x, inStops, rfl⟩
    exact (le_iff_place (number x inStops) (number top greatest.among)).mp
      (greatest.bound x inStops)
  have same : travelledOffsets (stops.map place) (gaps.map place) = travelledOffsets stops gaps :=
    travelledOffsets_map place fun gap inGaps x inStops =>
      (lt_iff_place (numbers gap inGaps) (stopNumbers x inStops)).symm
  rw [← same, travelledOffsets_of_greatest (sorted_place numbers sorted)
    (by rwa [List.length_map]) placed, countP_place numbers (number top greatest.among)]

theorem travelledOffsets_ascending (ascending : stops.Pairwise fun a b => a ≤ b) {k : Nat}
    {x : Float} (here : stops[k]? = some x) :
    ∃ position, (travelledOffsets stops gaps)[k]? = some position ∧
      FirstNotBelow gaps x position := by
  have within := (List.getElem?_eq_some_iff.mp here).1
  have number := stopNumbers x (List.mem_of_getElem? here)
  -- a number is not below itself, so it is the greatest one of its own beginning
  have self : x ≤ x := (le_iff_place number number).mpr le_rfl
  refine ⟨_, travelledOffsets_countP numbers sorted stopNumbers within
    (greatest_take ascending here self), firstNotBelow_countP fun i gap inGaps => ?_⟩
  have placed : (gaps.map place)[i]? = some (place gap) := by
    rw [List.getElem?_map, inGaps]
    rfl
  rw [lt_iff_place (numbers gap (List.mem_of_getElem? inGaps)) number,
    lt_iff_lt_countP (sorted_place numbers sorted) (place x) placed, countP_place numbers number]

end Doubles

/-- The offsets by distance, whatever the distances are: one for each stop, never going back, none
beyond the gaps. Where the gaps ascend and all distances are numbers, the offset of a stop is the
number of gaps below the greatest distance up to it; and where the stops ascend, too, it is the
first position whose gap is not below the stop. -/
theorem travelledOffsets_doubles (stops gaps : List Float) :
    let offsets := travelledOffsets stops gaps
    (offsets.length = stops.length ∧ offsets.Pairwise (· ≤ ·) ∧ ∀ o ∈ offsets, o ≤ gaps.length) ∧
      ((gaps.Pairwise fun a b => a ≤ b) → (∀ gap ∈ gaps, gap.isNaN = false) →
        (∀ x ∈ stops, x.isNaN = false) →
        (∀ k, k < stops.length → (∃ top, Greatest (stops.take (k + 1)) top) ∧
          ∀ top, Greatest (stops.take (k + 1)) top →
            offsets[k]? = some (gaps.countP fun gap => gap < top)) ∧
        ((stops.Pairwise fun a b => a ≤ b) → ∀ (k : Nat) x, stops[k]? = some x →
          ∃ position, offsets[k]? = some position ∧ FirstNotBelow gaps x position)) := by
  intro offsets
  refine ⟨travelledOffsets_bounds stops gaps, fun sorted gapNumbers stopNumbers => ⟨?_, ?_⟩⟩
  · intro k within
    have some : stops.take (k + 1) ≠ [] := by
      rw [← List.length_pos_iff, List.length_take]
      omega
    refine ⟨exists_greatest (fun x member => stopNumbers x (List.mem_of_mem_take member)) some, ?_⟩
    intro top greatest
    exact travelledOffsets_countP gapNumbers sorted stopNumbers within greatest
  · intro ascending k x here
    exact travelledOffsets_ascending gapNumbers sorted stopNumbers ascending here

/-- Stops that go back, over gaps that stand still and end at infinity. -/
theorem travelledOffsets_goingBack :
    travelledOffsets [1, 0, 1.5, -(1 / 0), 7] [0.5, 1.5, 1.5, 1 / 0] = [1, 1, 1, 1, 3] ∧
      Greatest [(1 : Float), 0, 1.5, -(1 / 0)] 1.5 ∧
      ([(0.5 : Float), 1.5, 1.5, 1 / 0].countP fun gap => gap < 1.5) = 1 := by
  have greatest : Greatest [(1 : Float), 0, 1.5, -(1 / 0)] 1.5 := ⟨by simp, by decide +kernel⟩
  have offsets : travelledOffsets [(1 : Float), 0, 1.5, -(1 / 0), 7] [0.5, 1.5, 1.5, 1 / 0] =
      [1, 1, 1, 1, 3] := by decide +kernel
  have each := ((travelledOffsets_doubles [1, 0, 1.5, -(1 / 0), 7] [0.5, 1.5, 1.5, 1 / 0]).2
    (by decide +kernel) (by decide +kernel) (by decide +kernel)).1 3 (by decide)
  have here := each.2 1.5 greatest
  rw [offsets] at here
  exact ⟨offsets, greatest, Option.some.inj here.symm⟩

end StopAlign
