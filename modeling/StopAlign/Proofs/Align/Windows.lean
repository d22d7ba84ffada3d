import StopAlign.Proofs.Align.Division
import StopAlign.Proofs.Geo.Nearest

/-!
# Windows — how the windows of a range lie in those of a wider one

- `Between`        : a stop between the anchors of a range
- `Encloses`       : a range in which another one has come to lie by divisions
- `Encloses.nested` : every stop's window lies in its window in an enclosing range
- `Encloses.part`  : the points of a window are a part of those of the enclosing one
- `Found`          : a fit that was searched in the window of a range
- `Found.least`    : it is at least as near as anything in a window inside
- `firstLeast_pick` : the chosen slot is the first one of least distance

How far a window begins behind its stop depends on the lower anchor only, and how far it ends on the
upper one, so that one comparison of the anchors serves all stops in between.
-/

namespace StopAlign

open Outcome Number Polyline

/-- A stop between the anchors of a range. -/
def Between (r : Range) (stop : Nat) : Prop := r.low.stop < stop ∧ stop < r.high.stop

/-- The stops of the inner range are among those of the outer one, and its anchors leave them no
more points on either side. -/
structure Encloses (outer inner : Range) : Prop where
  low : outer.low.stop ≤ inner.low.stop
  high : inner.high.stop ≤ outer.high.stop
  lowSlack : outer.low.offset - outer.low.stop ≤ inner.low.offset - inner.low.stop
  highSlack : inner.high.offset - inner.high.stop ≤ outer.high.offset - outer.high.stop

/-- The window of a stop in one range lies in its window in another one. -/
def Nested (inner outer : Range) (stop : Nat) : Prop :=
  outer.windowStart stop ≤ inner.windowStart stop ∧
    inner.windowStart stop + inner.width ≤ outer.windowStart stop + outer.width

section Ranges

variable {r inner outer : Range} {stop : Nat}

theorem Encloses.refl (r : Range) : Encloses r r :=
  ⟨Nat.le_refl _, Nat.le_refl _, Int.le_refl _, Int.le_refl _⟩

theorem Encloses.trans (h : Encloses outer inner) (h' : Encloses inner r) : Encloses outer r where
  low := h.low.trans h'.low
  high := h'.high.trans h.high
  lowSlack := h.lowSlack.trans h'.lowSlack
  highSlack := h'.highSlack.trans h.highSlack

theorem Encloses.nested (h : Encloses outer inner) (stop : Nat) : Nested inner outer stop := by
  have low := h.lowSlack
  have high := h.highSlack
  constructor <;> unfold Range.windowStart
  · omega
  · unfold Range.width
    omega

theorem Encloses.between (h : Encloses outer inner) (inside : Between inner stop) :
    Between outer stop :=
  ⟨h.low.trans_lt inside.1, inside.2.trans_le h.high⟩

/-- A range encloses the two that it is divided into. -/
theorem encloses_split {s : Slot} (inside : Between r s.stop)
    (admitted : r.admits s.stop s.fit.offset = true) :
    Encloses r ⟨r.low, s.anchor⟩ ∧ Encloses r ⟨s.anchor, r.high⟩ := by
  rcases inside with ⟨low, high⟩
  rw [Range.admits, Bool.and_eq_true, decide_eq_true_iff, decide_eq_true_iff, Range.windowStart,
    Range.width] at admitted
  constructor
  · constructor <;> dsimp only [Slot.anchor] <;> omega
  · constructor <;> dsimp only [Slot.anchor] <;> omega

end Ranges

/-! ## Points of windows -/

theorem getElem?_slice {α : Type} (xs : List α) {low high : Int} (first : 0 ≤ low)
    (last : high ≤ xs.length) (ascending : low ≤ high) (i : Nat) :
    (Span.slice xs low high)[i]? = if (i : Int) < high - low then xs[low.toNat + i]? else none := by
  obtain ⟨a, rfl⟩ := Int.eq_ofNat_of_zero_le first
  obtain ⟨b, rfl⟩ := Int.eq_ofNat_of_zero_le (first.trans ascending)
  rw [Span.slice_natCast xs (by omega) (by omega), List.getElem?_drop, List.getElem?_take,
    Int.toNat_natCast]
  by_cases within : (i : Int) < (b : Int) - a
  · rw [if_pos within, if_pos (by omega)]
  · rw [if_neg within, if_neg (by omega)]

section Points

variable {shape : Polyline} {r inner outer : Range} {stop : Nat}

theorem Roomy.windowStart_nonneg (roomy : Roomy shape r) (inside : Between r stop) :
    0 < r.windowStart stop := by
  have low := roomy.low_nonneg
  have behind := inside.1
  unfold Range.windowStart
  omega

theorem Roomy.getElem?_window (roomy : Roomy shape r) (inside : Between r stop) (i : Nat) :
    (r.window shape stop)[i]? =
      if (i : Int) < r.width then shape[(r.windowStart stop).toNat + i]? else none := by
  have first := roomy.windowStart_nonneg inside
  have high := roomy.high_lt
  have spread := roomy.spread
  have before := inside.2
  have last : r.windowStart stop + r.width ≤ shape.length := by
    unfold Range.windowStart Range.width
    omega
  have width : 0 ≤ r.width := by
    unfold Range.width
    omega
  rw [Range.window, getElem?_slice shape first.le last (by omega)]
  simp only [add_sub_cancel_left]

/-- How far a window begins behind the one in an enclosing range. -/
def Range.shiftIn (inner outer : Range) (stop : Nat) : Nat :=
  (inner.windowStart stop - outer.windowStart stop).toNat

theorem Encloses.part (h : Encloses outer inner) (roomy : Roomy shape inner)
    (roomy' : Roomy shape outer) (inside : Between inner stop) :
    Part (inner.shiftIn outer stop) (inner.window shape stop) (outer.window shape stop) where
  points := by
    intro i a here
    rw [roomy.getElem?_window inside] at here
    rw [roomy'.getElem?_window (h.between inside)]
    have nested := h.nested stop
    have first := roomy'.windowStart_nonneg (h.between inside)
    unfold Nested at nested
    unfold Range.shiftIn
    by_cases within : (i : Int) < inner.width
    · rw [if_pos within] at here
      rw [if_pos (by omega), ← here]
      congr 1
      omega
    · rw [if_neg within] at here
      cases here

end Points

/-! ## Searched fits -/

/-- A fit that was searched in the window of a range. -/
structure Found (shape : Polyline) (r : Range) (s : Slot) : Prop where
  searched : ∃ fit, closestPoint s.place (r.window shape s.stop) = .ok fit ∧
    s.fit = ⟨r.windowStart s.stop + fit.offset, fit.distance⟩

/-- In a range inside with a segment in its windows, nothing is nearer than a fit that was searched
before. -/
theorem Found.least {shape : Polyline} {inner outer : Range} {s : Slot}
    (found : Found shape outer s) (h : Encloses outer inner) (roomy : Roomy shape inner)
    (roomy' : Roomy shape outer) (inside : Between inner s.stop) (two : 2 ≤ inner.width) :
    (∃ best, nearest s.place (inner.window shape s.stop) = .ok best ∧
      s.fit.distance ≤ best.distance) ∧
    ∀ fit, closestPoint s.place (inner.window shape s.stop) = .ok fit →
      s.fit.distance ≤ fit.distance := by
  rcases found.searched with ⟨fit, closest, same⟩
  have points := roomy.length_window inside
  have points' := roomy'.length_window (h.between inside)
  have nested := h.nested s.stop
  unfold Nested at nested
  rcases (closestPoint_eq_ok (by omega)).mp closest with ⟨best, _, _, near, -, -, rfl⟩
  rcases nearest_part (h.part roomy roomy' inside) (by omega) near with ⟨own, near', le⟩
  rw [same]
  refine ⟨⟨own, near', le⟩, fun fit' closest' => ?_⟩
  rcases (closestPoint_eq_ok (by omega)).mp closest' with ⟨own', _, _, near'', -, -, rfl⟩
  cases near'.symm.trans near''
  exact le

/-- A distance that was measured is a number. -/
theorem Found.number {shape : Polyline} {r : Range} {s : Slot} (found : Found shape r s) :
    s.fit.distance.isNaN = false := by
  rcases found.searched with ⟨fit, closest, same⟩
  rw [same]
  by_cases short : (r.window shape s.stop).length < 2
  · unfold closestPoint at closest
    rw [if_pos short] at closest
    cases closest
    exact (show (0 : Float).isNaN = false by decide +kernel)
  · rcases (closestPoint_eq_ok (Nat.le_of_not_lt short)).mp closest with
      ⟨best, _, _, near, -, -, rfl⟩
    exact distance_number (nearest_eq_ok.mp near).projected

/-- A refitted slot keeps its fit inside the window, or has one that was searched there. -/
theorem found_of_refit {shape : Polyline} {r : Range} {s t : Slot} (h : s.refit shape r = .ok t) :
    t = s ∧ r.admits s.stop s.fit.offset = true ∨ Found shape r t := by
  rcases Slot.refit_eq_ok h with ⟨stop, place, ⟨kept, admitted⟩ | ⟨fit, closest, searched⟩⟩
  · rcases s with ⟨stop', place', fit'⟩
    rcases t with ⟨stop'', place'', fit''⟩
    cases stop
    cases place
    cases kept
    exact .inl ⟨rfl, admitted⟩
  · exact .inr ⟨fit, by rw [stop, place]; exact closest, by rw [stop]; exact searched⟩

/-! ## The chosen slot -/

theorem firstLeast_pick {slots : List Slot} {p : Pick} (h : pick? slots = some p)
    (numbers : ∀ s ∈ slots, s.fit.distance.isNaN = false) :
    FirstLeast (·.fit.distance) slots p.before.length p.best := by
  -- the pick looks at the rest first, and a slot in front of it wins a tie
  induction slots generalizing p with
  | nil => cases h
  | cons s rest ih =>
    have number := numbers s List.mem_cons_self
    have self : s.fit.distance ≤ s.fit.distance := le_of_not_below number number (not_lt_self _)
    unfold pick? at h
    cases later : pick? rest with
    | none =>
      rw [later] at h
      cases h
      rw [pick?_eq_none later]
      refine ⟨rfl, fun t member => ?_, fun j t before _ => absurd before (Nat.not_lt_zero j)⟩
      rw [List.mem_singleton.mp member]
      exact self
    | some q =>
      rw [later] at h
      dsimp only at h
      have best := ih later fun t member => numbers t (List.mem_cons_of_mem s member)
      split_ifs at h with closer
      · cases h
        refine ⟨best.here, fun t member => ?_, fun j t before among => ?_⟩
        · rcases List.mem_cons.mp member with rfl | behind
          · exact le_of_lt_float closer
          · exact best.least t behind
        · cases j with
          | zero =>
            cases among
            exact closer
          | succ j => exact best.first j t (Nat.lt_of_succ_lt_succ before) among
      · cases h
        have number' := numbers q.best (List.mem_cons_of_mem s best.mem)
        refine ⟨rfl, fun t member => ?_, fun j t before _ => absurd before (Nat.not_lt_zero j)⟩
        rcases List.mem_cons.mp member with rfl | behind
        · exact self
        · exact le_trans_of_le (le_of_not_below number number' closer) (best.least t behind)

end StopAlign
