import StopAlign.Proofs.Align.Windows

/-!
# Sweep — the division as one loop over a stack of ranges

- `Sweep`, `Sweep.step`, `Sweep.run` : one table of slots, the pending ranges, the popped ones
- `Sweep.run_divide` : the loop over a range does what its division does
- `run_start`        : the loop over all stops ends with an empty stack
- `sweepOffsets_eq`  : its offsets are those of the division

The loop keeps the slots of all stops in one table. A range at the top of the stack is divided with
everything that comes from it before the range below it is popped, and it writes to the slots of its
own stops only.
-/

namespace StopAlign

open Outcome Polyline

/-! ## The loop -/

/-- A slot for each stop, the ranges on the stack with the next one first, and the ranges that were
popped with the last one first. -/
structure Sweep where
  slots : List Slot
  pending : List Range
  popped : List Range

namespace Sweep

/-- The slots of the stops between the anchors of a range. -/
def inner (r : Range) (slots : List Slot) : List Slot :=
  (slots.take r.high.stop).drop (r.low.stop + 1)

/-- Put the slots between the anchors of a range back into the table. -/
def write (r : Range) (slots fitted : List Slot) : List Slot :=
  slots.take (r.low.stop + 1) ++ (fitted ++ slots.drop r.high.stop)

def halves (r : Range) : Option Pick → List Range
  | none => []
  | some p => [⟨r.low, p.best.anchor⟩, ⟨p.best.anchor, r.high⟩]

/-- Pop a range, refit its stops, and push the ranges on both sides of the chosen one. -/
def step (shape : Polyline) (w : Sweep) : Except Fault Sweep :=
  match w.pending with
  | [] => return w
  | r :: rest => do
    let fitted ← (inner r w.slots).mapM (Slot.refit shape r)
    return ⟨write r w.slots fitted, halves r (pick? fitted) ++ rest, r :: w.popped⟩

def run (shape : Polyline) : Nat → Sweep → Except Fault Sweep
  | 0, w => return w
  | k + 1, w => do
    let next ← w.step shape
    next.run shape k

/-- A slot for each stop, and all stops between the first and the last one as the only range. The
last slot has its offset from the beginning. -/
def start (shape : Polyline) (stops : List Point) : Sweep where
  slots := slotsFrom 0 stops.dropLast ++
    stops.getLast?.toList.map fun p => ⟨stops.length - 1, p, ⟨lastOffset shape, 0⟩⟩
  pending := [⟨⟨0, 0⟩, ⟨stops.length - 1, lastOffset shape⟩⟩]
  popped := []

end Sweep

/-- The offsets of all stops after the loop, which has less than two steps for each stop. -/
def sweepOffsets (shape : Polyline) (stops : List Point) : Except Fault (List Int) := do
  let w ← (Sweep.start shape stops).run shape (2 * stops.length)
  return w.slots.map fun s => s.fit.offset

namespace Sweep

theorem run_add (shape : Polyline) (j k : Nat) (w : Sweep) :
    w.run shape (j + k) = w.run shape j >>= fun v => v.run shape k := by
  induction j generalizing w with
  | zero => rw [Nat.zero_add]; rfl
  | succ j ih =>
    rw [Nat.add_right_comm, run, run]
    cases w.step shape with
    | error fault => rfl
    | ok next => exact ih next

theorem run_done (shape : Polyline) {w : Sweep} (done : w.pending = []) (k : Nat) :
    w.run shape k = .ok w := by
  induction k with
  | zero => rfl
  | succ k ih =>
    have still : w.step shape = .ok w := by
      unfold step
      rw [done]
      rfl
    rw [run, still]
    exact ih

/-! ## The loop and the division -/

section Table

variable {r : Range} {before xs after : List Slot}

theorem inner_append (low : before.length = r.low.stop + 1)
    (high : before.length + xs.length = r.high.stop) : inner r (before ++ (xs ++ after)) = xs := by
  rw [inner, ← high, ← low, List.take_length_add_append, List.drop_left,
    List.take_left]

theorem write_append (low : before.length = r.low.stop + 1)
    (high : before.length + xs.length = r.high.stop) (fitted : List Slot) :
    write r (before ++ (xs ++ after)) fitted = before ++ (fitted ++ after) := by
  rw [write, ← high, ← low, List.take_left, List.drop_length_add_append, List.drop_left]

end Table

theorem step_append {shape : Polyline} {r : Range} {before xs after : List Slot}
    (low : before.length = r.low.stop + 1) (high : before.length + xs.length = r.high.stop)
    (rest popped : List Range) :
    step shape ⟨before ++ (xs ++ after), r :: rest, popped⟩ =
      xs.mapM (Slot.refit shape r) >>= fun fitted =>
        .ok ⟨before ++ (fitted ++ after), halves r (pick? fitted) ++ rest, r :: popped⟩ := by
  unfold step
  dsimp only
  rw [inner_append low high]
  simp only [write_append low high]
  rfl

theorem run_succ (shape : Polyline) (k : Nat) (w : Sweep) :
    w.run shape (k + 1) = w.step shape >>= fun next => next.run shape k := rfl

theorem divide_succ {shape : Polyline} {r : Range} {xs fitted : List Slot} {p : Pick}
    (refitted : xs.mapM (Slot.refit shape r) = .ok fitted) (picked : pick? fitted = some p)
    (fuel : Nat) :
    divide shape (fuel + 1) r xs =
      divide shape fuel ⟨r.low, p.best.anchor⟩ p.before >>= fun left =>
        divide shape fuel ⟨p.best.anchor, r.high⟩ p.after >>= fun right =>
          .ok (.node r fitted p.best left right) := by
  conv => lhs; unfold divide
  rw [refitted]
  show (match pick? fitted with | none => _ | some p => _) = _
  rw [picked]
  rfl

/-- A popped range with stops leaves its two halves on top of the stack. The steps that are left are
enough for both. -/
theorem run_pick (shape : Polyline) {r : Range} {before xs after fitted : List Slot} {p : Pick}
    (refitted : xs.mapM (Slot.refit shape r) = .ok fitted) (picked : pick? fitted = some p)
    (low : before.length = r.low.stop + 1) (high : before.length + xs.length = r.high.stop)
    (rest popped : List Range) :
    run shape (2 * xs.length + 1) ⟨before ++ (xs ++ after), r :: rest, popped⟩ =
      run shape (2 * p.before.length + 1)
          ⟨before ++ (p.before ++ (p.best :: (p.after ++ after))),
            ⟨r.low, p.best.anchor⟩ :: ⟨p.best.anchor, r.high⟩ :: rest, r :: popped⟩ >>=
        run shape (2 * p.after.length + 1) := by
  have same : xs.length = fitted.length := (mapM_eq_ok refitted).length_eq
  have parts := length_pick picked
  have steps : 2 * xs.length = (2 * p.before.length + 1) + (2 * p.after.length + 1) := by
    omega
  have table : fitted ++ after = p.before ++ (p.best :: (p.after ++ after)) := by
    conv => lhs; rw [pick?_eq_some picked, List.append_assoc, List.cons_append]
  rw [run_succ, step_append low high, refitted]
  show run shape (2 * xs.length) ⟨before ++ (fitted ++ after), halves r (pick? fitted) ++ rest,
    r :: popped⟩ = _
  rw [steps, run_add, table, picked]
  rfl

/-- The loop over a range at the top of the stack does what its division does, and fails where the
division fails. -/
theorem run_divide (shape : Polyline) {fuel : Nat} {r : Range} {xs : List Slot}
    (enough : xs.length ≤ fuel) (seated : Seated r xs) (before after : List Slot)
    (low : before.length = r.low.stop + 1) (rest popped : List Range) :
    run shape (2 * xs.length + 1) ⟨before ++ (xs ++ after), r :: rest, popped⟩ =
      (divide shape fuel r xs).map fun d =>
        ⟨before ++ (d.chosen ++ after), rest, d.ranges.reverse ++ popped⟩ := by
  induction fuel generalizing r xs before after rest popped with
  | zero =>
    obtain rfl : xs = [] := List.length_eq_zero_iff.mp (Nat.le_zero.mp enough)
    have count := seated.count
    rw [run_succ, step_append low (by omega)]
    rfl
  | succ fuel ih =>
    have count := seated.count
    cases refitted : xs.mapM (Slot.refit shape r) with
    | error fault =>
      rw [run_succ, step_append low (by omega)]
      unfold divide
      rw [refitted]
      rfl
    | ok fitted =>
      have same : xs.length = fitted.length := (mapM_eq_ok refitted).length_eq
      cases picked : pick? fitted with
      | none =>
        obtain rfl := pick?_eq_none picked
        obtain rfl : xs = [] := List.length_eq_zero_iff.mp same
        rw [run_succ, step_append low (by omega)]
        rfl
      | some p =>
        have parts := length_pick picked
        have seated' := seated.of_refit refitted
        rw [pick?_eq_some picked] at seated'
        rcases seated'.split with ⟨seatedBefore, seatedAfter⟩
        have countBefore := seatedBefore.count
        rw [divide_succ refitted picked, run_pick shape refitted picked low (by omega)]
        -- the lower half comes first, then the upper one with what the lower one has left
        have lower := ih (by omega) seatedBefore before (p.best :: (p.after ++ after)) low
          (⟨p.best.anchor, r.high⟩ :: rest) (r :: popped)
        refine (congrArg (· >>= _) lower).trans ?_
        cases left : divide shape fuel ⟨r.low, p.best.anchor⟩ p.before with
        | error fault => rfl
        | ok dl =>
          have sizes := congrArg List.length (divides_of_divide (by omega) left).stops
          rw [List.length_map, List.length_map] at sizes
          have low' : (before ++ (dl.chosen ++ [p.best])).length = p.best.anchor.stop + 1 := by
            rw [List.length_append, List.length_append, List.length_singleton, low, sizes]
            dsimp only at countBefore
            omega
          have upper := ih (by omega) seatedAfter _ after low' rest
            (dl.ranges.reverse ++ r :: popped)
          have table : before ++ (dl.chosen ++ (p.best :: (p.after ++ after))) =
              before ++ (dl.chosen ++ [p.best]) ++ (p.after ++ after) := by
            simp only [List.append_assoc, List.cons_append, List.nil_append]
          rw [← table] at upper
          refine Eq.trans upper ?_
          cases right : divide shape fuel ⟨p.best.anchor, r.high⟩ p.after with
          | error fault => rfl
          | ok dr =>
            refine congrArg Except.ok ?_
            simp only [Division.chosen, Division.ranges, List.append_assoc, List.cons_append,
              List.nil_append, List.reverse_cons, List.reverse_append]

end Sweep

/-! ## All stops -/

/-- The range of all stops. -/
def wholeRange (shape : Polyline) (stops : List Point) : Range :=
  ⟨⟨0, 0⟩, ⟨stops.length - 1, lastOffset shape⟩⟩

section Whole

variable (shape : Polyline) {stops : List Point}

theorem seated_whole (two : 2 ≤ stops.length) :
    Seated (wholeRange shape stops) (slotsFrom 1 stops.tail.dropLast) := by
  have count : stops.tail.dropLast.length + 2 = stops.length := by
    rw [List.length_dropLast, List.length_tail]
    omega
  refine ⟨?_, ?_⟩
  · rw [stops_slotsFrom, length_slotsFrom]
    rfl
  · rw [length_slotsFrom]
    dsimp only [wholeRange]
    omega

theorem roomy_whole (two : 2 ≤ stops.length) (room : stops.length ≤ shape.length) :
    Roomy shape (wholeRange shape stops) := by
  constructor <;> dsimp only [wholeRange, lastOffset] <;> omega

/-- The loop begins with the slots of the division between those of the first and the last stop. -/
theorem start_eq (two : 2 ≤ stops.length) : ∃ first last : Point,
    Sweep.start shape stops =
      ⟨[⟨0, first, ⟨0, 0⟩⟩] ++ (slotsFrom 1 stops.tail.dropLast ++
        [⟨stops.length - 1, last, ⟨lastOffset shape, 0⟩⟩]), [wholeRange shape stops], []⟩ := by
  match stops, two with
  | first :: second :: rest, _ =>
    refine ⟨first, (second :: rest).getLast (by simp), ?_⟩
    rw [Sweep.start, List.dropLast_cons_cons, slotsFrom, List.getLast?_cons_cons,
      List.getLast?_eq_some_getLast (by simp)]
    rfl

/-- The loop ends with an empty stack, or fails as the division does. -/
theorem run_start (two : 2 ≤ stops.length) : ∃ first last : Point,
    (Sweep.start shape stops).run shape (2 * stops.length) =
      (division shape stops).map fun d =>
        ⟨[⟨0, first, ⟨0, 0⟩⟩] ++ (d.chosen ++ [⟨stops.length - 1, last, ⟨lastOffset shape, 0⟩⟩]),
          [], d.ranges.reverse⟩ := by
  rcases start_eq shape two with ⟨first, last, begin⟩
  refine ⟨first, last, ?_⟩
  have count : stops.tail.dropLast.length + 2 = stops.length := by
    rw [List.length_dropLast, List.length_tail]
    omega
  have steps : 2 * stops.length = (2 * (slotsFrom 1 stops.tail.dropLast).length + 1) + 3 := by
    rw [length_slotsFrom]
    omega
  have whole := Sweep.run_divide shape (Nat.le_refl _) (seated_whole shape two)
    [⟨0, first, ⟨0, 0⟩⟩] [⟨stops.length - 1, last, ⟨lastOffset shape, 0⟩⟩] rfl [] []
  rw [begin, steps, Sweep.run_add]
  refine (congrArg (· >>= _) whole).trans ?_
  unfold division
  rw [← wholeRange]
  cases divide shape (slotsFrom 1 stops.tail.dropLast).length (wholeRange shape stops)
      (slotsFrom 1 stops.tail.dropLast) with
  | error fault => rfl
  | ok d =>
    refine (Sweep.run_done shape (w := ⟨_, [], _⟩) rfl 3).trans ?_
    rw [List.append_nil]
    rfl

theorem sweepOffsets_eq (two : 2 ≤ stops.length) :
    sweepOffsets shape stops = divisionOffsets shape stops := by
  rcases run_start shape two with ⟨first, last, run⟩
  rw [divisionOffsets_eq two, sweepOffsets, run]
  cases division shape stops with
  | error fault => rfl
  | ok d =>
    refine congrArg Except.ok ?_
    simp only [List.map_append, List.map_cons, List.map_nil, Division.offsets, List.cons_append,
      List.nil_append]

end Whole

end StopAlign
