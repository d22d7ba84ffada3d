import StopAlign.Proofs.Align.Sweep
import StopAlign.Proofs.Geo.Scan

/-!
# Loop — the division as a loop that reads by index

- `Loop`, `Loop.step`, `Loop.run` : the fits by stop, the stack, and what is counted
- `foldlM_glance`    : going through the stops of a range refits them and finds the nearest
- `Follows`          : a loop that does what the sweep does
- `Loop.weight`, `Loop.inside` : the steps and the stops that a range on the stack stands for
- `Follows.step`, `Follows.run` : every step follows the sweep and pays for itself, and so does
  every run
- `division_terminates` : the loop ends, whatever the numbers of stops and of points

How many steps a range takes depends on its stops only. Its offsets may be anything, so the windows
of a shape with fewer points than stops do not matter.
-/

namespace StopAlign

open Outcome Number Polyline

/-! ## The loop -/

/-- A fit for each stop, the ranges on the stack with the next one first, the number of ranges that
were popped, and the stops on which ranges were divided. -/
structure Loop where
  fits : List Fit
  pending : List Range
  popped : Nat
  anchored : List Nat

/-- What is known while the stops of a range are gone through. -/
structure Glance where
  fits : List Fit
  best : Nat
  least : Float

/-- The fit of a stop: the kept one inside the window, and a new one otherwise. -/
def refitAt (shape : Polyline) (stops : List Point) (r : Range) (fits : List Fit) (stop : Nat) :
    Except Fault Fit := do
  let fit ← readAt fits stop
  if r.admits stop fit.offset then return fit
  let place ← readAt stops stop
  let found ← scannedPoint place (r.window shape stop)
  return ⟨r.windowStart stop + found.offset, found.distance⟩

def glance (shape : Polyline) (stops : List Point) (r : Range) (v : Glance) (stop : Nat) :
    Except Fault Glance := do
  let fit ← refitAt shape stops r v.fits stop
  let (best, least) := if fit.distance < v.least then (stop, fit.distance) else (v.best, v.least)
  return ⟨v.fits.set stop fit, best, least⟩

namespace Loop

/-- The stops between the anchors of a range. -/
def inside (r : Range) : List Nat :=
  List.range' (r.low.stop + 1) (r.high.stop - (r.low.stop + 1))

/-- Push the ranges on both sides of the nearest stop. -/
def push (l : Loop) (r : Range) (rest : List Range) (v : Glance) : Except Fault Loop := do
  let fit ← readAt v.fits v.best
  let anchor : Anchor := ⟨v.best, fit.offset⟩
  return ⟨v.fits, ⟨r.low, anchor⟩ :: ⟨anchor, r.high⟩ :: rest, l.popped + 1,
    v.best :: l.anchored⟩

/-- Pop a range. If it has stops, go through them from the first one and infinity on, and divide the
range on the nearest one. -/
def step (shape : Polyline) (stops : List Point) (l : Loop) : Except Fault Loop :=
  match l.pending with
  | [] => return l
  | r :: rest => do
    if r.high.stop < r.low.stop + 2 then return ⟨l.fits, rest, l.popped + 1, l.anchored⟩
    let v ← (inside r).foldlM (glance shape stops r) ⟨l.fits, r.low.stop + 1, positiveInfinity⟩
    l.push r rest v

def run (shape : Polyline) (stops : List Point) : Nat → Loop → Except Fault Loop
  | 0, l => return l
  | k + 1, l => do
    let next ← l.step shape stops
    next.run shape stops k

/-- The first fits of all, where only the last stop has its offset already. -/
def start (shape : Polyline) (stops : List Point) : Loop where
  fits := (List.replicate stops.length ⟨0, 0⟩).set (stops.length - 1) ⟨lastOffset shape, 0⟩
  pending := [wholeRange shape stops]
  popped := 0
  anchored := []

def offsets (l : Loop) : List Int := l.fits.map (·.offset)

end Loop

/-! ## Going through the stops of a range -/

/-- The stop and the distance that are kept so far, unless a slot is nearer. -/
def closer (found : Nat × Float) (s : Slot) : Nat × Float :=
  if s.fit.distance < found.2 then (s.stop, s.fit.distance) else found

section Range

variable {shape : Polyline} {stops : List Point} {r : Range}

theorem refitAt_eq {fits : List Fit} {s : Slot} (here : fits[s.stop]? = some s.fit)
    (place : stops[s.stop]? = some s.place) :
    refitAt shape stops r fits s.stop = (s.refit shape r).map (·.fit) := by
  unfold refitAt Slot.refit Slot.search
  rw [readAt_eq_ok here, readAt_eq_ok place]
  show (if r.admits s.stop s.fit.offset = true then _ else _) = Except.map _ (if _ then _ else _)
  by_cases kept : r.admits s.stop s.fit.offset = true
  · rw [if_pos kept, if_pos kept]
    rfl
  · rw [if_neg kept, if_neg kept]
    show (scannedPoint s.place (r.window shape s.stop) >>= _) = _
    rw [scannedPoint_eq]
    cases closestPoint s.place (r.window shape s.stop) with
    | error fault => rfl
    | ok fit => rfl

/-- Going through slots that stand at their stops refits each of them. -/
theorem foldlM_glance {before xs after : List Slot}
    (seats : ∀ j s, xs[j]? = some s → s.stop = before.length + j ∧ stops[s.stop]? = some s.place)
    (best : Nat) (least : Float) :
    (List.range' before.length xs.length).foldlM (glance shape stops r)
        ⟨(before ++ (xs ++ after)).map (·.fit), best, least⟩ =
      (xs.mapM (Slot.refit shape r)).map fun fitted =>
        ⟨(before ++ (fitted ++ after)).map (·.fit), (fitted.foldl closer (best, least)).1,
          (fitted.foldl closer (best, least)).2⟩ := by
  induction xs generalizing before best least with
  | nil => rfl
  | cons s xs ih =>
    rcases seats 0 s rfl with ⟨stop, place⟩
    rw [Nat.add_zero] at stop
    have here : ((before ++ (s :: xs ++ after)).map (·.fit))[s.stop]? = some s.fit := by
      rw [stop, List.getElem?_map, List.getElem?_append_right (Nat.le_refl _), Nat.sub_self]
      rfl
    rw [List.length_cons, List.range'_succ, List.foldlM_cons, List.mapM_cons, glance, ← stop,
      refitAt_eq here place]
    cases refitted : s.refit shape r with
    | error fault => rfl
    | ok t =>
      have own := (Slot.refit_eq_ok refitted).1
      have table : ((before ++ (s :: xs ++ after)).map (·.fit)).set s.stop t.fit =
          ((before ++ [t]) ++ (xs ++ after)).map (·.fit) := by
        rw [stop, List.map_append, List.set_append_right _ _ (by simp), List.length_map,
          Nat.sub_self]
        simp
      have behind : ∀ j x, xs[j]? = some x →
          x.stop = (before ++ [t]).length + j ∧ stops[x.stop]? = some x.place := by
        intro j x among
        rcases seats (j + 1) x among with ⟨there, place'⟩
        refine ⟨?_, place'⟩
        rw [there, List.length_append, List.length_singleton]
        omega
      have later := fun best least => ih behind best least
      have next : s.stop + 1 = (before ++ [t]).length := by
        rw [stop, List.length_append, List.length_singleton]
      show (List.range' (s.stop + 1) xs.length).foldlM (glance shape stops r)
          ⟨((before ++ (s :: xs ++ after)).map (·.fit)).set s.stop t.fit,
            (if t.fit.distance < least then (s.stop, t.fit.distance) else (best, least)).1,
            (if t.fit.distance < least then (s.stop, t.fit.distance) else (best, least)).2⟩ = _
      rw [table, next, later, ← own]
      show _ = (List.mapM (Slot.refit shape r) xs >>= _).map _
      cases List.mapM (Slot.refit shape r) xs with
      | error fault => rfl
      | ok fitted =>
        dsimp only [Except.map]
        rw [List.append_assoc]
        rfl

/-- A distance that can be compared with infinity. -/
def Slot.Measured (s : Slot) : Prop := 0 ≤ s.fit.distance ∧ s.fit.distance < positiveInfinity

theorem measured_of_refit {s t : Slot} (measured : s.Measured) (h : s.refit shape r = .ok t) :
    t.Measured := by
  rcases Slot.refit_eq_ok h with ⟨-, -, ⟨kept, -⟩ | ⟨fit, closest, found⟩⟩
  · unfold Slot.Measured
    rw [kept]
    exact measured
  · unfold Slot.Measured
    rw [found]
    by_cases short : (r.window shape s.stop).length < 2
    · unfold closestPoint at closest
      rw [if_pos short] at closest
      cases closest
      exact (show (0 : Float) ≤ 0 ∧ (0 : Float) < positiveInfinity by decide +kernel)
    · rcases (closestPoint_eq_ok (Nat.le_of_not_lt short)).mp closest with
        ⟨best, _, _, near, -, -, rfl⟩
      exact greatCircle_bounds (project_eq_ok.mp (nearest_eq_ok.mp near).projected).2.2

end Range

/-- The stop of a slot and the distance of its fit. -/
def Slot.reach (s : Slot) : Nat × Float := (s.stop, s.fit.distance)

theorem foldl_closer_reach (first : Slot) (others : List Slot) :
    others.foldl closer first.reach =
      (others.foldl (keepLeast fun s : Slot => s.fit.distance) first).reach := by
  refine List.foldl_hom Slot.reach fun best s => ?_
  unfold closer keepLeast
  exact (apply_ite Slot.reach _ _ _).symm

/-- Going through slots from infinity on finds the slot on which their range is divided. -/
theorem foldl_closer {fitted : List Slot} {p : Pick} (picked : pick? fitted = some p)
    (measured : ∀ s ∈ fitted, s.Measured) (stop : Nat) :
    fitted.foldl closer (stop, positiveInfinity) = p.best.reach := by
  have numbers : ∀ s ∈ fitted, s.fit.distance.isNaN = false :=
    fun s member => (isNaN_of_le (measured s member).1).2
  have chosen := firstLeast_pick picked numbers
  cases fitted with
  | nil => cases picked
  | cons first others =>
    -- the first slot replaces the beginning, since its distance is finite
    have begin : closer (stop, positiveInfinity) first = first.reach :=
      if_pos (measured first List.mem_cons_self).2
    rcases firstLeast_foldl (fun s : Slot => s.fit.distance) first others numbers with ⟨k, kept⟩
    rw [List.foldl_cons, begin, foldl_closer_reach, kept.unique chosen]

/-! ## One step -/

section Step

variable {shape : Polyline} {stops : List Point} {r : Range} {before xs after : List Slot}

/-- Slots that stand at their stops, with places and distances. -/
structure Seats (stops : List Point) (slots : List Slot) : Prop where
  stops_eq : slots.map (·.stop) = List.range stops.length
  places_eq : slots.map (·.place) = stops
  measured : ∀ s ∈ slots, s.Measured

theorem Seats.length_eq {slots : List Slot} (seats : Seats stops slots) :
    slots.length = stops.length := by
  rw [← seats.places_eq, List.length_map]

theorem Seats.getElem?_eq {slots : List Slot} (seats : Seats stops slots) {i : Nat} {s : Slot}
    (here : slots[i]? = some s) : s.stop = i ∧ stops[i]? = some s.place := by
  have stop : (slots.map (·.stop))[i]? = some s.stop := by rw [List.getElem?_map, here]; rfl
  have place : (slots.map (·.place))[i]? = some s.place := by rw [List.getElem?_map, here]; rfl
  rw [seats.places_eq] at place
  rw [seats.stops_eq, List.getElem?_range (List.getElem?_eq_some_iff.mp place).1] at stop
  exact ⟨(Option.some.inj stop).symm, place⟩

/-- Refitting some of the slots leaves all at their stops. -/
theorem Seats.of_refit {fitted : List Slot} (seats : Seats stops (before ++ (xs ++ after)))
    (refitted : xs.mapM (Slot.refit shape r) = .ok fitted) :
    Seats stops (before ++ (fitted ++ after)) where
  stops_eq := by
    have same := stops_of_refit refitted
    have all := seats.stops_eq
    simp only [List.map_append] at all ⊢
    rw [same, all]
  places_eq := by
    have same := places_of_refit refitted
    have all := seats.places_eq
    simp only [List.map_append] at all ⊢
    rw [same, all]
  measured := by
    have all := seats.measured
    simp only [List.forall_mem_append] at all ⊢
    refine ⟨all.1, fun t member => ?_, all.2.2⟩
    rcases mem_of_mapM refitted member with ⟨s, among, refit⟩
    exact measured_of_refit (all.2.1 s among) refit

/-- The chosen slot stands in the table at its stop. -/
theorem Seats.getElem?_best {p : Pick} (seats : Seats stops (before ++ (xs ++ after)))
    (picked : pick? xs = some p) : p.best.stop = before.length + p.before.length ∧
      (before ++ (xs ++ after))[p.best.stop]? = some p.best := by
  have here : (before ++ (xs ++ after))[before.length + p.before.length]? = some p.best := by
    rw [List.getElem?_append_right (Nat.le_add_right _ _), Nat.add_sub_cancel_left,
      pick?_eq_some picked, List.append_assoc, List.getElem?_append_right (Nat.le_refl _),
      Nat.sub_self]
    rfl
  have stop := (seats.getElem?_eq here).1
  exact ⟨stop, stop ▸ here⟩

/-- A step does what the step of the sweep does. No read fails. -/
theorem step_eq (seats : Seats stops (before ++ (xs ++ after)))
    (low : before.length = r.low.stop + 1) (high : before.length + xs.length = r.high.stop)
    (rest : List Range) (popped : Nat) (anchored : List Nat) :
    Loop.step shape stops ⟨(before ++ (xs ++ after)).map (·.fit), r :: rest, popped, anchored⟩ =
      xs.mapM (Slot.refit shape r) >>= fun fitted =>
        .ok ⟨(before ++ (fitted ++ after)).map (·.fit), Sweep.halves r (pick? fitted) ++ rest,
          popped + 1, (pick? fitted).toList.map (·.best.stop) ++ anchored⟩ := by
  unfold Loop.step
  dsimp only
  cases xs with
  | nil =>
    rw [if_pos (by rw [List.length_nil] at high; omega)]
    rfl
  | cons s xs =>
    have inner : ∀ j t, (s :: xs)[j]? = some t →
        t.stop = before.length + j ∧ stops[t.stop]? = some t.place := by
      intro j t here
      have place : (before ++ (s :: xs ++ after))[before.length + j]? = some t := by
        rw [List.getElem?_append_right (Nat.le_add_right _ _), Nat.add_sub_cancel_left,
          List.getElem?_append_left (List.getElem?_eq_some_iff.mp here).1, here]
      rcases seats.getElem?_eq place with ⟨stop, placed⟩
      exact ⟨stop, stop ▸ placed⟩
    have among : Loop.inside r = List.range' before.length (s :: xs).length := by
      rw [Loop.inside, ← low, ← high, Nat.add_sub_cancel_left]
    rw [if_neg (by rw [List.length_cons] at high; omega), among, ← low, foldlM_glance inner]
    cases refitted : (s :: xs).mapM (Slot.refit shape r) with
    | error fault => rfl
    | ok fitted =>
      have seats' := seats.of_refit refitted
      cases picked : pick? fitted with
      | none =>
        have same := (mapM_eq_ok refitted).length_eq
        rw [pick?_eq_none picked] at same
        cases same
      | some p =>
        have measured : ∀ t ∈ fitted, t.Measured := fun t member =>
          seats'.measured t (List.mem_append_right _ (List.mem_append_left _ member))
        have read : readAt ((before ++ (fitted ++ after)).map (·.fit)) p.best.stop =
            .ok p.best.fit :=
          readAt_eq_ok (by rw [List.getElem?_map, (seats'.getElem?_best picked).2]; rfl)
        show Loop.push _ r rest ⟨(before ++ (fitted ++ after)).map (·.fit),
          (fitted.foldl closer (before.length, positiveInfinity)).1,
          (fitted.foldl closer (before.length, positiveInfinity)).2⟩ = _
        rw [foldl_closer picked measured]
        show (readAt ((before ++ (fitted ++ after)).map (·.fit)) p.best.stop >>= _) =
          (Except.ok ⟨_, Sweep.halves r (pick? fitted) ++ rest, _, _⟩ : Except Fault Loop)
        rw [read, picked]
        rfl

end Step

/-! ## What a range on the stack stands for -/

namespace Loop

/-- The number of ranges that are popped until a range is used up. -/
def weight (r : Range) : Nat := 2 * (r.high.stop - r.low.stop) - 1

section Halves

variable {r : Range} {a : Anchor}

/-- A range that is divided is popped once, and then its halves are. -/
theorem weight_halves (low : r.low.stop < a.stop) (high : a.stop < r.high.stop) :
    weight ⟨r.low, a⟩ + weight ⟨a, r.high⟩ + 1 = weight r := by
  unfold weight
  dsimp only
  omega

/-- The stops of a range are the anchor and the stops of the halves. -/
theorem inside_halves (low : r.low.stop < a.stop) (high : a.stop < r.high.stop) :
    (a.stop :: (inside ⟨r.low, a⟩ ++ inside ⟨a, r.high⟩)).Perm (inside r) := by
  have upper : List.range' a.stop (r.high.stop - a.stop) = a.stop :: inside ⟨a, r.high⟩ := by
    rw [show r.high.stop - a.stop = r.high.stop - (a.stop + 1) + 1 by omega, List.range'_succ]
    rfl
  have whole : inside r = inside ⟨r.low, a⟩ ++ a.stop :: inside ⟨a, r.high⟩ := by
    rw [← upper]
    unfold inside
    dsimp only
    rw [show r.high.stop - (r.low.stop + 1) =
        a.stop - (r.low.stop + 1) + (r.high.stop - a.stop) by omega, ← List.range'_append_1]
    congr 2
    omega
  rw [whole]
  exact List.perm_middle.symm

end Halves

end Loop

/-- A loop that does what the sweep does. What it has popped and what it will pop are as many ranges
as there are in all, and each inner stop is an anchor or waits on the stack. -/
structure Follows (stops : List Point) (l : Loop) (w : Sweep) : Prop where
  seats : Seats stops w.slots
  fits : l.fits = w.slots.map (·.fit)
  pending : l.pending = w.pending
  order : ∀ r ∈ w.pending, r.low.stop < r.high.stop ∧ r.high.stop < stops.length
  paid : l.popped + (l.pending.map Loop.weight).sum = 2 * stops.length - 3
  told : (l.anchored ++ l.pending.flatMap Loop.inside).Perm (List.range' 1 (stops.length - 2))

section Follow

variable {shape : Polyline} {stops : List Point} {l : Loop} {w : Sweep}

/-- The table in front of, within and behind a range. -/
theorem exists_parts {slots : List Slot} {low high : Nat} (order : low ≤ high)
    (within : high ≤ slots.length) : ∃ before xs after, slots = before ++ (xs ++ after) ∧
      before.length = low ∧ before.length + xs.length = high := by
  refine ⟨slots.take low, (slots.drop low).take (high - low), slots.drop high, ?_, ?_, ?_⟩
  · have behind : slots.drop high = (slots.drop low).drop (high - low) := by
      rw [List.drop_drop, Nat.add_sub_cancel' order]
    rw [behind, List.take_append_drop, List.take_append_drop]
  · rw [List.length_take]
    omega
  · rw [List.length_take, List.length_take, List.length_drop]
    omega

/-- A step fails as the step of the sweep does, or follows it. -/
theorem Follows.step (follows : Follows stops l w) {r : Range} {rest : List Range}
    (top : w.pending = r :: rest) :
    (∃ fault, w.step shape = .error fault ∧ l.step shape stops = .error fault) ∨
      ∃ l' t, w.step shape = .ok t ∧ l.step shape stops = .ok l' ∧ Follows stops l' t ∧
        l'.popped = l.popped + 1 := by
  rcases w with ⟨slots, pending, ranges⟩
  rcases l with ⟨fits, pending', popped, anchored⟩
  cases follows.fits
  cases follows.pending
  cases top
  rcases follows.order r List.mem_cons_self with ⟨order, last⟩
  have seats := follows.seats
  have count := seats.length_eq
  dsimp only at seats count
  rcases exists_parts (show r.low.stop + 1 ≤ r.high.stop from order)
    (show r.high.stop ≤ slots.length by omega) with ⟨before, xs, after, rfl, low, high⟩
  have sweep : Sweep.step shape ⟨before ++ (xs ++ after), r :: rest, ranges⟩ = _ :=
    Sweep.step_append low high rest ranges
  have loop : Loop.step shape stops ⟨(before ++ (xs ++ after)).map (·.fit), r :: rest, popped,
      anchored⟩ = _ := step_eq seats low high rest popped anchored
  cases refitted : xs.mapM (Slot.refit shape r) with
  | error fault =>
    rw [refitted] at sweep loop
    exact .inl ⟨fault, sweep, loop⟩
  | ok fitted =>
    rw [refitted] at sweep loop
    refine .inr ⟨_, _, sweep, loop, ?_, rfl⟩
    have seats' := seats.of_refit refitted
    have waiting := fun x member => follows.order x (List.mem_cons_of_mem r member)
    have paid := follows.paid
    have told := follows.told
    rw [List.map_cons, List.sum_cons] at paid
    rw [List.flatMap_cons] at told
    dsimp only at paid told
    have same := (mapM_eq_ok refitted).length_eq
    cases picked : pick? fitted with
    | none =>
      -- a range without stops takes this step and no other one
      rw [pick?_eq_none picked, List.length_nil] at same
      have one : Loop.weight r = 1 := by
        unfold Loop.weight
        omega
      have nothing : Loop.inside r = [] := by
        rw [Loop.inside, List.range'_eq_nil_iff]
        omega
      rw [one] at paid
      rw [nothing] at told
      exact ⟨seats', rfl, rfl, waiting, by dsimp only [Sweep.halves, List.nil_append]; omega, told⟩
    | some p =>
      have parts := length_pick picked
      have stop := (seats'.getElem?_best picked).1
      have below : r.low.stop < p.best.anchor.stop := show r.low.stop < p.best.stop by omega
      have above : p.best.anchor.stop < r.high.stop := show p.best.stop < r.high.stop by omega
      refine ⟨seats', rfl, rfl, ?_, ?_, ?_⟩
      · refine List.forall_mem_cons.mpr ⟨⟨below, by dsimp only; omega⟩,
          List.forall_mem_cons.mpr ⟨⟨above, last⟩, waiting⟩⟩
      · have halves := Loop.weight_halves below above
        show popped + 1 + (List.map Loop.weight (⟨r.low, p.best.anchor⟩ ::
          ⟨p.best.anchor, r.high⟩ :: rest)).sum = _
        rw [List.map_cons, List.map_cons, List.sum_cons, List.sum_cons]
        omega
      · have halves := Loop.inside_halves below above
        show (p.best.stop :: anchored ++ (List.flatMap Loop.inside (⟨r.low, p.best.anchor⟩ ::
          ⟨p.best.anchor, r.high⟩ :: rest))).Perm _
        rw [List.flatMap_cons, List.flatMap_cons, ← List.append_assoc (Loop.inside _)]
        refine List.Perm.trans ?_ told
        refine List.Perm.trans ?_ ((halves.append_right _).append_left anchored)
        exact List.perm_middle.symm

/-- So does a run, and as long as there are ranges every step pops one. -/
theorem Follows.run (follows : Follows stops l w) (k : Nat) :
    (∃ fault, w.run shape k = .error fault ∧ l.run shape stops k = .error fault) ∨
      ∃ l' t, w.run shape k = .ok t ∧ l.run shape stops k = .ok l' ∧ Follows stops l' t ∧
        (l'.popped = l.popped + k ∨ l'.pending = []) := by
  induction k generalizing l w with
  | zero => exact .inr ⟨l, w, rfl, rfl, follows, .inl rfl⟩
  | succ k ih =>
    cases top : w.pending with
    | nil =>
      have empty := follows.pending.trans top
      have still : l.step shape stops = .ok l := by
        unfold Loop.step
        rw [empty]
        rfl
      have still' : w.step shape = .ok w := by
        unfold Sweep.step
        rw [top]
        rfl
      rw [Sweep.run_succ, Loop.run, still, still']
      rcases ih follows with failed | ⟨l', t, swept, ran, follows', -⟩
      · exact .inl failed
      · refine .inr ⟨l', t, swept, ran, follows', .inr ?_⟩
        have done := (Sweep.run_done shape top k).symm.trans swept
        cases done
        exact follows'.pending.trans top
    | cons r rest =>
      rw [Sweep.run_succ, Loop.run]
      rcases follows.step top with ⟨fault, swept, failed⟩ | ⟨next, t, swept, ran, follows', popped⟩
      · rw [swept, failed]
        exact .inl ⟨fault, rfl, rfl⟩
      · rw [swept, ran]
        rcases ih follows' with failed | ⟨l', t', swept', ran', follows'', paid⟩
        · exact .inl failed
        · refine .inr ⟨l', t', swept', ran', follows'', paid.imp_left fun count => ?_⟩
          rw [count, popped, Nat.add_assoc, Nat.add_comm 1]

end Follow

/-! ## From the beginning -/

theorem fits_slotsFrom (stop : Nat) (places : List Point) :
    (slotsFrom stop places).map (·.fit) = List.replicate places.length ⟨0, 0⟩ := by
  induction places generalizing stop with
  | nil => rfl
  | cons p rest ih => rw [slotsFrom, List.map_cons, ih, List.length_cons, List.replicate_succ]

section Start

variable (shape : Polyline) {stops : List Point}

theorem seats_start (some_stops : stops ≠ []) : Seats stops (Sweep.start shape stops).slots := by
  rcases List.eq_nil_or_concat' stops with rfl | ⟨inner, last, rfl⟩
  · exact absurd rfl some_stops
  unfold Sweep.start
  dsimp only
  rw [List.dropLast_concat, List.getLast?_concat, List.length_append, List.length_singleton,
    Nat.add_sub_cancel]
  refine ⟨?_, ?_, ?_⟩
  · rw [List.map_append, stops_slotsFrom, List.length_append, List.length_singleton,
      List.range_succ, List.range_eq_range']
    rfl
  · rw [List.map_append, places_slotsFrom]
    rfl
  · have zero : (0 : Float) ≤ 0 ∧ (0 : Float) < positiveInfinity := by decide +kernel
    refine List.forall_mem_append.mpr ⟨fun s member => ?_, fun s member => ?_⟩
    · have fit : s.fit ∈ (slotsFrom 0 inner).map (·.fit) := List.mem_map_of_mem member
      rw [fits_slotsFrom] at fit
      unfold Slot.Measured
      rw [List.eq_of_mem_replicate fit]
      exact zero
    · rw [List.mem_singleton.mp member]
      exact zero

theorem fits_start (some_stops : stops ≠ []) :
    (Loop.start shape stops).fits = (Sweep.start shape stops).slots.map (·.fit) := by
  rcases List.eq_nil_or_concat' stops with rfl | ⟨inner, last, rfl⟩
  · exact absurd rfl some_stops
  unfold Loop.start Sweep.start
  dsimp only
  rw [List.dropLast_concat, List.getLast?_concat, List.length_append, List.length_singleton,
    Nat.add_sub_cancel, List.map_append, fits_slotsFrom, List.replicate_succ',
    List.set_append_right _ _ (by rw [List.length_replicate]), List.length_replicate, Nat.sub_self]
  rfl

theorem follows_start (two : 2 ≤ stops.length) :
    Follows stops (Loop.start shape stops) (Sweep.start shape stops) where
  seats := seats_start shape (List.ne_nil_of_length_pos (by omega))
  fits := fits_start shape (List.ne_nil_of_length_pos (by omega))
  pending := rfl
  order := by
    intro r member
    obtain rfl : r = wholeRange shape stops := List.mem_singleton.mp member
    dsimp only [wholeRange]
    omega
  paid := by
    show 0 + (2 * (stops.length - 1 - 0) - 1 + 0) = 2 * stops.length - 3
    omega
  told := by
    show (List.range' 1 (stops.length - 1 - 1) ++ []).Perm _
    rw [List.append_nil]
    rfl

/-- Where the loop is done it has the offsets of the division. -/
theorem Follows.offsets_eq {l : Loop} {w : Sweep} (follows : Follows stops l w) {k : Nat}
    (swept : (Sweep.start shape stops).run shape k = .ok w) (done : w.pending = [])
    (enough : k ≤ 2 * stops.length) : sweepOffsets shape stops = .ok l.offsets := by
  obtain ⟨more, count⟩ := Nat.exists_eq_add_of_le enough
  have all : (Sweep.start shape stops).run shape (2 * stops.length) = .ok w := by
    rw [count, Sweep.run_add, swept]
    exact Sweep.run_done shape done more
  rw [sweepOffsets, all, Loop.offsets, follows.fits, List.map_map]
  rfl

/-- When all ranges have been popped no other one waits, for it would be one more. -/
theorem Follows.pending_eq_nil {l : Loop} {w : Sweep} (follows : Follows stops l w)
    (all : l.popped = 2 * stops.length - 3) : l.pending = [] := by
  have paid := follows.paid
  cases top : l.pending with
  | nil => rfl
  | cons r rest =>
    have order := (follows.order r (follows.pending ▸ top ▸ List.mem_cons_self)).1
    rw [top, List.map_cons, List.sum_cons, Loop.weight] at paid
    omega

/-- The offsets of a division begin and end with the ends of the shape. -/
theorem ends_of_divisionOffsets (two : 2 ≤ stops.length) {offsets : List Int}
    (h : divisionOffsets shape stops = .ok offsets) :
    ∃ inner, offsets = 0 :: (inner ++ [lastOffset shape]) := by
  rw [divisionOffsets_eq two] at h
  rcases bind_eq_ok.mp h with ⟨d, -, last⟩
  exact ⟨d.offsets, (Except.ok.inj last).symm⟩

/-- A division that fails has met a window onto which a stop cannot be projected. -/
theorem window_of_divisionOffsets (two : 2 ≤ stops.length) {fault : Fault}
    (h : divisionOffsets shape stops = .error fault) : fault = .mathDomain ∧
      ∃ p ∈ stops.tail.dropLast, ∃ window, window <:+: shape ∧
        closestPoint p window = .error .mathDomain := by
  rw [divisionOffsets_eq two] at h
  rcases bind_eq_error.mp h with division | ⟨d, -, last⟩
  · rcases divide_error division with ⟨p, member, window, part, closest⟩
    rw [places_slotsFrom] at member
    obtain rfl := (closestPoint_error closest).1
    exact ⟨rfl, p, member, window, part, closest⟩
  · cases last

/-- Two stops or more take the loop as many steps as it has ranges to pop, and each stop between the
first and the last one becomes an anchor once. No read by index fails: the only fault is one of a
projection onto a part of the shape. The numbers of points and of stops need not agree. -/
theorem division_terminates (two : 2 ≤ stops.length) :
    (∃ l, (Loop.start shape stops).run shape stops (2 * stops.length - 3) = .ok l ∧
      l.pending = [] ∧ l.popped = 2 * stops.length - 3 ∧
      l.anchored.Perm (List.range' 1 (stops.length - 2)) ∧
      divisionOffsets shape stops = .ok l.offsets ∧ l.offsets.length = stops.length ∧
      l.offsets.head? = some 0 ∧ l.offsets.getLast? = some ((shape.length : Int) - 1)) ∨
    ((Loop.start shape stops).run shape stops (2 * stops.length - 3) = .error .mathDomain ∧
      divisionOffsets shape stops = .error .mathDomain ∧
      ∃ p ∈ stops.tail.dropLast, ∃ window, window <:+: shape ∧
        closestPoint p window = .error .mathDomain) := by
  have same := sweepOffsets_eq shape two
  rcases (follows_start shape two).run (2 * stops.length - 3) with
    ⟨fault, swept, failed⟩ | ⟨l, w, swept, ran, follows, popped⟩
  · -- a sweep that fails is a division that fails
    have offsets : sweepOffsets shape stops = .error fault := by
      obtain ⟨more, count⟩ := Nat.exists_eq_add_of_le (Nat.sub_le (2 * stops.length) 3)
      rw [sweepOffsets, count, Sweep.run_add, swept]
      rfl
    have divided := same.symm.trans offsets
    rcases window_of_divisionOffsets shape two divided with ⟨rfl, closest⟩
    exact .inr ⟨failed, divided, closest⟩
  · have zero : (Loop.start shape stops).popped = 0 := rfl
    have empty : l.pending = [] := popped.elim (fun all => follows.pending_eq_nil (by omega)) id
    have paid := follows.paid
    have told := follows.told
    rw [empty] at paid told
    have offsets : divisionOffsets shape stops = .ok l.offsets :=
      same.symm.trans (follows.offsets_eq shape swept (follows.pending ▸ empty) (Nat.sub_le _ 3))
    have count : l.offsets.length = stops.length := by
      rw [Loop.offsets, follows.fits, List.length_map, List.length_map, follows.seats.length_eq]
    rcases ends_of_divisionOffsets shape two offsets with ⟨inner, whole⟩
    refine .inl ⟨l, ran, empty, paid, ?_, offsets, count, ?_, ?_⟩
    · rwa [List.flatMap_nil, List.append_nil] at told
    · rw [whole]
      rfl
    · rw [whole, ← List.cons_append, List.getLast?_concat]
      rfl

end Start

/-- A shape with one segment. -/
def shortShape : Polyline := [⟨0, 0⟩, ⟨0, 0.001⟩]

/-- More stops than the shape has points. -/
def manyStops : List Point := [⟨0, 0⟩, ⟨0, 0.002⟩, ⟨0, -0.001⟩, ⟨0, 0.001⟩]

/-- The windows of these stops are empty or reach back over the beginning of the shape. -/
theorem division_terminates_manyStops :
    2 ≤ manyStops.length ∧ shortShape.length < manyStops.length ∧
      ∃ l, (Loop.start shortShape manyStops).run shortShape manyStops 5 = .ok l ∧
        l.pending = [] ∧ l.popped = 5 ∧ l.anchored.Perm [1, 2] ∧
        divisionOffsets shortShape manyStops = .ok l.offsets ∧ l.offsets.length = 4 ∧
        l.offsets.head? = some 0 ∧ l.offsets.getLast? = some 1 := by
  refine ⟨by decide, by decide, ?_⟩
  have two : 2 ≤ manyStops.length := by decide
  rcases division_terminates shortShape two with found | ⟨-, failed, -⟩
  · exact found
  · have calm : (divisionOffsets shortShape manyStops).toOption.isSome = true := by decide +kernel
    rw [failed] at calm
    cases calm

end StopAlign
