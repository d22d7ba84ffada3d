import StopAlign.Proofs.Align.Sweep

/-!
# History — what a range finds when it is popped, and what it leaves behind

- `Tidy`          : what holds between two steps, of the ranges and of the fits of their stops
- `Stepped`       : what a step does with the table and the stack
- `Tidy.fitted`   : a refitted slot comes from a range that encloses the popped one
- `Tidy.step`, `Tidy.run` : every step keeps the table tidy, and so does every run
- `settled_run`   : the slot of a stop that is in no pending range stays as it is
- `sweep_history` : the whole of it, for every range that is popped

The pending ranges share the table of slots, but they have no stops in common. A range that was
popped encloses a pending one or has no stops in common with it, so that the fits of a pending range
were searched in ranges around it, or not at all.
-/

namespace StopAlign

open Outcome Number Polyline

namespace Sweep

/-! ## The table -/

section Table

variable {r : Range} {slots fitted : List Slot} {i : Nat}

theorem length_inner (high : r.high.stop ≤ slots.length) :
    (inner r slots).length = r.high.stop - (r.low.stop + 1) := by
  rw [inner, List.length_drop, List.length_take, Nat.min_eq_left high]

theorem getElem?_inner (inside : Between r i) :
    (inner r slots)[i - (r.low.stop + 1)]? = slots[i]? := by
  have low := inside.1
  rw [inner, List.getElem?_drop, List.getElem?_take, if_pos (by have := inside.2; omega)]
  congr 1
  omega

theorem getElem?_write_inside (order : r.low.stop < r.high.stop) (high : r.high.stop ≤ slots.length)
    (same : fitted.length = (inner r slots).length) (inside : Between r i) :
    (write r slots fitted)[i]? = fitted[i - (r.low.stop + 1)]? := by
  rcases inside with ⟨low, before⟩
  rw [length_inner high] at same
  rw [write, List.getElem?_append_right (by rw [List.length_take]; omega), List.length_take,
    Nat.min_eq_left (by omega), List.getElem?_append_left (by omega)]

theorem getElem?_write_outside (order : r.low.stop < r.high.stop)
    (high : r.high.stop ≤ slots.length) (same : fitted.length = (inner r slots).length)
    (outside : ¬ Between r i) : (write r slots fitted)[i]? = slots[i]? := by
  rw [length_inner high] at same
  unfold Between at outside
  rw [write]
  by_cases low : i < r.low.stop + 1
  · rw [List.getElem?_append_left (by rw [List.length_take]; omega), List.getElem?_take, if_pos low]
  · rw [List.getElem?_append_right (by rw [List.length_take]; omega), List.length_take,
      Nat.min_eq_left (by omega), List.getElem?_append_right (by omega), List.getElem?_drop]
    congr 1
    omega

theorem length_write (order : r.low.stop < r.high.stop) (high : r.high.stop ≤ slots.length)
    (same : fitted.length = (inner r slots).length) :
    (write r slots fitted).length = slots.length := by
  rw [length_inner high] at same
  rw [write, List.length_append, List.length_append, List.length_take, List.length_drop]
  omega

end Table

/-! ## Between two steps -/

/-- Two ranges without a stop in common. -/
def Apart (r r' : Range) : Prop := r.high.stop ≤ r'.low.stop ∨ r'.high.stop ≤ r.low.stop

/-- A range between two of so many stops, with room on the shape. -/
structure Proper (shape : Polyline) (stops : Nat) (r : Range) : Prop where
  roomy : Roomy shape r
  order : r.low.stop < r.high.stop
  last : r.high.stop < stops

/-- What holds between two steps: each stop has its slot, the pending ranges have no stops in common
with each other, and none with a popped range unless that one encloses them. The fit of a stop in a
pending range is the first one or was searched in a range that encloses it. -/
structure Tidy (shape : Polyline) (stops : List Point) (w : Sweep) : Prop where
  length_eq : w.slots.length = stops.length
  slot : ∀ i (s : Slot), w.slots[i]? = some s → s.stop = i ∧ stops[i]? = some s.place
  pending : ∀ r ∈ w.pending, Proper shape stops.length r
  apart : w.pending.Pairwise fun r r' => r.high.stop ≤ r'.low.stop
  popped : ∀ R ∈ w.popped, Proper shape stops.length R
  history : ∀ r ∈ w.pending, ∀ R ∈ w.popped, Encloses R r ∨ Apart R r
  traced : ∀ r ∈ w.pending, ∀ i (s : Slot), Between r i → w.slots[i]? = some s →
    s.fit.offset = 0 ∨ ∃ R ∈ w.popped, Encloses R r ∧ Found shape R s

/-- The slot on which a range is divided: of least distance in the table, the first one of several,
as long as all distances are numbers. -/
structure Chosen (r : Range) (slots : List Slot) (best : Slot) : Prop where
  between : Between r best.stop
  here : slots[best.stop]? = some best
  least : (∀ i (s : Slot), Between r i → slots[i]? = some s → s.fit.distance.isNaN = false) →
    ∀ i (s : Slot), Between r i → slots[i]? = some s → best.fit.distance ≤ s.fit.distance ∧
      (i < best.stop → best.fit.distance < s.fit.distance)

/-- What a step does with a range: its stops are refitted and all others left alone, and a range
with stops is divided on one of them. -/
structure Stepped (shape : Polyline) (w : Sweep) (r : Range) (rest : List Range) (t : Sweep) :
    Prop where
  length_eq : t.slots.length = w.slots.length
  outside : ∀ i, ¬ Between r i → t.slots[i]? = w.slots[i]?
  inside : ∀ i, Between r i → ∃ s s', w.slots[i]? = some s ∧ t.slots[i]? = some s' ∧
    s.refit shape r = .ok s'
  popped : t.popped = r :: w.popped
  pending : r.high.stop ≤ r.low.stop + 1 ∧ t.pending = rest ∨
    ∃ best, Chosen r t.slots best ∧
      t.pending = ⟨r.low, best.anchor⟩ :: ⟨best.anchor, r.high⟩ :: rest

section Step

variable {shape : Polyline} {stops : List Point} {w t : Sweep} {r : Range} {rest : List Range}

theorem Tidy.stepped (tidy : Tidy shape stops w) (top : w.pending = r :: rest)
    (h : w.step shape = .ok t) : Stepped shape w r rest t := by
  have proper := tidy.pending r (top ▸ List.mem_cons_self)
  have high : r.high.stop ≤ w.slots.length := tidy.length_eq ▸ proper.last.le
  unfold step at h
  rw [top] at h
  rcases bind_eq_ok.mp h with ⟨fitted, refitted, last⟩
  cases last
  have same : fitted.length = (inner r w.slots).length := (mapM_eq_ok refitted).length_eq.symm
  have refit : ∀ i, Between r i → ∃ s s', w.slots[i]? = some s ∧
      (write r w.slots fitted)[i]? = some s' ∧ s.refit shape r = .ok s' := by
    intro i inside
    have within : i < w.slots.length := inside.2.trans_le high
    have here := List.getElem?_eq_getElem within
    rcases getElem?_mapM refitted ((getElem?_inner inside).trans here) with ⟨s', there, ok⟩
    exact ⟨_, s', here, (getElem?_write_inside proper.order high same inside).trans there, ok⟩
  refine ⟨length_write proper.order high same,
    fun i outside => getElem?_write_outside proper.order high same outside, refit, rfl, ?_⟩
  have length := length_inner high
  cases picked : pick? fitted with
  | none =>
    obtain rfl := pick?_eq_none picked
    rw [List.length_nil] at same
    exact .inl ⟨by omega, rfl⟩
  | some p =>
    have whole := pick?_eq_some picked
    have first : fitted[p.before.length]? = some p.best := by
      rw [whole, List.getElem?_append_right (Nat.le_refl _), Nat.sub_self]
      rfl
    have count := (List.getElem?_eq_some_iff.mp first).1
    -- the position among the refitted slots and the one in the table
    have inside : Between r (r.low.stop + 1 + p.before.length) := ⟨by omega, by omega⟩
    have at' (i : Nat) (between : Between r i) :=
      getElem?_write_inside proper.order high same between
    have here : (write r w.slots fitted)[r.low.stop + 1 + p.before.length]? = some p.best := by
      rw [at' _ inside, Nat.add_sub_cancel_left, first]
    have stop : p.best.stop = r.low.stop + 1 + p.before.length := by
      rcases refit _ inside with ⟨s, s', old, new, ok⟩
      cases here.symm.trans new
      rw [(Slot.refit_eq_ok ok).1, (tidy.slot _ s old).1]
    refine .inr ⟨p.best, ⟨stop ▸ inside, stop ▸ here, fun numbers i s between there => ?_⟩, rfl⟩
    have number : ∀ s ∈ fitted, s.fit.distance.isNaN = false := by
      intro s member
      rcases List.mem_iff_getElem?.mp member with ⟨j, among⟩
      have within := (List.getElem?_eq_some_iff.mp among).1
      have between : Between r (r.low.stop + 1 + j) := ⟨by omega, by omega⟩
      refine numbers _ s between ?_
      rw [at' _ between, Nat.add_sub_cancel_left, among]
    have best := firstLeast_pick picked number
    have low := between.1
    rw [at' i between] at there
    refine ⟨best.least s (List.mem_of_getElem? there), fun earlier => ?_⟩
    exact best.first _ s (by omega) there

/-- A refitted slot lies in its window, and its fit was searched in a range that encloses the popped
one, or in the popped one itself. -/
theorem Tidy.fitted (tidy : Tidy shape stops w) (top : w.pending = r :: rest)
    (stepped : Stepped shape w r rest t) {i : Nat} {s : Slot} (inside : Between r i)
    (here : t.slots[i]? = some s) :
    s.stop = i ∧ stops[i]? = some s.place ∧ r.admits i s.fit.offset = true ∧
      ∃ R ∈ r :: w.popped, Encloses R r ∧ Found shape R s := by
  have member : r ∈ w.pending := top ▸ List.mem_cons_self
  have roomy := (tidy.pending r member).roomy
  rcases stepped.inside i inside with ⟨old, new, before, after, refit⟩
  cases here.symm.trans after
  rcases tidy.slot i old before with ⟨stop, place⟩
  rcases Slot.refit_eq_ok refit with ⟨stop', place', -⟩
  have own : s.stop = i := stop'.trans stop
  have admitted := roomy.admits_of_refit (stop ▸ inside) refit
  rw [own] at admitted
  refine ⟨own, place' ▸ place, admitted, ?_⟩
  rcases found_of_refit refit with ⟨rfl, kept⟩ | found
  · rcases tidy.traced r member i s inside before with none | ⟨R, among, encloses, found⟩
    · -- the first fit of all is not in any window
      have first := roomy.windowStart_nonneg inside
      rw [Range.admits, Bool.and_eq_true, decide_eq_true_iff] at admitted
      omega
    · exact ⟨R, List.mem_cons_of_mem r among, encloses, found⟩
  · exact ⟨r, List.mem_cons_self, Encloses.refl r, found⟩

/-- The two halves of a popped range have room, and the popped range encloses them. -/
theorem Tidy.halves (tidy : Tidy shape stops w) (top : w.pending = r :: rest)
    (stepped : Stepped shape w r rest t) {best : Slot} (chosen : Chosen r t.slots best) :
    (Proper shape stops.length ⟨r.low, best.anchor⟩ ∧ Encloses r ⟨r.low, best.anchor⟩) ∧
      Proper shape stops.length ⟨best.anchor, r.high⟩ ∧ Encloses r ⟨best.anchor, r.high⟩ := by
  have proper := tidy.pending r (top ▸ List.mem_cons_self)
  have last := proper.last
  have between := chosen.between
  rcases tidy.fitted top stepped between chosen.here with ⟨-, -, admitted, -⟩
  rcases proper.roomy.split between admitted with ⟨roomyLow, roomyHigh⟩
  rcases encloses_split between admitted with ⟨enclosesLow, enclosesHigh⟩
  exact ⟨⟨⟨roomyLow, between.1, between.2.trans last⟩, enclosesLow⟩,
    ⟨roomyHigh, between.2, last⟩, enclosesHigh⟩

/-- What a step leaves on the stack is tidy where the popped range encloses it or is apart from
it. -/
theorem Tidy.traced_step (tidy : Tidy shape stops w) (top : w.pending = r :: rest)
    (stepped : Stepped shape w r rest t) {x : Range} (below : x ∈ rest ∨ Encloses r x) :
    (∀ R ∈ t.popped, Encloses R x ∨ Apart R x) ∧
      ∀ i (s : Slot), Between x i → t.slots[i]? = some s →
        s.fit.offset = 0 ∨ ∃ R ∈ t.popped, Encloses R x ∧ Found shape R s := by
  have member : r ∈ w.pending := top ▸ List.mem_cons_self
  rw [stepped.popped]
  rcases below with waiting | encloses
  · -- a range that waits has no stop in the popped one, whose step leaves its slots alone
    have pending : x ∈ w.pending := top ▸ List.mem_cons_of_mem r waiting
    have apart : r.high.stop ≤ x.low.stop := by
      have chain := tidy.apart
      rw [top, List.pairwise_cons] at chain
      exact chain.1 x waiting
    refine ⟨fun R among => ?_, fun i s inside here => ?_⟩
    · rcases List.mem_cons.mp among with rfl | before
      · exact .inr (.inl apart)
      · exact tidy.history x pending R before
    · have low := inside.1
      have outside : ¬ Between r i := fun between => by
        have high := between.2
        omega
      rw [stepped.outside i outside] at here
      refine (tidy.traced x pending i s inside here).imp_right ?_
      rintro ⟨R, before, facts⟩
      exact ⟨R, List.mem_cons_of_mem r before, facts⟩
  · -- a half has the popped range around it, and all that was around that
    refine ⟨fun R among => ?_, fun i s inside here => ?_⟩
    · rcases List.mem_cons.mp among with rfl | before
      · exact .inl encloses
      · have low := encloses.low
        have high := encloses.high
        refine (tidy.history r member R before).imp (fun outer => outer.trans encloses) ?_
        exact Or.imp (fun h => h.trans low) (fun h => high.trans h)
    · rcases tidy.fitted top stepped (encloses.between inside) here with
        ⟨-, -, -, R, among, outer, found⟩
      exact .inr ⟨R, among, outer.trans encloses, found⟩

/-- Every step keeps the table tidy. -/
theorem Tidy.step (tidy : Tidy shape stops w) (h : w.step shape = .ok t) :
    Tidy shape stops t := by
  cases top : w.pending with
  | nil =>
    unfold Sweep.step at h
    rw [top] at h
    cases h
    exact tidy
  | cons r rest =>
    have stepped := tidy.stepped top h
    have proper := tidy.pending r (top ▸ List.mem_cons_self)
    have chain := tidy.apart
    rw [top, List.pairwise_cons] at chain
    have waiting : ∀ x ∈ rest, Proper shape stops.length x :=
      fun x member => tidy.pending x (top ▸ List.mem_cons_of_mem r member)
    have slot : ∀ i (s : Slot), t.slots[i]? = some s → s.stop = i ∧ stops[i]? = some s.place := by
      intro i s here
      by_cases inside : Between r i
      · rcases tidy.fitted top stepped inside here with ⟨stop, place, -⟩
        exact ⟨stop, place⟩
      · rw [stepped.outside i inside] at here
        exact tidy.slot i s here
    have popped : ∀ R ∈ t.popped, Proper shape stops.length R := by
      intro R among
      rw [stepped.popped] at among
      rcases List.mem_cons.mp among with rfl | before
      · exact proper
      · exact tidy.popped R before
    have length_eq := stepped.length_eq.trans tidy.length_eq
    have traced := fun x below => tidy.traced_step top stepped (x := x) below
    rcases stepped.pending with ⟨-, pending⟩ | ⟨best, chosen, pending⟩
    · exact ⟨length_eq, slot, pending ▸ waiting, pending ▸ chain.2, popped,
        fun x member => (traced x (.inl (pending ▸ member))).1,
        fun x member => (traced x (.inl (pending ▸ member))).2⟩
    · rcases tidy.halves top stepped chosen with ⟨⟨properLow, outerLow⟩, properHigh, outerHigh⟩
      have below : ∀ x ∈ t.pending, x ∈ rest ∨ Encloses r x := by
        intro x member
        rw [pending] at member
        rcases List.mem_cons.mp member with rfl | member
        · exact .inr outerLow
        · rcases List.mem_cons.mp member with rfl | member
          · exact .inr outerHigh
          · exact .inl member
      refine ⟨length_eq, slot, ?_, ?_, popped, fun x member => (traced x (below x member)).1,
        fun x member => (traced x (below x member)).2⟩
      · rw [pending]
        exact List.forall_mem_cons.mpr ⟨properLow, List.forall_mem_cons.mpr ⟨properHigh, waiting⟩⟩
      · rw [pending]
        refine List.pairwise_cons.mpr ⟨?_, List.pairwise_cons.mpr ⟨chain.1, chain.2⟩⟩
        refine List.forall_mem_cons.mpr ⟨Nat.le_refl _, fun x member => ?_⟩
        exact chosen.between.2.le.trans (chain.1 x member)

theorem Tidy.run (tidy : Tidy shape stops w) {k : Nat} (h : w.run shape k = .ok t) :
    Tidy shape stops t := by
  induction k generalizing w with
  | zero =>
    cases h
    exact tidy
  | succ k ih =>
    rcases bind_eq_ok.mp h with ⟨next, step, rest⟩
    exact ih (tidy.step step) rest

/-! ## Settled stops -/

/-- No pending range has the stop between its anchors. -/
def Settled (w : Sweep) (i : Nat) : Prop := ∀ r ∈ w.pending, ¬ Between r i

theorem settled_step (tidy : Tidy shape stops w) {i : Nat} (settled : Settled w i)
    (h : w.step shape = .ok t) : t.slots[i]? = w.slots[i]? ∧ Settled t i := by
  cases top : w.pending with
  | nil =>
    unfold Sweep.step at h
    rw [top] at h
    cases h
    exact ⟨rfl, settled⟩
  | cons r rest =>
    have stepped := tidy.stepped top h
    have outside : ¬ Between r i := settled r (top ▸ List.mem_cons_self)
    have waiting : ∀ x ∈ rest, ¬ Between x i :=
      fun x member => settled x (top ▸ List.mem_cons_of_mem r member)
    refine ⟨stepped.outside i outside, ?_⟩
    rcases stepped.pending with ⟨-, pending⟩ | ⟨best, chosen, pending⟩
    · unfold Settled
      rw [pending]
      exact waiting
    · rcases tidy.halves top stepped chosen with ⟨⟨-, outerLow⟩, -, outerHigh⟩
      unfold Settled
      rw [pending]
      exact List.forall_mem_cons.mpr ⟨fun between => outside (outerLow.between between),
        List.forall_mem_cons.mpr ⟨fun between => outside (outerHigh.between between), waiting⟩⟩

/-- The slot of a settled stop stays as it is. -/
theorem settled_run (tidy : Tidy shape stops w) {i : Nat} (settled : Settled w i) {k : Nat}
    (h : w.run shape k = .ok t) : t.slots[i]? = w.slots[i]? := by
  induction k generalizing w with
  | zero =>
    cases h
    rfl
  | succ k ih =>
    rcases bind_eq_ok.mp h with ⟨next, step, rest⟩
    rcases settled_step tidy settled step with ⟨same, settled'⟩
    exact (ih (tidy.step step) settled' rest).trans same

/-- The chosen stop of a popped range is settled. -/
theorem settled_chosen (tidy : Tidy shape stops w) (top : w.pending = r :: rest) {best : Slot}
    (chosen : Chosen r t.slots best)
    (pending : t.pending = ⟨r.low, best.anchor⟩ :: ⟨best.anchor, r.high⟩ :: rest) :
    Settled t best.stop := by
  have chain := tidy.apart
  rw [top, List.pairwise_cons] at chain
  unfold Settled
  rw [pending]
  -- it is an anchor of both halves, and the other ranges come after it
  refine List.forall_mem_cons.mpr ⟨fun between => Nat.lt_irrefl _ between.2,
    List.forall_mem_cons.mpr ⟨fun between => Nat.lt_irrefl _ between.1, fun x member between => ?_⟩⟩
  have low := between.1
  have high := chosen.between.2
  have behind := chain.1 x member
  omega

end Step

/-! ## From the beginning -/

section Start

variable {shape : Polyline} {stops : List Point}

theorem getElem?_slotsFrom (stop i : Nat) (places : List Point) :
    (slotsFrom stop places)[i]? = places[i]?.map fun p => ⟨stop + i, p, ⟨0, 0⟩⟩ := by
  induction places generalizing stop i with
  | nil => rfl
  | cons p rest ih =>
    cases i with
    | zero => rfl
    | succ i => rw [slotsFrom, List.getElem?_cons_succ, List.getElem?_cons_succ, ih,
        Nat.add_right_comm, Nat.add_assoc]

theorem getElem?_start {i : Nat} (before : i < stops.length - 1) :
    (start shape stops).slots[i]? = stops[i]?.map fun p => ⟨i, p, ⟨0, 0⟩⟩ := by
  have within : i < (slotsFrom 0 stops.dropLast).length := by
    rw [length_slotsFrom, List.length_dropLast]
    exact before
  rw [start, List.getElem?_append_left within, getElem?_slotsFrom, List.getElem?_dropLast,
    if_pos before, Nat.zero_add]

theorem getElem?_start_last (two : 2 ≤ stops.length) :
    (start shape stops).slots[stops.length - 1]? =
      stops[stops.length - 1]?.map fun p => ⟨stops.length - 1, p, ⟨lastOffset shape, 0⟩⟩ := by
  have count : (slotsFrom 0 stops.dropLast).length = stops.length - 1 := by
    rw [length_slotsFrom, List.length_dropLast]
  have last := List.getElem?_eq_getElem (show stops.length - 1 < stops.length by omega)
  rw [start, List.getElem?_append_right (Nat.le_of_eq count), count, Nat.sub_self,
    List.getLast?_eq_getElem?, last]
  rfl

theorem length_start (two : 2 ≤ stops.length) :
    (start shape stops).slots.length = stops.length := by
  rw [start, List.getLast?_eq_getElem?, List.getElem?_eq_getElem (by omega), List.length_append,
    length_slotsFrom, List.length_dropLast]
  simp only [Option.toList_some, List.map_cons, List.map_nil, List.length_cons, List.length_nil]
  omega

theorem tidy_start (two : 2 ≤ stops.length) (room : stops.length ≤ shape.length) :
    Tidy shape stops (start shape stops) where
  length_eq := length_start two
  slot := by
    intro i s here
    have within := (List.getElem?_eq_some_iff.mp here).1
    rw [length_start two] at within
    rcases Nat.lt_or_eq_of_le (Nat.le_sub_one_of_lt within) with before | rfl
    · rw [getElem?_start before, Option.map_eq_some_iff] at here
      rcases here with ⟨p, place, rfl⟩
      exact ⟨rfl, place⟩
    · rw [getElem?_start_last two, Option.map_eq_some_iff] at here
      rcases here with ⟨p, place, rfl⟩
      exact ⟨rfl, place⟩
  pending := by
    intro r member
    obtain rfl : r = wholeRange shape stops := List.mem_singleton.mp member
    exact ⟨roomy_whole shape two room, show 0 < stops.length - 1 by omega,
      show stops.length - 1 < stops.length by omega⟩
  apart := List.pairwise_singleton _ _
  popped := fun R among => nomatch among
  history := fun r _ R among => nomatch among
  traced := by
    intro r member i s inside here
    obtain rfl : r = wholeRange shape stops := List.mem_singleton.mp member
    rw [getElem?_start inside.2, Option.map_eq_some_iff] at here
    rcases here with ⟨p, -, rfl⟩
    exact .inl rfl

end Start

end Sweep

/-- What holds of a range that is popped in `w`, and of the table and the stack that its step leaves
in `t`. -/
structure Popped (shape : Polyline) (stops : List Point) (w : Sweep) (r : Range) (rest : List Range)
    (t : Sweep) : Prop where
  /-- Each stop has a fit in its window, searched in the window of a range around. -/
  fitted : ∀ stop, Between r stop → ∃ s, t.slots[stop]? = some s ∧ s.stop = stop ∧
    stops[stop]? = some s.place ∧ r.admits stop s.fit.offset = true ∧
    ∃ R ∈ r :: w.popped, R.low.stop ≤ r.low.stop ∧ r.high.stop ≤ R.high.stop ∧ Nested r R stop ∧
      Found shape R s
  /-- Nothing in a window with a segment is nearer than the fit of its stop. -/
  least : ∀ stop (s : Slot), Between r stop → t.slots[stop]? = some s →
    2 ≤ (r.window shape stop).length →
      (∃ best, nearest s.place (r.window shape stop) = .ok best ∧
        s.fit.distance ≤ best.distance) ∧
      ∀ fit, closestPoint s.place (r.window shape stop) = .ok fit →
        s.fit.distance ≤ fit.distance
  /-- The range is divided on the first stop of least distance, and its slot is final. -/
  divided : ∃ best : Slot, Between r best.stop ∧ t.slots[best.stop]? = some best ∧
    (∀ stop (s : Slot), Between r stop → t.slots[stop]? = some s →
      best.fit.distance ≤ s.fit.distance ∧
        (stop < best.stop → best.fit.distance < s.fit.distance)) ∧
    t.pending = ⟨r.low, best.anchor⟩ :: ⟨best.anchor, r.high⟩ :: rest ∧
    ∀ k u, t.run shape k = .ok u → u.slots[best.stop]? = some best

open Sweep in
/-- The windows in a range that is popped lie in those of all ranges around. -/
theorem nested_of_tidy {shape : Polyline} {stops : List Point} {w : Sweep} {r R : Range}
    (tidy : Tidy shape stops w) (member : r ∈ w.pending) (among : R ∈ w.popped)
    (low : R.low.stop ≤ r.low.stop) (high : r.high.stop ≤ R.high.stop) (stop : Nat) :
    Nested r R stop := by
  have order := (tidy.pending r member).order
  rcases tidy.history r member R among with encloses | below | above
  · exact encloses.nested stop
  · omega
  · omega

open Sweep in
theorem popped_of_tidy {shape : Polyline} {stops : List Point} {w t : Sweep} {r : Range}
    {rest : List Range} (tidy : Tidy shape stops w) (top : w.pending = r :: rest)
    (inner : r.low.stop + 2 ≤ r.high.stop) (h : w.step shape = .ok t) :
    Popped shape stops w r rest t := by
  have stepped := tidy.stepped top h
  have member : r ∈ w.pending := top ▸ List.mem_cons_self
  have proper := tidy.pending r member
  have known : ∀ R ∈ r :: w.popped, Proper shape stops.length R :=
    List.forall_mem_cons.mpr ⟨proper, tidy.popped⟩
  refine ⟨fun stop inside => ?_, fun stop s inside here two => ?_, ?_⟩
  · rcases stepped.inside stop inside with ⟨-, s, -, here, -⟩
    rcases tidy.fitted top stepped inside here with ⟨own, place, admitted, R, among, outer, found⟩
    exact ⟨s, here, own, place, admitted, R, among, outer.low, outer.high, outer.nested stop, found⟩
  · rcases tidy.fitted top stepped inside here with ⟨rfl, -, -, R, among, outer, found⟩
    have points := proper.roomy.length_window inside
    exact found.least outer proper.roomy (known R among).roomy inside (by omega)
  · rcases stepped.pending with ⟨short, -⟩ | ⟨best, chosen, pending⟩
    · omega
    · have numbers : ∀ i (s : Slot), Between r i → t.slots[i]? = some s →
          s.fit.distance.isNaN = false := by
        intro i s inside here
        rcases tidy.fitted top stepped inside here with ⟨-, -, -, R, -, -, found⟩
        exact found.number
      refine ⟨best, chosen.between, chosen.here, chosen.least numbers, pending, ?_⟩
      intro k u run
      have settled := settled_chosen tidy top chosen pending
      exact (settled_run (tidy.step h) settled run).trans chosen.here

/-- The loop finds the offsets of the division and ends with an empty stack. Whenever it pops a
range with a stop in it, the windows lie in those of the ranges around, the fits come from there,
and the stop on which the range is divided keeps its slot from then on. -/
theorem sweep_history (shape : Polyline) (stops : List Point) (two : 2 ≤ stops.length)
    (room : stops.length ≤ shape.length) :
    sweepOffsets shape stops = divisionOffsets shape stops ∧
      (∀ w, (Sweep.start shape stops).run shape (2 * stops.length) = .ok w → w.pending = []) ∧
      ∀ k w r rest, (Sweep.start shape stops).run shape k = .ok w → w.pending = r :: rest →
        r.low.stop + 2 ≤ r.high.stop →
          (∀ R ∈ w.popped, R.low.stop ≤ r.low.stop → r.high.stop ≤ R.high.stop →
            ∀ stop, Between r stop → Nested r R stop) ∧
          ∀ t, w.step shape = .ok t → Popped shape stops w r rest t := by
  refine ⟨sweepOffsets_eq shape two, fun w done => ?_, fun k w r rest run top inner => ?_⟩
  · rcases run_start shape two with ⟨first, last, result⟩
    rw [result] at done
    cases divided : division shape stops with
    | error fault =>
      rw [divided] at done
      cases done
    | ok d =>
      rw [divided] at done
      cases done
      rfl
  · have tidy := (Sweep.tidy_start two room).run run
    have member : r ∈ w.pending := top ▸ List.mem_cons_self
    exact ⟨fun R among low high stop _ => nested_of_tidy tidy member among low high stop,
      fun t h => popped_of_tidy tidy top inner h⟩

/-- The first range of all, on a shape that comes back to its first point. -/
theorem sweep_history_crossing :
    2 ≤ crossingStops.length ∧ crossingStops.length ≤ crossing.length ∧
      sweepOffsets crossing crossingStops = divisionOffsets crossing crossingStops ∧
      ∃ t, (Sweep.start crossing crossingStops).step crossing = .ok t ∧
        Popped crossing crossingStops (Sweep.start crossing crossingStops)
          (wholeRange crossing crossingStops) [] t := by
  rcases sweep_history crossing crossingStops (by decide) (by decide) with ⟨same, -, popped⟩
  refine ⟨by decide, by decide, same, ?_⟩
  have calm : ((Sweep.start crossing crossingStops).step crossing).toOption.isSome = true := by
    decide +kernel
  cases h : (Sweep.start crossing crossingStops).step crossing with
  | error fault =>
    rw [h] at calm
    cases calm
  | ok t => exact ⟨t, rfl, (popped 0 _ _ _ rfl rfl (by decide)).2 t h⟩

end StopAlign
