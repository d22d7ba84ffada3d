import StopAlign.Proofs.Align.Sweep

/-!
# Renewal — divisions that search every fit anew

- `Slot.renew`, `divideWith`, `renewedOffsets` : the division without fits that are kept
- `divideWith_narrow`   : where each stop has one point left, every division finds it
- `Uncut`               : a fit on a segment that the window has not cut off
- `renew_of_uncut`      : such a fit is found again
- `Divides.renewed`     : if no fit is on a segment that was cut off, the offsets are the same
- `renewedOffsets_eq`   : the same for all stops, and where it is always so
- `renewedOffsets_looping` : a shape that comes back, where a kept fit leads to another offset

A fit that is kept may have been found on a segment of which the window has only one end left. Its
distance is that of the whole segment then, and the search anew does not see the segment any more.
-/

namespace StopAlign

open Outcome Polyline

/-! ## Divisions with and without kept fits -/

/-- Search a fit anew, whatever the one that the slot has. -/
def Slot.renew (shape : Polyline) (r : Range) (s : Slot) : Except Fault Slot := do
  let fit ← s.search shape r
  return { s with fit }

/-- Divide a range with a way to refit its slots. -/
def divideWith (refit : Range → Slot → Except Fault Slot) :
    Nat → Range → List Slot → Except Fault Division
  | 0, r, _ => return .leaf r
  | fuel + 1, r, slots => do
    let fitted ← slots.mapM (refit r)
    match pick? fitted with
    | none => return .leaf r
    | some p =>
      let left ← divideWith refit fuel ⟨r.low, p.best.anchor⟩ p.before
      let right ← divideWith refit fuel ⟨p.best.anchor, r.high⟩ p.after
      return .node r fitted p.best left right

/-- The offsets of all stops, where every range searches the fits of all its stops. -/
def renewedOffsets (shape : Polyline) (stops : List Point) : Except Fault (List Int) := do
  let inner := slotsFrom 1 stops.tail.dropLast
  let d ← divideWith (Slot.renew shape) inner.length (wholeRange shape stops) inner
  return 0 :: (d.offsets ++ [lastOffset shape])

theorem divideWith_refit (shape : Polyline) (fuel : Nat) (r : Range) (slots : List Slot) :
    divideWith (Slot.refit shape) fuel r slots = divide shape fuel r slots := by
  induction fuel generalizing r slots with
  | zero => rfl
  | succ fuel ih =>
    have same : divideWith (Slot.refit shape) fuel = divide shape fuel :=
      funext fun r => funext fun slots => ih r slots
    unfold divideWith
    rw [same]
    rfl

theorem divideWith_succ {refit : Range → Slot → Except Fault Slot} {r : Range}
    {slots fitted : List Slot} {p : Pick} {fuel : Nat} {left right : Division}
    (refitted : slots.mapM (refit r) = .ok fitted) (picked : pick? fitted = some p)
    (before : divideWith refit fuel ⟨r.low, p.best.anchor⟩ p.before = .ok left)
    (after : divideWith refit fuel ⟨p.best.anchor, r.high⟩ p.after = .ok right) :
    divideWith refit (fuel + 1) r slots = .ok (.node r fitted p.best left right) := by
  unfold divideWith
  rw [refitted]
  show (match pick? fitted with | none => _ | some p => _) = _
  rw [picked]
  show (divideWith refit fuel ⟨r.low, p.best.anchor⟩ p.before >>= _) = _
  rw [before]
  show (divideWith refit fuel ⟨p.best.anchor, r.high⟩ p.after >>= _) = _
  rw [after]
  rfl

/-- A division that is one without fuel is found with enough of it. -/
theorem divide_of_divides {shape : Polyline} {r : Range} {slots : List Slot} {d : Division}
    (h : Divides shape r slots d) {fuel : Nat} (enough : slots.length ≤ fuel) :
    divide shape fuel r slots = .ok d := by
  induction h generalizing fuel with
  | leaf r => cases fuel <;> rfl
  | node refitted picked before after ihl ihr =>
    have parts := length_pick picked
    have same := (mapM_eq_ok refitted).length_eq
    cases fuel with
    | zero => omega
    | succ fuel =>
      rw [← divideWith_refit]
      refine divideWith_succ refitted picked ?_ ?_
      · rw [divideWith_refit]
        exact ihl (by omega)
      · rw [divideWith_refit]
        exact ihr (by omega)

theorem offsets_node (r : Range) (slots : List Slot) (s : Slot) (left right : Division) :
    (Division.node r slots s left right).offsets =
      left.offsets ++ s.fit.offset :: right.offsets := by
  simp [Division.offsets, Division.chosen]

/-! ## One point for each stop -/

theorem closestPoint_short (p : Point) {line : Polyline} (short : line.length < 2) :
    closestPoint p line = .ok ⟨0, 0⟩ := by
  unfold closestPoint
  rw [if_pos short]
  rfl

/-- A way to refit that keeps the stop and, in a window of one point, finds that point. -/
structure Refits (shape : Polyline) (refit : Range → Slot → Except Fault Slot) : Prop where
  stop : ∀ r s t, refit r s = .ok t → t.stop = s.stop
  narrow : ∀ r s, Roomy shape r → Between r s.stop → r.width = 1 →
    ∃ t, refit r s = .ok t ∧ t.fit.offset = r.windowStart s.stop

theorem renew_narrow {shape : Polyline} {r : Range} {s : Slot} (roomy : Roomy shape r)
    (inside : Between r s.stop) (narrow : r.width = 1) :
    s.search shape r = .ok ⟨r.windowStart s.stop, 0⟩ := by
  have points := roomy.length_window inside
  refine bind_eq_ok.mpr ⟨_, closestPoint_short s.place (by omega), ?_⟩
  simp only [Int.add_zero]
  rfl

theorem refits_renew (shape : Polyline) : Refits shape (Slot.renew shape) where
  stop := by
    intro r s t h
    rcases bind_eq_ok.mp h with ⟨fit, -, last⟩
    cases last
    rfl
  narrow := by
    intro r s roomy inside narrow
    exact ⟨_, bind_eq_ok.mpr ⟨_, renew_narrow roomy inside narrow, rfl⟩, rfl⟩

theorem refits_refit (shape : Polyline) : Refits shape (Slot.refit shape) where
  stop := fun r s t h => (Slot.refit_eq_ok h).1
  narrow := by
    intro r s roomy inside narrow
    unfold Slot.refit
    by_cases kept : r.admits s.stop s.fit.offset = true
    · rw [if_pos kept]
      rw [Range.admits, Bool.and_eq_true, decide_eq_true_iff, decide_eq_true_iff] at kept
      exact ⟨s, rfl, by omega⟩
    · rw [if_neg kept]
      exact ⟨_, bind_eq_ok.mpr ⟨_, renew_narrow roomy inside narrow, rfl⟩, rfl⟩

/-- Where each stop has one point left, every division finds it, whatever it keeps. -/
theorem divideWith_narrow {shape : Polyline} {refit : Range → Slot → Except Fault Slot}
    (refits : Refits shape refit) {fuel : Nat} {r : Range} {slots : List Slot}
    (enough : slots.length ≤ fuel) (seated : Seated r slots) (roomy : Roomy shape r)
    (narrow : r.width = 1) :
    ∃ d, divideWith refit fuel r slots = .ok d ∧
      d.offsets = slots.map fun s => r.windowStart s.stop := by
  induction fuel generalizing r slots with
  | zero =>
    obtain rfl : slots = [] := List.length_eq_zero_iff.mp (Nat.le_zero.mp enough)
    exact ⟨.leaf r, rfl, rfl⟩
  | succ fuel ih =>
    have step : ∀ s ∈ slots, ∃ t, refit r s = .ok t ∧ t.fit.offset = r.windowStart s.stop :=
      fun s member => refits.narrow r s roomy (seated.stop_lt member) narrow
    rcases mapM_of_forall fun s member => (step s member).imp fun _ h => h.1 with
      ⟨fitted, refitted⟩
    have stops : fitted.map (·.stop) = slots.map (·.stop) :=
      map_eq_of_mapM (refits.stop r) refitted
    have same : slots.length = fitted.length := (mapM_eq_ok refitted).length_eq
    have seated' : Seated r fitted := ⟨stops.trans (same ▸ seated.stops), same ▸ seated.count⟩
    have offset : ∀ t ∈ fitted, t.fit.offset = r.windowStart t.stop := by
      intro t member
      rcases mem_of_mapM refitted member with ⟨s, among, ok⟩
      rcases step s among with ⟨t', ok', here⟩
      cases ok.symm.trans ok'
      rw [here, refits.stop r s t ok]
    have starts : slots.map (fun s => r.windowStart s.stop) =
        fitted.map fun s => r.windowStart s.stop := by
      have both := congrArg (List.map r.windowStart) stops
      simp only [List.map_map] at both
      exact both.symm
    cases picked : pick? fitted with
    | none =>
      obtain rfl := pick?_eq_none picked
      refine ⟨.leaf r, ?_, by rw [starts]; rfl⟩
      unfold divideWith
      rw [refitted]
      rfl
    | some p =>
      have parts := length_pick picked
      have whole := pick?_eq_some picked
      have here : p.best ∈ fitted := whole ▸ List.mem_append_right _ List.mem_cons_self
      have inside := seated'.stop_lt here
      have at' := offset p.best here
      unfold Range.windowStart at at'
      have admitted : r.admits p.best.stop p.best.fit.offset = true := by
        rw [Range.admits, Bool.and_eq_true, decide_eq_true_iff, decide_eq_true_iff,
          Range.windowStart]
        omega
      rcases roomy.split inside admitted with ⟨roomyLow, roomyHigh⟩
      rw [whole] at seated'
      rcases seated'.split with ⟨seatedLow, seatedHigh⟩
      -- both halves have one point for each stop, at the same distance behind it
      unfold Range.width at narrow
      rcases ih (by omega) seatedLow roomyLow (by dsimp only [Range.width, Slot.anchor]; omega) with
        ⟨left, before, lower⟩
      rcases ih (by omega) seatedHigh roomyHigh (by dsimp only [Range.width, Slot.anchor]; omega)
        with ⟨right, after, upper⟩
      have moved : (fun s : Slot => Range.windowStart ⟨p.best.anchor, r.high⟩ s.stop) =
          fun s => r.windowStart s.stop := by
        funext s
        dsimp only [Range.windowStart, Slot.anchor]
        omega
      refine ⟨_, divideWith_succ refitted picked before after, ?_⟩
      rw [offsets_node, lower, upper, moved, starts, whole, List.map_append, List.map_cons,
        offset p.best here]
      rfl

/-! ## Fits on segments that are cut off -/

/-- The fit of a slot was searched in a range around, and the nearest segment there lies in the
window. -/
structure Uncut (shape : Polyline) (r : Range) (s : Slot) : Prop where
  source : ∃ R best, Encloses R r ∧ Roomy shape R ∧ Found shape R s ∧
    nearest s.place (R.window shape s.stop) = .ok best ∧
    r.windowStart s.stop ≤ R.windowStart s.stop + best.leg.index ∧
    R.windowStart s.stop + best.leg.index + 1 < r.windowStart s.stop + r.width

/-- Wherever a window has a segment, the fit of its stop lies on one that is not cut off. -/
def Division.Uncut (shape : Polyline) : Division → Prop
  | .leaf _ => True
  | .node r slots _ left right =>
    (2 ≤ r.width → ∀ s ∈ slots, StopAlign.Uncut shape r s) ∧ left.Uncut shape ∧ right.Uncut shape

/-- A fit on a segment that is not cut off is found again. -/
theorem renew_of_uncut {shape : Polyline} {r : Range} {s : Slot} (uncut : Uncut shape r s)
    (roomy : Roomy shape r) (inside : Between r s.stop) : s.renew shape r = .ok s := by
  rcases uncut.source with ⟨R, best, encloses, roomy', ⟨fit, closest, same⟩, near, low, high⟩
  have nested := encloses.nested s.stop
  have points := roomy.length_window inside
  have points' := roomy'.length_window (encloses.between inside)
  have part := encloses.part roomy roomy' inside
  unfold Nested at nested
  have shift : (r.shiftIn R s.stop : Int) = r.windowStart s.stop - R.windowStart s.stop := by
    unfold Range.shiftIn
    omega
  have again := closestPoint_part part near (by omega) (by omega) (by omega) closest
  refine bind_eq_ok.mpr ⟨s.fit, bind_eq_ok.mpr ⟨_, again, ?_⟩, rfl⟩
  rw [same, shift]
  refine congrArg Except.ok ?_
  rw [Fit.mk.injEq]
  exact ⟨by dsimp only; omega, rfl⟩

/-- A refitted slot that would be found again is found from the one before, too. -/
theorem renew_of_refit {shape : Polyline} {r : Range} {s t : Slot} (refit : s.refit shape r = .ok t)
    (again : t.renew shape r = .ok t) : s.renew shape r = .ok t := by
  rcases Slot.refit_eq_ok refit with ⟨stop, place, -⟩
  rcases s with ⟨stop', place', fit⟩
  rcases t with ⟨stop'', place'', fit'⟩
  cases stop
  cases place
  exact again

/-- The ranges on both sides of a chosen slot. -/
structure Halves (shape : Polyline) (r : Range) (p : Pick) : Prop where
  seatedLow : Seated ⟨r.low, p.best.anchor⟩ p.before
  seatedHigh : Seated ⟨p.best.anchor, r.high⟩ p.after
  roomyLow : Roomy shape ⟨r.low, p.best.anchor⟩
  roomyHigh : Roomy shape ⟨p.best.anchor, r.high⟩
  enclosesLow : Encloses r ⟨r.low, p.best.anchor⟩
  enclosesHigh : Encloses r ⟨p.best.anchor, r.high⟩

theorem halves_of_pick {shape : Polyline} {r : Range} {slots fitted : List Slot} {p : Pick}
    (refitted : slots.mapM (Slot.refit shape r) = .ok fitted) (picked : pick? fitted = some p)
    (seated : Seated r slots) (roomy : Roomy shape r) : Halves shape r p := by
  have whole := pick?_eq_some picked
  have here : p.best ∈ fitted := whole ▸ List.mem_append_right _ List.mem_cons_self
  have seated' := seated.of_refit refitted
  have inside := seated'.stop_lt here
  have admitted : r.admits p.best.stop p.best.fit.offset = true := by
    rcases mem_of_mapM refitted here with ⟨s, -, refit⟩
    exact roomy.admits_of_refit ((Slot.refit_eq_ok refit).1 ▸ inside) refit
  rw [whole] at seated'
  exact ⟨seated'.split.1, seated'.split.2, (roomy.split inside admitted).1,
    (roomy.split inside admitted).2, (encloses_split inside admitted).1,
    (encloses_split inside admitted).2⟩

theorem Divides.renewed_narrow {shape : Polyline} {r : Range} {slots : List Slot} {d : Division}
    (h : Divides shape r slots d) (seated : Seated r slots) (roomy : Roomy shape r)
    (narrow : ¬ 2 ≤ r.width) {fuel : Nat} (enough : slots.length ≤ fuel) :
    ∃ d', divideWith (Slot.renew shape) fuel r slots = .ok d' ∧ d'.offsets = d.offsets := by
  have spread := roomy.spread
  have one : r.width = 1 := by
    unfold Range.width at narrow ⊢
    omega
  rcases divideWith_narrow (refits_renew shape) enough seated roomy one with ⟨d', found, same⟩
  rcases divideWith_narrow (refits_refit shape) enough seated roomy one with ⟨d'', kept, same'⟩
  rw [divideWith_refit] at kept
  cases kept.symm.trans (divide_of_divides h enough)
  exact ⟨d', found, same.trans same'.symm⟩

/-- If no fit is on a segment that was cut off, the division without kept fits finds the same
offsets. -/
theorem Divides.renewed {shape : Polyline} {r : Range} {slots : List Slot} {d : Division}
    (h : Divides shape r slots d) (seated : Seated r slots) (roomy : Roomy shape r)
    (uncut : d.Uncut shape) {fuel : Nat} (enough : slots.length ≤ fuel) :
    ∃ d', divideWith (Slot.renew shape) fuel r slots = .ok d' ∧ d'.offsets = d.offsets := by
  induction h generalizing fuel with
  | leaf r =>
    refine ⟨.leaf r, ?_, rfl⟩
    cases fuel <;> rfl
  | @node r slots fitted p left right refitted picked before after ihl ihr =>
    -- one point for each stop leaves no choice, whatever the fits that are kept
    by_cases wide : 2 ≤ r.width
    · rcases uncut with ⟨here, uncutLow, uncutHigh⟩
      rcases List.forall₂_iff_get.mp (mapM_eq_ok refitted) with ⟨same, refits⟩
      have seated' := seated.of_refit refitted
      have anew : slots.mapM (Slot.renew shape r) = .ok fitted := by
        refine mapM_of_forall₂ (List.forall₂_iff_get.mpr ⟨same, fun i within within' => ?_⟩)
        have member := List.getElem_mem within'
        exact renew_of_refit (refits i within within')
          (renew_of_uncut (here wide _ member) roomy (seated'.stop_lt member))
      have halves := halves_of_pick refitted picked seated roomy
      have parts := length_pick picked
      cases fuel with
      | zero => omega
      | succ fuel =>
        rcases ihl halves.seatedLow halves.roomyLow uncutLow
          (show p.before.length ≤ fuel by omega) with ⟨left', before', lower⟩
        rcases ihr halves.seatedHigh halves.roomyHigh uncutHigh
          (show p.after.length ≤ fuel by omega) with ⟨right', after', upper⟩
        refine ⟨_, divideWith_succ anew picked before' after', ?_⟩
        rw [offsets_node, offsets_node, lower, upper]
    · exact (Divides.node refitted picked before after).renewed_narrow seated roomy wide enough

/-! ## Where no segment is cut off -/

theorem Encloses.width_le {outer inner : Range} (h : Encloses outer inner) :
    inner.width ≤ outer.width := by
  have low := h.lowSlack
  have high := h.highSlack
  unfold Range.width
  omega

/-- A fit that was searched in a window no wider than the present one is not on a segment that is
cut off. -/
theorem uncut_of_found {shape : Polyline} {r R : Range} {s : Slot} (found : Found shape R s)
    (encloses : Encloses R r) (roomy : Roomy shape R) (inside : Between r s.stop)
    (wide : 2 ≤ r.width) (same : R.width ≤ r.width) : Uncut shape r s := by
  rcases found.searched with ⟨fit, closest, -⟩
  have points := roomy.length_window (encloses.between inside)
  have nested := encloses.nested s.stop
  unfold Nested at nested
  rcases (closestPoint_eq_ok (by omega)).mp closest with ⟨best, -, -, near, -⟩
  have bounds := mem_legsFrom (nearest_mem near)
  exact ⟨R, best, encloses, roomy, found, near, by omega, by omega⟩

/-- A first fit is in no window, so that a refitted slot has another one. -/
theorem found_of_first {shape : Polyline} {r : Range} {s t : Slot} (roomy : Roomy shape r)
    (inside : Between r s.stop) (first : s.fit.offset = 0) (refit : s.refit shape r = .ok t) :
    Found shape r t := by
  rcases found_of_refit refit with ⟨-, kept⟩ | found
  · have start := roomy.windowStart_nonneg inside
    rw [Range.admits, Bool.and_eq_true, decide_eq_true_iff] at kept
    omega
  · exact found

/-- Windows of two points are nowhere cut off from wider ones. -/
theorem Divides.uncut_of_width {shape : Polyline} {r : Range} {slots : List Slot} {d : Division}
    (h : Divides shape r slots d) (seated : Seated r slots) (roomy : Roomy shape r)
    (width : r.width ≤ 2) (traced : ∀ s ∈ slots, s.fit.offset = 0 ∨
      ∃ R, Encloses R r ∧ Roomy shape R ∧ R.width ≤ 2 ∧ Found shape R s) : d.Uncut shape := by
  -- a window of two points lies in another one of two points as a whole or not at all
  induction h with
  | leaf r => trivial
  | @node r slots fitted p left right refitted picked before after ihl ihr =>
    have found : ∀ t ∈ fitted,
        ∃ R, Encloses R r ∧ Roomy shape R ∧ R.width ≤ 2 ∧ Found shape R t := by
      intro t member
      rcases mem_of_mapM refitted member with ⟨s, among, refit⟩
      have own : Found shape r t →
          ∃ R, Encloses R r ∧ Roomy shape R ∧ R.width ≤ 2 ∧ Found shape R t :=
        fun found => ⟨r, Encloses.refl r, roomy, width, found⟩
      rcases traced s among with first | source
      · exact own (found_of_first roomy (seated.stop_lt among) first refit)
      · rcases found_of_refit refit with ⟨rfl, -⟩ | found
        · exact source
        · exact own found
    have halves := halves_of_pick refitted picked seated roomy
    have whole := pick?_eq_some picked
    refine ⟨fun wide t member => ?_, ?_, ?_⟩
    · rcases found t member with ⟨R, encloses, roomy', narrow, source⟩
      exact uncut_of_found source encloses roomy' ((seated.of_refit refitted).stop_lt member) wide
        (narrow.trans wide)
    · refine ihl halves.seatedLow halves.roomyLow (halves.enclosesLow.width_le.trans width) ?_
      intro s member
      rcases found s (whole ▸ List.mem_append_left _ member) with ⟨R, encloses, facts⟩
      exact .inr ⟨R, encloses.trans halves.enclosesLow, facts⟩
    · refine ihr halves.seatedHigh halves.roomyHigh (halves.enclosesHigh.width_le.trans width) ?_
      intro s member
      rcases found s (whole ▸ List.mem_append_right _ (List.mem_cons_of_mem _ member)) with
        ⟨R, encloses, facts⟩
      exact .inr ⟨R, encloses.trans halves.enclosesHigh, facts⟩

theorem Divides.eq_leaf {shape : Polyline} {r : Range} {d : Division}
    (h : Divides shape r [] d) : d = .leaf r := by
  cases h with
  | leaf => rfl
  | node refitted picked before after =>
    have count := (mapM_eq_ok refitted).length_eq
    have parts := length_pick picked
    rw [List.length_nil] at count
    omega

/-- A single stop is searched in its only range. -/
theorem Divides.uncut_of_single {shape : Polyline} {r : Range} {slots : List Slot} {d : Division}
    (h : Divides shape r slots d) (seated : Seated r slots) (roomy : Roomy shape r)
    (single : slots.length ≤ 1) (first : ∀ s ∈ slots, s.fit.offset = 0) : d.Uncut shape := by
  cases h with
  | leaf => trivial
  | @node _ _ fitted p left right refitted picked before after =>
    have count := (mapM_eq_ok refitted).length_eq
    have parts := length_pick picked
    rw [List.length_eq_zero_iff.mp (show p.before.length = 0 by omega)] at before
    rw [List.length_eq_zero_iff.mp (show p.after.length = 0 by omega)] at after
    rw [before.eq_leaf, after.eq_leaf]
    refine ⟨fun wide t member => ?_, trivial, trivial⟩
    rcases mem_of_mapM refitted member with ⟨s, among, refit⟩
    have found := found_of_first roomy (seated.stop_lt among) (first s among) refit
    exact uncut_of_found found (Encloses.refl r) roomy
      ((seated.of_refit refitted).stop_lt member) wide (Int.le_refl _)

theorem offset_slotsFrom {stop : Nat} {places : List Point} :
    ∀ s ∈ slotsFrom stop places, s.fit.offset = 0 := by
  induction places generalizing stop with
  | nil => exact fun s member => nomatch member
  | cons p rest ih => exact List.forall_mem_cons.mpr ⟨rfl, ih⟩

/-- Where the division keeps no fit on a segment that was cut off, searching every fit anew finds
the same offsets. That is always so with at most one stop between the first and the last one, and
with at most one point more than stops. -/
theorem renewedOffsets_eq (shape : Polyline) (stops : List Point) (two : 2 ≤ stops.length)
    (room : stops.length ≤ shape.length) {d : Division} (h : division shape stops = .ok d)
    (uncut : d.Uncut shape ∨ stops.length ≤ 3 ∨ shape.length ≤ stops.length + 1) :
    renewedOffsets shape stops = divisionOffsets shape stops := by
  have divides := divides_of_divide (Nat.le_refl _) h
  rw [← wholeRange] at divides
  have seated := seated_whole shape two
  have roomy := roomy_whole shape two room
  have whole : d.Uncut shape := by
    rcases uncut with uncut | few | close
    · exact uncut
    · refine divides.uncut_of_single seated roomy ?_ offset_slotsFrom
      rw [length_slotsFrom, List.length_dropLast, List.length_tail]
      omega
    · refine divides.uncut_of_width seated roomy ?_ fun s member => .inl (offset_slotsFrom s member)
      dsimp only [wholeRange, lastOffset, Range.width]
      omega
  rcases divides.renewed seated roomy whole (Nat.le_refl _) with ⟨d', anew, same⟩
  rw [divisionOffsets_eq two, h, renewedOffsets]
  show (divideWith _ _ _ _ >>= _) = _
  rw [anew]
  show Except.ok (0 :: (d'.offsets ++ [lastOffset shape])) = _
  rw [same]
  rfl

/-- One point more than stops, so that no fit is on a segment that was cut off. -/
theorem renewedOffsets_crossing :
    2 ≤ crossingStops.length ∧ crossingStops.length ≤ crossing.length ∧
      crossing.length ≤ crossingStops.length + 1 ∧
      (∃ d, division crossing crossingStops = .ok d) ∧
      renewedOffsets crossing crossingStops = divisionOffsets crossing crossingStops := by
  have calm : (division crossing crossingStops).toOption.isSome = true := by
    decide +kernel
  cases h : division crossing crossingStops with
  | error fault =>
    rw [h] at calm
    cases calm
  | ok d =>
    exact ⟨by decide, by decide, by decide, ⟨d, rfl⟩,
      renewedOffsets_eq crossing crossingStops (by decide) (by decide) h (.inr (.inr (by decide)))⟩

/-- A shape that comes back past its middle. -/
def looping : Polyline :=
  [⟨0, -0.02⟩, ⟨0, -0.01⟩, ⟨0, 0⟩, ⟨0, 0.01⟩, ⟨0.003, 0.006⟩, ⟨0.006, 0.002⟩]

/-- Stops of which the third one is between the way out and the way back. -/
def loopingStops : List Point := [⟨0, -0.02⟩, ⟨0, 0⟩, ⟨0.0005, 0.006⟩, ⟨0.006, 0.002⟩]

/-- Two points more than stops, and two stops between the first and the last one. The third stop is
nearest to a segment that the second one cuts off: its fit stays at the end of the segment, and
searching anew finds the next point. -/
theorem renewedOffsets_looping :
    2 ≤ loopingStops.length ∧ loopingStops.length ≤ looping.length ∧
      (divisionOffsets looping loopingStops).toOption = some [0, 2, 3, 5] ∧
      (renewedOffsets looping loopingStops).toOption = some [0, 2, 4, 5] := by
  decide +kernel

end StopAlign
