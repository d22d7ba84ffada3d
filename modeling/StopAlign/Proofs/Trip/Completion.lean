import StopAlign.Proofs.Align.Strategy
import StopAlign.Proofs.Feed.Trips
import StopAlign.Proofs.Trip.Fitting
import StopAlign.Proofs.Trip.Order
import StopAlign.Shape.Table

/-!
# Completion — when matching comes to its end

- `Network.Lacks`      : what a trip lacks where it has no offsets
- `Network.Astray`     : a trip that is matched by place and has an immeasurable stop
- `Network.find_cases` : a trip has offsets, lacks something, or is astray
- `find_of_outcome`    : the fault of a pass is the one of a trip
- `Settled`            : every trip has come to its offsets or to one reason
- `matchTrips_settles` : a pass over the trips of a feed settles them, unless a trip is astray

Whether a trip is astray is a matter of the numbers that its stops have. A table of stops may give a
latitude that is infinite, which has no cosine.
-/

namespace StopAlign

open Outcome

namespace Network

variable (net : Network)

/-! ## One trip -/

/-- Distances count for a trip on the shape with an index. -/
def GoesByDistance (t : Trip) (index : Int) : Prop :=
  t.travelled.length = t.stops.length ∧ comparable t.travelled (net.pass.gaps index) = true

/-- What a trip lacks where it has no offsets. Each reason leaves out those in front of it. -/
inductive Lacks (t : Trip) : Reason → Prop
  | noShape (unknown : t.shape = none) : Lacks t .noShape
  | tooFewStops {index : Int} (known : t.shape = some index) (few : t.stops.length < 2) :
      Lacks t .tooFewStops
  | shapeTooShort {index : Int} {shape : Polyline} (known : t.shape = some index)
      (enough : 2 ≤ t.stops.length) (apart : ¬net.GoesByDistance t index)
      (points : net.store.shape (some index) = .ok shape)
      (short : shape.length < t.stops.length) : Lacks t .shapeTooShort
  | missingCoordinates {index : Int} {shape : Polyline} {stop : Ident}
      (known : t.shape = some index) (enough : 2 ≤ t.stops.length)
      (apart : ¬net.GoesByDistance t index) (points : net.store.shape (some index) = .ok shape)
      (room : t.stops.length ≤ shape.length) (member : stop ∈ t.stops)
      (nowhere : net.stops.find? stop.plain = none) : Lacks t .missingCoordinates

/-- A trip lacks one thing at most. -/
theorem Lacks.unique {net : Network} {t : Trip} {one other : Reason} (h : net.Lacks t one)
    (h' : net.Lacks t other) : one = other := by
  cases h with
  | noShape unknown =>
    cases h' with
    | noShape => rfl
    | _ known => cases unknown.symm.trans known
  | tooFewStops known few =>
    cases h' with
    | tooFewStops => rfl
    | noShape unknown => cases unknown.symm.trans known
    | _ _ enough => omega
  | shapeTooShort known enough apart points short =>
    cases h' with
    | shapeTooShort => rfl
    | noShape unknown => cases unknown.symm.trans known
    | tooFewStops _ few => omega
    | missingCoordinates known' _ _ points' room =>
      cases known.symm.trans known'
      cases points.symm.trans points'
      omega
  | missingCoordinates known enough apart points room =>
    cases h' with
    | missingCoordinates => rfl
    | noShape unknown => cases unknown.symm.trans known
    | tooFewStops _ few => omega
    | shapeTooShort known' _ _ points' short =>
      cases known.symm.trans known'
      cases points.symm.trans points'
      omega

/-- A trip that is matched by place and has a stop, not the first and not the last one, without a
closest point on some part of the shape. -/
structure Astray (t : Trip) (index : Int) (shape : Polyline) (places : List Point) : Prop where
  known : t.shape = some index
  points : net.store.shape (some index) = .ok shape
  apart : ¬net.GoesByDistance t index
  placed : net.places t.stops = .ok places
  enough : 2 ≤ t.stops.length
  room : t.stops.length ≤ shape.length
  lost : ∃ p ∈ places.tail.dropLast, Immeasurable shape p

variable {net}

theorem places_error {stops : List Ident} {stop : Ident} (h : net.places stops = .error stop) :
    stop ∈ stops ∧ net.stops.find? stop.plain = none := by
  induction stops with
  | nil => cases h
  | cons first rest ih =>
    unfold places at h
    cases found : net.stops.find? first.plain with
    | none =>
      rw [found] at h
      cases h
      exact ⟨List.mem_cons_self, found⟩
    | some p =>
      rw [found] at h
      rcases bind_eq_error.mp h with later | ⟨_, -, last⟩
      · rcases ih later with ⟨member, nowhere⟩
        exact ⟨List.mem_cons_of_mem first member, nowhere⟩
      · cases last

/-- Stops that have a point each are placed, one of them is nowhere, or one is immeasurable. -/
theorem findByPlace_cases {shape : Polyline} {stops : List Ident} (enough : 2 ≤ stops.length)
    (room : stops.length ≤ shape.length) :
    (∃ offsets, net.findByPlace shape stops = .ok (.byPlace offsets)) ∨
      (∃ stop ∈ stops, net.stops.find? stop.plain = none ∧
        net.findByPlace shape stops = .ok (.without .missingCoordinates (some stop))) ∨
      (net.findByPlace shape stops = .error .mathDomain ∧ ∃ places,
        net.places stops = .ok places ∧ ∃ p ∈ places.tail.dropLast, Immeasurable shape p) := by
  unfold findByPlace
  cases placed : net.places stops with
  | error stop =>
    rcases places_error placed with ⟨member, nowhere⟩
    exact .inr (.inl ⟨stop, member, nowhere, rfl⟩)
  | ok places =>
    have count := length_places placed
    have fits : ¬(places.length < 2 ∨ shape.length < places.length) := by omega
    simp only
    cases found : placedOffsets net.strategy shape places with
    | error fault =>
      rcases placedOffsets_error found with ⟨rfl, lost⟩
      exact .inr (.inr ⟨rfl, places, rfl, lost⟩)
    | ok offsets =>
      -- the strategy has been asked
      rw [placedOffsets, if_neg fits] at found
      cases all : net.strategy.offsets shape places with
      | error fault =>
        rw [all] at found
        cases found
      | ok offsets =>
        rw [all] at found
        cases found
        exact .inl ⟨offsets, rfl⟩

/-- Without distances a trip is matched by place, if the shape has points enough. -/
theorem find_eq_findByPlace {t : Trip} {index : Int} {shape : Polyline}
    (known : t.shape = some index) (enough : 2 ≤ t.stops.length)
    (apart : ¬net.GoesByDistance t index) (points : net.store.shape (some index) = .ok shape) :
    net.find t.pattern t.travelled =
      if shape.length < t.stops.length then .ok (.without .shapeTooShort none)
      else net.findByPlace shape t.stops := by
  have several : ¬t.stops.length < 2 := by omega
  simp only [find, Trip.pattern, known, if_neg several, points]
  exact if_neg apart

/-- A trip whose shape is in the store has offsets, lacks something, or is astray. -/
theorem find_cases {t : Trip} (stored : ∀ index, t.shape = some index →
      ∃ shape, net.store.shape (some index) = .ok shape) :
    (∃ f offsets, net.find t.pattern t.travelled = .ok f ∧ f.offsets? = some offsets) ∨
      (∃ reason stop, net.find t.pattern t.travelled = .ok (.without reason stop) ∧
        net.Lacks t reason) ∨
      (net.find t.pattern t.travelled = .error .mathDomain ∧
        ∃ index shape places, net.Astray t index shape places) := by
  cases known : t.shape with
  | none =>
    refine .inr (.inl ⟨.noShape, none, ?_, .noShape known⟩)
    simp only [find, Trip.pattern, known]
    rfl
  | some index =>
    by_cases few : t.stops.length < 2
    · refine .inr (.inl ⟨.tooFewStops, none, ?_, .tooFewStops known few⟩)
      simp only [find, Trip.pattern, known, if_pos few]
      rfl
    have enough : 2 ≤ t.stops.length := Nat.le_of_not_lt few
    by_cases apart : net.GoesByDistance t index
    · refine .inl ⟨.byDistance (travelledOffsets t.travelled (net.pass.gaps index)), _, ?_, rfl⟩
      simp only [find, Trip.pattern, known, if_neg few]
      exact if_pos apart
    rcases stored index known with ⟨shape, points⟩
    rw [find_eq_findByPlace known enough apart points]
    by_cases short : shape.length < t.stops.length
    · exact .inr (.inl ⟨.shapeTooShort, none, if_pos short,
        .shapeTooShort known enough apart points short⟩)
    have room : t.stops.length ≤ shape.length := Nat.le_of_not_lt short
    rw [if_neg short]
    rcases net.findByPlace_cases enough room with
      ⟨offsets, found⟩ | ⟨stop, member, nowhere, found⟩ | ⟨failed, places, placed, lost⟩
    · exact .inl ⟨.byPlace offsets, offsets, found, rfl⟩
    · exact .inr (.inl ⟨.missingCoordinates, some stop, found,
        .missingCoordinates known enough apart points room member nowhere⟩)
    · exact .inr (.inr ⟨failed, index, shape, places, known, points, apart, placed, enough, room,
        lost⟩)

end Network

/-! ## All trips -/

section Passes

variable {net : Network} {meter : Nat → List Line}

open Ledger

theorem Ledger.find_of_assign {l : Ledger} {t : Trip} {fault : Fault}
    (h : (l.assign net t).result = .error fault) :
    net.find t.pattern t.travelled = .error fault := by
  have answered : (l.answer net (.assign t)).result = .error fault := h
  cases entry : l.entries.find? (Request.assign t).key with
  | some e => cases (answer_known net entry).1.symm.trans answered
  | none =>
    cases search : net.find t.pattern t.travelled with
    | error cause =>
      cases (answer_failed (r := .assign t) entry search).1.symm.trans answered
      rfl
    | ok f => cases (answer_new (r := .assign t) entry search).1.symm.trans answered

/-- The fault of a pass is the one of a trip. -/
theorem find_of_outcome {trips : List Trip} {fault : Fault}
    (h : (matchTrips net meter trips).outcome = .error fault) :
    ∃ t ∈ trips, net.find t.pattern t.travelled = .error fault := by
  induction trips using List.reverseRecOn with
  | nil => cases h
  | append_singleton trips t ih =>
    have next : matchTrips net meter (trips ++ [t]) =
        (matchTrips net meter trips).step net meter t := by
      simp [matchTrips, List.foldl_append]
    rw [next] at h
    cases ended : (matchTrips net meter trips).fault with
    | some cause =>
      -- the pass has ended before
      have still : (matchTrips net meter trips).step net meter t = matchTrips net meter trips := by
        simp [Matching.step, ended]
      rw [still] at h
      rcases ih h with ⟨u, member, failed⟩
      exact ⟨u, List.mem_append_left _ member, failed⟩
    | none =>
      cases result : ((matchTrips net meter trips).ledger.assign net t).result with
      | error cause =>
        have own : cause = fault := by
          simpa [Matching.step, Matching.outcome, ended, result, throw, throwThe,
            MonadExceptOf.throw] using h
        subst own
        exact ⟨t, List.mem_append_right _ (List.mem_singleton_self t), find_of_assign result⟩
      | ok e =>
        have going : ((matchTrips net meter trips).step net meter t).fault = none := by
          simp [Matching.step, ended, result]
        unfold Matching.outcome at h
        rw [going] at h
        cases h

/-- Every trip of a list has come to offsets on its shape, one for each of its stops, or to a reason,
the only one that holds of the first trip with its shape and its stops. Each reason has been counted
once for every trip that has it. -/
structure Settled (net : Network) (trips : List Trip) (l : Ledger) : Prop where
  each : ∀ t ∈ trips,
    (∃ i offsets index shape, l.entries.find? t.pattern.plain = some (.row i) ∧
        l.table[i]? = some offsets ∧ t.shape = some index ∧
        net.store.shape (some index) = .ok shape ∧ offsets.length = t.stops.length ∧
        ∀ o ∈ offsets, 0 ≤ o ∧ o < shape.length) ∨
      ∃ reason first, l.entries.find? t.pattern.plain = some (.without reason) ∧
        opener? trips t.pattern.plain = some first ∧ ∀ r, net.Lacks first r ↔ r = reason
  counted : l.counts.without = (trips.filterMap fun t =>
    (l.entries.find? t.pattern.plain).bind Entry.reason?).reverse

theorem Finding.entry_of_offsets? {f : Finding} {offsets : List Int}
    (h : f.offsets? = some offsets) (row : Nat) : f.entry row = .row row := by
  cases f with
  | without reason stop => cases h
  | _ => rfl

theorem settled_of_outcome (sound : net.Sound) {trips : List Trip}
    (stored : ∀ t ∈ trips, ∀ index, t.shape = some index →
      ∃ shape, net.store.shape (some index) = .ok shape) {l : Ledger}
    (ended : (matchTrips net meter trips).outcome = .ok l) : Settled net trips l := by
  have kept := kept_after net #[] (trips.map .assign)
  rw [(matchTrips_eq_ok.mp ended).2] at kept
  refine ⟨?_, ?_⟩
  · intro t member
    rcases finding_of_mem ended member with ⟨first, f, opener, found, own⟩
    rcases mem_of_opener? opener with ⟨among, same⟩
    have entry : l.entries.find? t.pattern.plain =
        entryOf? net 0 (trips.map .assign) t.pattern.plain := kept.entries t.pattern.plain
    rcases net.find_cases (stored first among) with
      ⟨g, offsets, search, has⟩ | ⟨reason, stop, search, lacks⟩ | ⟨failed, -⟩
    · left
      cases found.symm.trans search
      rcases Network.find_fits sound found has with ⟨index, shape, fits⟩
      have fits := fits.of_plain same
      have offsetsOf : offsetsOf? net (trips.map .assign) t.pattern.plain = some offsets := by
        rw [offsetsOf?, own]
        exact has
      have entered := entry
      rw [entryOf?, own, Option.map_some, Finding.entry_of_offsets? has] at entered
      have row := (kept.row (entry.symm.trans entered)).trans offsetsOf
      refine ⟨_, offsets, index, shape, entered, row, fits.shape_eq, fits.points, ?_, fits.bounds⟩
      rw [fits.length_eq]
      exact List.length_map _
    · right
      cases found.symm.trans search
      rw [entryOf?, own] at entry
      refine ⟨reason, first, entry, opener, fun r => ⟨fun h => h.unique lacks, ?_⟩⟩
      rintro rfl
      exact lacks
    · cases failed.symm.trans found
  · rw [without_of_pass ended]
    refine congrArg List.reverse (List.filterMap_congr fun t _ => ?_)
    rw [kept.entries, entryOf?, Option.bind_map]
    exact Option.bind_congr fun f _ => (f.reason?_entry _).symm

end Passes

/-! ## Feeds -/

/-- An identifier is found at the index of a shape of the store. -/
theorem stored_of_find? {before : List Deed} {source : Source ShapeRecord} {pass : Pass}
    {store : ShapeStore}
    (loaded : (load source (Filling.after before).store).outcome = .ok (pass, store))
    {id : ShapeId} {i : Nat} (found : pass.find? id = some i) :
    ∃ shape, store.shape (some (i : Int)) = .ok shape := by
  rcases source with ⟨records, _ | fault⟩
  swap
  · cases loaded
  have whole := Filling.after_loaded loaded
  have tabled := tabled_after (before ++ [.load ⟨records, none⟩]) (records, pass) (by
    rw [whole]
    exact List.mem_append_right _ (List.mem_singleton_self _))
  have known : id ∈ shapeIds records := by
    by_contra unknown
    rw [load_outcome] at loaded
    cases loaded
    rw [Pass.find?_eq_none _ id (by rwa [Loader.ids_pass])] at found
    cases found
  rcases tabled.own _ id (List.getElem?_idxOf known) with ⟨here, points, -⟩
  cases found.symm.trans here
  have refines := refines_empty_add (added (before ++ [.load ⟨records, none⟩]))
  rw [← Filling.store_after, whole] at refines
  exact ⟨_, (refines.shape_eq _ _ points).1⟩

/-- Once shapes are loaded and trips are read, every trip comes to offsets or to one reason, with
either strategy and wherever the stops are. Or else matching ends with a fault, since one of the
trips goes astray: it is matched by place, and an inner stop has no closest point on some part of
its shape. -/
theorem matchTrips_settles {before : List Deed} {source : Source ShapeRecord} {pass : Pass}
    {store : ShapeStore}
    (loaded : (load source (Filling.after before).store).outcome = .ok (pass, store))
    {directory : String} {feed : Feed} {trips : List Trip} {lines : List Line}
    (read : readTrips directory feed pass = .ok (trips, lines)) (stops : Dictionary Ident Point)
    (strategy : Strategy) (meter : Nat → List Line) :
    let net : Network := ⟨store, pass, stops, strategy⟩
    (∃ l, (matchTrips net meter trips).outcome = .ok l ∧ Settled net trips l) ∨
      ((matchTrips net meter trips).outcome = .error .mathDomain ∧
        ∃ t ∈ trips, ∃ index shape places, net.Astray t index shape places) := by
  intro net
  have stored : ∀ t ∈ trips, ∀ index, t.shape = some index →
      ∃ shape, net.store.shape (some index) = .ok shape := by
    intro t member index here
    rcases shape_of_readTrips read member here with ⟨id, i, found, rfl⟩
    exact stored_of_find? loaded found
  have sound : net.Sound := sound_of_load before loaded stops strategy
  cases ended : (matchTrips net meter trips).outcome with
  | ok l => exact .inl ⟨l, rfl, settled_of_outcome sound stored ended⟩
  | error fault =>
    rcases find_of_outcome ended with ⟨t, member, failed⟩
    rcases Network.find_cases (stored t member) with
      ⟨f, offsets, found, -⟩ | ⟨reason, stop, found, -⟩ | ⟨own, astray⟩
    · cases failed.symm.trans found
    · cases failed.symm.trans found
    · cases failed.symm.trans own
      exact .inr ⟨rfl, t, member, astray⟩

/-- What matching the trips of a feed brings, if its shapes, stops and trips can all be read. -/
def matched? (feed : Feed) (strategy : Strategy) : Option (Except Fault Ledger) :=
  match (load (readShapes "shapes.txt" feed.shapes defaultBlockRows) .empty).outcome,
    (readStops "feed" feed.stops).outcome with
  | .ok (pass, store), .ok stops =>
    match readTrips "feed" feed pass with
    | .ok (trips, _) =>
      some (matchTrips ⟨store, pass, stops, strategy⟩ (fun _ => []) trips).outcome
    | .error _ => none
  | _, _ => none

theorem matched?_eq_some {feed : Feed} {strategy : Strategy} {outcome : Except Fault Ledger}
    (h : matched? feed strategy = some outcome) :
    ∃ pass store stops trips lines,
      (load (readShapes "shapes.txt" feed.shapes defaultBlockRows) .empty).outcome =
          .ok (pass, store) ∧
        (readStops "feed" feed.stops).outcome = .ok stops ∧
        readTrips "feed" feed pass = .ok (trips, lines) ∧
        (matchTrips ⟨store, pass, stops, strategy⟩ (fun _ => []) trips).outcome = outcome := by
  unfold matched? at h
  split at h
  · rename_i pass store stops loaded placed
    split at h
    · rename_i trips lines read
      exact ⟨pass, store, stops, trips, lines, loaded, placed, read, Option.some.inj h⟩
    · cases h
  · cases h

/-- A shape of two points with a trip on it, from one end to the other, and a trip without a
shape. -/
def endToEnd : Feed :=
  feedOf [["s", "0", "0", "1", ""], ["s", "0", "1", "2", ""]] [["t", "s"], ["u", ""]]
    [["t", "a", "1", ""], ["t", "b", "2", ""]] [["a", "0", "0"], ["b", "0", "1"]]

theorem matchTrips_settles_endToEnd :
    ∃ pass store stops trips lines l,
      (load (readShapes "shapes.txt" endToEnd.shapes defaultBlockRows)
          (Filling.after []).store).outcome = .ok (pass, store) ∧
        readTrips "feed" endToEnd pass = .ok (trips, lines) ∧
        (matchTrips ⟨store, pass, stops, .greedy⟩ (fun _ => []) trips).outcome = .ok l ∧
        Settled ⟨store, pass, stops, .greedy⟩ trips l := by
  have calm : (matched? endToEnd .greedy).any Except.isOk = true := by decide +kernel
  rcases Option.any_eq_true _ _ |>.mp calm with ⟨outcome, made, fine⟩
  rcases matched?_eq_some made with ⟨pass, store, stops, trips, lines, loaded, -, read, ended⟩
  have loaded : (load (readShapes "shapes.txt" endToEnd.shapes defaultBlockRows)
      (Filling.after []).store).outcome = .ok (pass, store) := loaded
  rcases matchTrips_settles loaded read stops .greedy (fun _ => []) with
    ⟨l, whole, settled⟩ | ⟨failed, -⟩
  · exact ⟨pass, store, stops, trips, lines, l, loaded, read, whole, settled⟩
  · rw [← ended, failed] at fine
    cases fine

/-- A trip over three stops on a shape of four points, without distances. The stop in the middle has
an infinite latitude. -/
def lostStop : Feed :=
  feedOf
    [["s", "0", "0", "1", ""], ["s", "0", "1", "2", ""], ["s", "0", "2", "3", ""],
      ["s", "0", "3", "4", ""]]
    [["t", "s"]] [["t", "a", "1", ""], ["t", "b", "2", ""], ["t", "c", "3", ""]]
    [["a", "0", "0"], ["b", "inf", "1"], ["c", "0", "3"]]

/-- All tables of the feed can be read, and neither strategy comes to an end. -/
theorem exists_astray :
    ∃ pass store stops trips lines,
      (load (readShapes "shapes.txt" lostStop.shapes defaultBlockRows) .empty).outcome =
          .ok (pass, store) ∧
        (readStops "feed" lostStop.stops).outcome = .ok stops ∧
        readTrips "feed" lostStop pass = .ok (trips, lines) ∧
        ∀ strategy, (matchTrips ⟨store, pass, stops, strategy⟩ (fun _ => []) trips).outcome =
          .error .mathDomain := by
  have raised : ∀ strategy, matched? lostStop strategy = some (.error .mathDomain) := by
    intro strategy
    cases strategy with
    | greedy => decide +kernel
    | division => decide +kernel
  rcases matched?_eq_some (raised .greedy) with
    ⟨pass, store, stops, trips, lines, loaded, placed, read, -⟩
  refine ⟨pass, store, stops, trips, lines, loaded, placed, read, ?_⟩
  intro strategy
  have outcome := raised strategy
  simp only [matched?, loaded, placed, read] at outcome
  exact Option.some.inj outcome

end StopAlign
