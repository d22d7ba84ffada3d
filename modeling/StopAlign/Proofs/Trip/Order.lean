import StopAlign.Proofs.Trip.Run
import StopAlign.Trip.Matching

/-!
# Order — when the order of trips does not count

- `Finding.plain`, `Network.find_plain` : what a finding depends on
- `opener?`            : the first trip of a pattern
- `exists_outcome_iff` : a pass comes to its end if every opener has a finding
- `Uniform`, `Agree`   : trips of a pattern would find the same on their own; ledgers that agree
- `agree_of_uniform`   : then the order of the trips does not count

A pass goes through requests without a fault, so its ledger is the ledger after these requests, and
there a key has the finding of its opener.
-/

namespace StopAlign

/-! ## What a finding depends on -/

namespace Finding

/-- The reason of a finding without offsets. -/
def reason? : Finding → Option Reason
  | .without reason _ => some reason
  | _ => none

/-- A finding that names no stop. -/
def plain : Finding → Finding
  | .without reason _ => .without reason none
  | f => f

@[simp]
theorem offsets?_plain (f : Finding) : f.plain.offsets? = f.offsets? := by
  cases f <;> rfl

@[simp]
theorem reason?_plain (f : Finding) : f.plain.reason? = f.reason? := by
  cases f <;> rfl

@[simp]
theorem reason?_entry (f : Finding) (row : Nat) : (f.entry row).reason? = f.reason? := by
  cases f <;> rfl

end Finding

namespace Network

variable (net : Network)

theorem places_plain (stops : List Ident) :
    net.places (stops.map Ident.plain) = (net.places stops).mapError Ident.plain := by
  induction stops with
  | nil => rfl
  | cons stop stops ih =>
    simp only [List.map_cons, places, Ident.plain_plain]
    cases net.stops.find? stop.plain with
    | none => rfl
    | some p =>
      rw [ih]
      cases net.places stops with
      | error stop => rfl
      | ok rest => rfl

theorem findByPlace_plain (shape : Polyline) (stops : List Ident) :
    (net.findByPlace shape (stops.map Ident.plain)).map Finding.plain =
      (net.findByPlace shape stops).map Finding.plain := by
  unfold findByPlace
  rw [places_plain]
  cases net.places stops with
  | error stop => rfl
  | ok places => rfl

/-- A finding depends on the plain pattern, but for the stop that it names. -/
theorem find_plain (p : Pattern) (travelled : List Float) :
    (net.find p.plain travelled).map Finding.plain =
      (net.find p travelled).map Finding.plain := by
  cases p with | mk shape stops =>
  cases shape with
  | none => rfl
  | some index =>
    simp only [find, Pattern.plain, List.length_map]
    split
    · rfl
    · split
      · rfl
      · cases net.store.shape (some index) with
        | error fault => rfl
        | ok points =>
          by_cases short : points.length < stops.length
          · simp [short, bind, Except.bind]
          · simpa [short, bind, Except.bind] using net.findByPlace_plain points stops

theorem find_congr {p q : Pattern} {travelled : List Float} {f g : Finding}
    (same : p.plain = q.plain) (found : net.find p travelled = .ok f)
    (found' : net.find q travelled = .ok g) : f.plain = g.plain := by
  have plain := net.find_plain p travelled
  rw [same, net.find_plain q travelled, found, found'] at plain
  exact (Except.ok.inj plain).symm

/-- Distances count only where they give the offsets themselves. -/
theorem find_byPlace {p : Pattern} {travelled : List Float} {f : Finding}
    (h : net.find p travelled = .ok f) :
    (∃ offsets, f = .byDistance offsets) ∨ net.find p [] = .ok f := by
  cases p with | mk shape stops =>
  cases shape with
  | none => exact .inr h
  | some index =>
    simp only [find] at h ⊢
    split at h
    · rename_i few
      exact .inr (by simpa [few] using h)
    · rename_i enough
      split at h
      · cases h
        exact .inl ⟨_, rfl⟩
      · -- two stops or more have no distances in the empty list
        have apart : ¬(([] : List Float).length = stops.length ∧
            comparable [] (net.pass.gaps index)) := by
          rintro ⟨length, -⟩
          exact enough (by simp [← length])
        rw [if_neg enough, if_neg apart]
        exact .inr h

end Network

/-! ## Openers -/

/-- The first trip of a plain pattern. -/
def opener? (trips : List Trip) (key : Pattern) : Option Trip :=
  trips.find? fun t => t.pattern.plain = key

theorem mem_of_opener? {trips : List Trip} {key : Pattern} {t : Trip}
    (h : opener? trips key = some t) : t ∈ trips ∧ t.pattern.plain = key := by
  have own := List.find?_some h
  exact ⟨List.mem_of_find?_eq_some h, by simpa using own⟩

theorem opener?_of_mem {trips : List Trip} {t : Trip} (h : t ∈ trips) :
    ∃ first, opener? trips t.pattern.plain = some first := by
  have found : (opener? trips t.pattern.plain).isSome = true := by
    simp only [opener?, List.find?_isSome]
    exact ⟨t, h, by simp⟩
  exact Option.isSome_iff_exists.mp found

open Ledger in
/-- A key has the finding of its opener. -/
theorem firstFinding?_of_opener? {net : Network} {trips : List Trip} {key : Pattern} {t : Trip}
    {f : Finding} (h : opener? trips key = some t)
    (found : net.find t.pattern t.travelled = .ok f) :
    firstFinding? net (trips.map .assign) key = some f := by
  induction trips with
  | nil => cases h
  | cons head trips ih =>
    simp only [opener?, List.find?_cons] at h
    by_cases same : head.pattern.plain = key
    · have here : head = t := by simpa [same] using h
      subst here
      have own : (Request.assign head).finding? net = some f := Request.finding?_of_ok found
      simp [firstFinding?, Request.key, Request.pattern, same, own]
    · have later := ih (by simpa [opener?, same] using h)
      simpa [firstFinding?, Request.key, Request.pattern, same] using later

/-! ## Passes -/

section Passes

variable {net : Network} {meter : Nat → List Line}

open Ledger

theorem Matching.outcome_eq_ok {m : Matching} {l : Ledger} :
    m.outcome = .ok l ↔ m.fault = none ∧ m.ledger = l := by
  unfold Matching.outcome
  cases m.fault with
  | some f =>
    constructor
    · intro h
      cases h
    · rintro ⟨h, -⟩
      cases h
  | none =>
    constructor
    · intro h
      cases h
      exact ⟨rfl, rfl⟩
    · rintro ⟨-, rfl⟩
      rfl

theorem outcome_concat {trips : List Trip} {t : Trip} {l : Ledger} :
    (matchTrips net meter (trips ++ [t])).outcome = .ok l ↔
      ∃ before, (matchTrips net meter trips).outcome = .ok before ∧
        (before.assign net t).result.isOk = true ∧ (before.assign net t).ledger = l := by
  have next : matchTrips net meter (trips ++ [t]) =
      (matchTrips net meter trips).step net meter t := by
    simp [matchTrips, List.foldl_append]
  rw [next]
  generalize matchTrips net meter trips = m
  simp only [Matching.outcome_eq_ok]
  cases fault : m.fault with
  | some f => simp [Matching.step, fault]
  | none =>
    cases result : (m.ledger.assign net t).result with
    | error f => simp [Matching.step, fault, result, Except.isOk, Except.toBool]
    | ok e => simp [Matching.step, fault, result, Except.isOk, Except.toBool]

/-- A pass that comes to its end is a run of assignments that all return. -/
theorem matchTrips_eq_ok {trips : List Trip} {l : Ledger} :
    (matchTrips net meter trips).outcome = .ok l ↔
      (∀ call ∈ (start #[]).transcript net (trips.map .assign), call.2.result.isOk = true) ∧
        (start #[]).after net (trips.map .assign) = l := by
  induction trips using List.reverseRecOn generalizing l with
  | nil => simp [matchTrips, Matching.outcome_eq_ok, transcript, after]
  | append_singleton trips t ih =>
    rw [outcome_concat, List.map_append, List.map_singleton, transcript_concat, after_concat]
    constructor
    · rintro ⟨before, ended, returned, rfl⟩
      rcases ih.mp ended with ⟨earlier, rfl⟩
      refine ⟨?_, rfl⟩
      intro call member
      rcases List.mem_append.mp member with old | last
      · exact earlier call old
      · rw [List.mem_singleton.mp last]
        exact returned
    · rintro ⟨returned, rfl⟩
      refine ⟨_, ih.mpr ⟨?_, rfl⟩, ?_, rfl⟩
      · intro call member
        exact returned call (List.mem_append_left _ member)
      · exact returned _ (List.mem_append_right _ (List.mem_singleton_self _))

/-- A key that no earlier trip has is searched for. -/
theorem find_of_unseen {before : List Trip} {t : Trip}
    (unseen : ∀ u ∈ before, u.pattern.plain ≠ t.pattern.plain)
    (returned : (((start #[]).after net (before.map .assign)).answer net
      (.assign t)).result.isOk = true) :
    ∃ f, net.find t.pattern t.travelled = .ok f := by
  have first : firstFinding? net (before.map .assign) t.pattern.plain = none := by
    simp only [firstFinding?, List.findSome?_eq_none_iff, List.mem_map]
    rintro r ⟨u, member, rfl⟩
    exact if_neg (unseen u member)
  cases (kept_after net #[] (before.map .assign)).answered (.assign t) with
  | known e entry =>
    have seen := (firstFinding?_of_entryOf? entry).symm.trans (congrArg Option.isSome first)
    cases seen
  | failed fault _ _ result =>
    rw [result] at returned
    cases returned
  | made f _ search => exact ⟨f, search⟩

/-- A pass comes to its end if each of its openers finds something. -/
theorem exists_outcome_iff {trips : List Trip} :
    (∃ l, (matchTrips net meter trips).outcome = .ok l) ↔
      ∀ key t, opener? trips key = some t → ∃ f, net.find t.pattern t.travelled = .ok f := by
  constructor
  · rintro ⟨l, ended⟩ key t first
    rcases matchTrips_eq_ok.mp ended with ⟨returned, -⟩
    rcases List.find?_eq_some_iff_append.mp first with ⟨own, before, behind, parts, others⟩
    have same : t.pattern.plain = key := by simpa using own
    have unseen : ∀ u ∈ before, u.pattern.plain ≠ t.pattern.plain := by
      intro u member
      simpa [same] using others u member
    have call : (.assign t, ((start #[]).after net (before.map .assign)).answer net (.assign t)) ∈
        (start #[]).transcript net (trips.map .assign) := by
      rw [parts, List.map_append, List.map_cons, transcript_append]
      exact List.mem_append_right _ (List.mem_cons_self ..)
    exact find_of_unseen unseen (returned _ call)
  · intro found
    refine ⟨_, matchTrips_eq_ok.mpr ⟨?_, rfl⟩⟩
    rintro ⟨r, a⟩ member
    rcases mem_transcript member with ⟨before, behind, parts, rfl⟩
    rcases List.map_eq_append_iff.mp parts with ⟨earlier, others, rfl, rfl, rest⟩
    rcases List.map_eq_cons_iff.mp rest with ⟨t, later, rfl, rfl, rfl⟩
    cases (kept_after net #[] (earlier.map .assign)).answered (.assign t) with
    | known e _ result => exact congrArg Except.isOk result
    | made f _ _ result => exact congrArg Except.isOk result
    | failed fault first search =>
      -- a trip that fails would be an opener, or come behind one that finds something
      exfalso
      have opens : opener? (earlier ++ t :: later) t.pattern.plain =
          (opener? earlier t.pattern.plain).or (some t) := by
        simp [opener?]
      cases opener : opener? earlier t.pattern.plain with
      | some c =>
        rw [opener, Option.some_or] at opens
        rcases found _ c opens with ⟨f, own⟩
        have known := firstFinding?_of_opener? opener own
        exact Option.some_ne_none f (known.symm.trans first)
      | none =>
        rw [opener, Option.none_or] at opens
        rcases found _ t opens with ⟨f, own⟩
        cases own.symm.trans search

/-- Every trip of a pass has the finding of its opener. -/
theorem finding_of_mem {trips : List Trip} {l : Ledger}
    (ended : (matchTrips net meter trips).outcome = .ok l) {t : Trip} (member : t ∈ trips) :
    ∃ first f, opener? trips t.pattern.plain = some first ∧
      net.find first.pattern first.travelled = .ok f ∧
      firstFinding? net (trips.map .assign) t.pattern.plain = some f := by
  rcases opener?_of_mem member with ⟨first, opener⟩
  rcases exists_outcome_iff.mp ⟨l, ended⟩ _ first opener with ⟨f, found⟩
  exact ⟨first, f, opener, found, firstFinding?_of_opener? opener found⟩

theorem map_assigned_transcript {trips : List Trip} {l : Ledger}
    (h : ∀ call ∈ l.transcript net (trips.map .assign), call.2.result.isOk = true) :
    ((l.transcript net (trips.map .assign)).filterMap assigned?).map Prod.fst = trips := by
  induction trips generalizing l with
  | nil => rfl
  | cons t trips ih =>
    have returned := h (.assign t, l.answer net (.assign t)) (List.mem_cons_self ..)
    have rest := ih fun call member => h call (List.mem_cons_of_mem _ member)
    cases result : (l.answer net (.assign t)).result with
    | error fault =>
      rw [result] at returned
      cases returned
    | ok e =>
      have made : assigned? (.assign t, l.answer net (.assign t)) = some (t, e) :=
        assigned?_eq_some.mpr ⟨rfl, result⟩
      simpa [transcript, made] using rest

/-- A trip of a pass has the offsets of its key. -/
theorem offsets?_of_pass {trips : List Trip} {l : Ledger}
    (distinct : (trips.map (·.id.plain)).Nodup)
    (ended : (matchTrips net meter trips).outcome = .ok l) {t : Trip} (member : t ∈ trips) :
    l.offsets? t.id = offsetsOf? net (trips.map .assign) t.pattern.plain := by
  rcases matchTrips_eq_ok.mp ended with ⟨returned, rfl⟩
  have all := map_assigned_transcript returned
  rw [offsets?_after]
  cases last : lastAssigned? ((start #[]).transcript net (trips.map .assign)) t.id with
  | none =>
    rw [← all] at member
    rcases List.mem_map.mp member with ⟨made, own, same⟩
    have other := List.find?_eq_none.mp last made (List.mem_reverse.mpr own)
    exact absurd (by simp [same]) other
  | some made =>
    -- no other trip has the identifier
    have own := List.mem_reverse.mp (List.mem_of_find?_eq_some last)
    have there : made.1 ∈ trips := by
      rw [← all]
      exact List.mem_map_of_mem own
    have id : made.1.id.plain = t.id.plain := by simpa using List.find?_some last
    have same : made.1 = t := List.inj_on_of_nodup_map distinct there member id
    simp [same]

/-- The reasons of a pass are those of the keys of its trips. -/
theorem without_of_pass {trips : List Trip} {l : Ledger}
    (ended : (matchTrips net meter trips).outcome = .ok l) :
    l.counts.without = (trips.filterMap fun t =>
      (firstFinding? net (trips.map .assign) t.pattern.plain).bind Finding.reason?).reverse := by
  rcases matchTrips_eq_ok.mp ended with ⟨returned, rfl⟩
  have all := map_assigned_transcript returned
  rw [without_after, List.filterMap_reverse]
  refine congrArg List.reverse ?_
  generalize reasons : (fun t : Trip =>
    (firstFinding? net (trips.map .assign) t.pattern.plain).bind Finding.reason?) = reasonOf
  calc (((start #[]).transcript net (trips.map .assign)).filterMap assigned?).filterMap
        (·.2.reason?)
      = (((start #[]).transcript net (trips.map .assign)).filterMap assigned?).filterMap
          fun made => reasonOf made.1 := by
        refine List.filterMap_congr fun made member => ?_
        rcases List.mem_filterMap.mp member with ⟨⟨r, a⟩, call, own⟩
        rcases assigned?_eq_some.mp own with ⟨rfl, result⟩
        have entry := entryOf?_of_mem_transcript net #[] (trips.map .assign) call result
        rcases Option.map_eq_some_iff.mp entry with ⟨f, found, same⟩
        have key : firstFinding? net (trips.map .assign) made.1.pattern.plain = some f := found
        simp [← reasons, key, ← same]
    _ = trips.filterMap reasonOf := by
        conv_rhs => rw [← all]
        simp [List.filterMap_map]

end Passes

/-! ## Orders -/

/-- Trips with one plain pattern would find the same offsets on their own. -/
def Uniform (net : Network) (trips : List Trip) : Prop :=
  ∀ a ∈ trips, ∀ b ∈ trips, a.pattern.plain = b.pattern.plain → ∀ f g,
    net.find a.pattern a.travelled = .ok f → net.find b.pattern b.travelled = .ok g →
      f.offsets? = g.offsets?

/-- Two ledgers give trips the same offsets, and count the same reasons. -/
def Agree (trips : List Trip) (l m : Ledger) : Prop :=
  (∀ t ∈ trips, l.offsets? t.id = m.offsets? t.id) ∧
    ∀ reason, l.counts.without.count reason = m.counts.without.count reason

/-- Trips of one plain pattern have no offsets for the same reason. -/
theorem reason?_congr {net : Network} {a b : Trip} (same : a.pattern.plain = b.pattern.plain)
    {f g : Finding} (found : net.find a.pattern a.travelled = .ok f)
    (found' : net.find b.pattern b.travelled = .ok g) (h : f.offsets? = g.offsets?) :
    f.reason? = g.reason? := by
  rcases net.find_byPlace found with ⟨offsets, rfl⟩ | place
  · cases g with
    | without reason stop => cases h
    | _ => rfl
  · rcases net.find_byPlace found' with ⟨offsets, rfl⟩ | place'
    · cases f with
      | without reason stop => cases h
      | _ => rfl
    · have plain := net.find_congr same place place'
      rw [← f.reason?_plain, plain, g.reason?_plain]

theorem uniform_of_travelled {net : Network} {trips : List Trip}
    (h : ∀ a ∈ trips, ∀ b ∈ trips, a.pattern.plain = b.pattern.plain → a.travelled = b.travelled) :
    Uniform net trips := by
  intro a memberA b memberB same f g found found'
  rw [h a memberA b memberB same] at found
  have plain := net.find_congr same found found'
  rw [← f.offsets?_plain, plain, g.offsets?_plain]

section Orders

variable {net : Network} {meter : Nat → List Line} {trips : List Trip} {l : Ledger}

open Ledger

theorem agree_of_uniform (distinct : (trips.map (·.id.plain)).Nodup)
    (ended : (matchTrips net meter trips).outcome = .ok l) (uniform : Uniform net trips)
    {others : List Trip} (perm : others.Perm trips) {gauge : Nat → List Line} {m : Ledger}
    (ended' : (matchTrips net gauge others).outcome = .ok m) : Agree trips m l := by
  have distinct' : (others.map (·.id.plain)).Nodup := (perm.map _).nodup_iff.mpr distinct
  -- a key has one finding in the one order, and one of the same offsets in the other
  have both : ∀ t ∈ trips, ∃ f g,
      firstFinding? net (trips.map .assign) t.pattern.plain = some f ∧
      firstFinding? net (others.map .assign) t.pattern.plain = some g ∧
      f.offsets? = g.offsets? ∧ f.reason? = g.reason? := by
    intro t member
    rcases finding_of_mem ended member with ⟨a, f, openerA, found, first⟩
    rcases finding_of_mem ended' (perm.mem_iff.mpr member) with ⟨b, g, openerB, found', first'⟩
    rcases mem_of_opener? openerA with ⟨memberA, keyA⟩
    rcases mem_of_opener? openerB with ⟨memberB, keyB⟩
    have same : a.pattern.plain = b.pattern.plain := keyA.trans keyB.symm
    have offsets := uniform a memberA b (perm.mem_iff.mp memberB) same f g found found'
    exact ⟨f, g, first, first', offsets, reason?_congr same found found' offsets⟩
  refine ⟨?_, ?_⟩
  · intro t member
    rcases both t member with ⟨f, g, first, first', offsets, -⟩
    rw [offsets?_of_pass distinct ended member,
      offsets?_of_pass distinct' ended' (perm.mem_iff.mpr member)]
    simp [offsetsOf?, first, first', offsets]
  · intro reason
    rw [without_of_pass ended, without_of_pass ended', List.count_reverse, List.count_reverse]
    calc (others.filterMap fun t =>
          (firstFinding? net (others.map .assign) t.pattern.plain).bind
            Finding.reason?).count reason
        = (trips.filterMap fun t =>
          (firstFinding? net (others.map .assign) t.pattern.plain).bind
            Finding.reason?).count reason := (perm.filterMap _).count_eq reason
      _ = (trips.filterMap fun t =>
          (firstFinding? net (trips.map .assign) t.pattern.plain).bind
            Finding.reason?).count reason := by
        refine congrArg (List.count reason) (List.filterMap_congr fun t member => ?_)
        rcases both t member with ⟨f, g, first, first', -, reasons⟩
        simp [first, first', reasons]

/-- A trip that finds something may come first. -/
theorem outcome_of_first (ended : (matchTrips net meter trips).outcome = .ok l) {t : Trip}
    {f : Finding} (found : net.find t.pattern t.travelled = .ok f) :
    ∃ m, (matchTrips net meter (t :: trips.erase t)).outcome = .ok m ∧
      firstFinding? net ((t :: trips.erase t).map .assign) t.pattern.plain = some f := by
  have opens : opener? (t :: trips.erase t) t.pattern.plain = some t := by simp [opener?]
  have ends : ∃ m, (matchTrips net meter (t :: trips.erase t)).outcome = .ok m := by
    refine exists_outcome_iff.mpr ?_
    intro key first opener
    by_cases same : t.pattern.plain = key
    · subst same
      rw [opens] at opener
      cases opener
      exact ⟨f, found⟩
    · -- the others keep their order
      have kept : opener? (t :: trips.erase t) key = opener? trips key := by
        simp only [opener?, List.find?_cons, same, decide_false]
        exact find?_erase_of_not (by simpa using same) trips
      rw [kept] at opener
      exact exists_outcome_iff.mp ⟨l, ended⟩ key first opener
  rcases ends with ⟨m, ends⟩
  exact ⟨m, ends, firstFinding?_of_opener? opens found⟩

/-- All orders of the trips agree if, and only if, trips of one plain pattern would find the same
offsets on their own. Equal distances are enough for that. -/
theorem orders_agree_iff_uniform (distinct : (trips.map (·.id.plain)).Nodup)
    (ended : (matchTrips net meter trips).outcome = .ok l) :
    ((∀ (others : List Trip) (gauge : Nat → List Line) (m : Ledger), others.Perm trips →
        (matchTrips net gauge others).outcome = .ok m → Agree trips m l) ↔ Uniform net trips) ∧
      ((∀ a ∈ trips, ∀ b ∈ trips, a.pattern.plain = b.pattern.plain → a.travelled = b.travelled) →
        Uniform net trips) := by
  refine ⟨⟨?_, ?_⟩, uniform_of_travelled⟩
  · intro agree a memberA b memberB same f g found found'
    -- whoever comes first gives the offsets that the trip has in the given order
    have own : ∀ t ∈ trips, ∀ h, net.find t.pattern t.travelled = .ok h →
        h.offsets? = offsetsOf? net (trips.map .assign) t.pattern.plain := by
      intro t member h search
      rcases outcome_of_first ended search with ⟨m, ends, first⟩
      have perm : (t :: trips.erase t).Perm trips := (List.perm_cons_erase member).symm
      have distinct' : ((t :: trips.erase t).map (·.id.plain)).Nodup :=
        (perm.map _).nodup_iff.mpr distinct
      calc h.offsets?
          = offsetsOf? net ((t :: trips.erase t).map .assign) t.pattern.plain := by
            simp only [offsetsOf?, first, Option.bind_some]
        _ = m.offsets? t.id := (offsets?_of_pass distinct' ends (List.mem_cons_self ..)).symm
        _ = l.offsets? t.id := (agree _ _ m perm ends).1 t member
        _ = offsetsOf? net (trips.map .assign) t.pattern.plain :=
            offsets?_of_pass distinct ended member
    rw [own a memberA f found, own b memberB g found', same]
  · intro uniform others gauge m perm ended'
    exact agree_of_uniform distinct ended uniform perm ended'

end Orders

/-- A line of three points, with a stop at each end. -/
def straight : Network :=
  let loader := Loader.ofRecords [⟨.text "s", ⟨0, 0⟩, 0, 0⟩, ⟨.text "s", ⟨0, 0.001⟩, 1, 100⟩,
    ⟨.text "s", ⟨0, 0.002⟩, 2, 200⟩]
  { store := ShapeStore.empty.add (loader.tracks.toList.map (·.points))
    pass := loader.pass 0
    stops := .ofList [(.text "a", ⟨0, 0⟩), (.text "b", ⟨0, 0.002⟩)]
    strategy := .greedy }

/-- A trip that gets off at the second point. -/
def nearTrip : Trip := ⟨.text "A", some 0, [.text "a", .text "b"], [0, 100]⟩

/-- A trip of the same pattern that goes on to the third point. -/
def farTrip : Trip := ⟨.text "B", some 0, [.text "a", .text "b"], [0, 200]⟩

theorem matchTrips_near_far :
    (matchTrips straight (fun _ => []) [nearTrip, farTrip]).outcome =
        .ok (matchTrips straight (fun _ => []) [nearTrip, farTrip]).ledger := by
  refine Matching.outcome_eq_ok.mpr ⟨?_, rfl⟩
  decide +kernel

theorem orders_agree_near_far :
    ∃ l, ([nearTrip, farTrip].map (·.id.plain)).Nodup ∧
      (matchTrips straight (fun _ => []) [nearTrip, farTrip]).outcome = .ok l ∧
      ((∀ (others : List Trip) (gauge : Nat → List Line) (m : Ledger),
          others.Perm [nearTrip, farTrip] → (matchTrips straight gauge others).outcome = .ok m →
            Agree [nearTrip, farTrip] m l) ↔ Uniform straight [nearTrip, farTrip]) := by
  have distinct : ([nearTrip, farTrip].map (·.id.plain)).Nodup := by decide
  have agree := orders_agree_iff_uniform distinct matchTrips_near_far
  exact ⟨_, distinct, matchTrips_near_far, agree.1⟩

/-- The first trip of a pattern decides for all others, so orders of trips may differ. -/
theorem exists_orders_disagree :
    ¬ ∀ (net : Network) (meter : Nat → List Line) (trips others : List Trip) (l m : Ledger),
      (trips.map (·.id.plain)).Nodup → others.Perm trips →
        (matchTrips net meter trips).outcome = .ok l →
          (matchTrips net meter others).outcome = .ok m → Agree trips m l := by
  intro agree
  have ended : (matchTrips straight (fun _ => []) [farTrip, nearTrip]).outcome =
      .ok (matchTrips straight (fun _ => []) [farTrip, nearTrip]).ledger := by
    refine Matching.outcome_eq_ok.mpr ⟨?_, rfl⟩
    decide +kernel
  have orders := agree straight (fun _ => []) [nearTrip, farTrip] [farTrip, nearTrip] _ _
    (by decide) (List.Perm.swap nearTrip farTrip []) matchTrips_near_far ended
  have same := orders.1 nearTrip (by simp)
  revert same
  decide +kernel

end StopAlign
