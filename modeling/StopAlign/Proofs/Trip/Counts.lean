import StopAlign.Proofs.Outcome
import StopAlign.Proofs.Trip.Run

/-!
# Counts — what the counts of a ledger say about its requests

- `Side`, `Produced`  : the matchers, and the offsets that they give for a request
- `Adds`, `answer_adds`, `run_adds` : what one request adds to the counts, and what a run adds
- `hits_after`, `sides_after` : searches counted by the keys that they have found something for
- `Accounts`, `accounts_after` : what the counts say of the calls of a run

Calls and keys are counted apart: a call that returns is a hit unless it is the first one of its key
to return, and of that one the count goes to the matcher that has found the offsets.
-/

namespace StopAlign

open Outcome

/-! ## Matchers -/

/-- The matchers, by distance and by place. -/
inductive Side
  | distance
  | place
  deriving DecidableEq

/-- The matcher that a finding counts for. -/
def Finding.side? : Finding → Option Side
  | .byDistance _ => some .distance
  | .byPlace _ => some .place
  | .without _ _ => none

theorem Finding.isSome_side? (f : Finding) : f.side?.isSome = f.offsets?.isSome := by
  cases f <;> rfl

theorem Entry.reason?_eq_some {e : Entry} {reason : Reason} :
    e.reason? = some reason ↔ e = .without reason := by
  cases e with
  | row i => simp [reason?]
  | without why => simp [reason?]

theorem Entry.isSome_reason? (e : Entry) : e.reason?.isSome = e.row?.isNone := by
  cases e <;> rfl

def Counts.of (c : Counts) : Side → Nat
  | .distance => c.byDistance
  | .place => c.byPlace

namespace Ledger

/-- The offsets that a matcher gives for a request. -/
inductive Produced (net : Network) (r : Request) : Side → List Int → Prop
  | distance {index : Int} (shape : r.pattern.shape = some index) :
      Produced net r .distance
        ((travelledOffsets r.travelled (net.pass.gaps index)).map Int.ofNat)
  | place {shape : Polyline} {places : List Point} {offsets : List Int}
      (points : net.store.shape r.pattern.shape = .ok shape)
      (known : net.places r.pattern.stops = .ok places)
      (placed : placedOffsets net.strategy shape places = .ok (some offsets)) :
      Produced net r .place offsets

theorem produced_of_findByPlace {net : Network} {r : Request} {shape : Polyline} {f : Finding}
    {offsets : List Int} (points : net.store.shape r.pattern.shape = .ok shape)
    (found : net.findByPlace shape r.pattern.stops = .ok f) (own : f.offsets? = some offsets) :
    ∃ side, f.side? = some side ∧ Produced net r side offsets := by
  unfold Network.findByPlace at found
  cases known : net.places r.pattern.stops with
  | error stop =>
    rw [known] at found
    cases found
    cases own
  | ok places =>
    rw [known] at found
    rcases bind_eq_ok.mp found with ⟨placed, searched, last⟩
    cases placed with
    | none =>
      cases last
      cases own
    | some list =>
      cases last
      cases own
      exact ⟨.place, rfl, .place points known searched⟩

/-- A finding counts for the matcher that has given its offsets. -/
theorem produced_of_find {net : Network} {r : Request} {f : Finding} {offsets : List Int}
    (found : net.find r.pattern r.travelled = .ok f) (own : f.offsets? = some offsets) :
    ∃ side, f.side? = some side ∧ Produced net r side offsets := by
  simp only [Network.find] at found
  split at found
  · cases found
    cases own
  · rename_i index shape
    split at found
    · cases found
      cases own
    · split at found
      · cases found
        cases own
        exact ⟨.distance, rfl, .distance shape⟩
      · rcases bind_eq_ok.mp found with ⟨points, read, rest⟩
        split at rest
        · cases rest
          cases own
        · exact produced_of_findByPlace (shape ▸ read) rest own

/-! ## One request -/

/-- What calls add to the counts: an assignment for each that assigns, a hit for each that returns
without a search, and for each search that has found offsets one for their matcher. -/
structure Adds (old new : Counts) (run : List (Request × Answer)) : Prop where
  trips : new.trips = old.trips + run.countP fun call => (assigned? call).isSome
  returns : new.hits + run.countP (fun call => call.2.found.isSome) =
    old.hits + run.countP fun call => call.2.result.isOk
  sides : ∀ side, new.of side =
    old.of side + run.countP fun call => call.2.found.bind Finding.side? = some side

theorem enter_counts (l : Ledger) (p : Pattern) (f : Finding) :
    (l.enter p f).1.counts.trips = l.counts.trips ∧ (l.enter p f).1.counts.hits = l.counts.hits ∧
      ∀ side, (l.enter p f).1.counts.of side =
        l.counts.of side + if f.side? = some side then 1 else 0 := by
  refine ⟨?_, ?_, ?_⟩
  · cases f <;> rfl
  · cases f <;> rfl
  · intro side
    cases f <;> cases side <;> rfl

theorem resolve_adds (net : Network) (l : Ledger) (p : Pattern) (travelled : List Float) :
    Adds l.counts (l.resolve net p travelled).ledger.counts
      [(.resolve p travelled, l.resolve net p travelled)] := by
  unfold resolve
  cases l.entries.find? p.plain with
  | some e => exact ⟨rfl, rfl, fun side => by cases side <;> rfl⟩
  | none =>
    cases net.find p travelled with
    | error fault => exact ⟨rfl, rfl, fun side => rfl⟩
    | ok f =>
      rcases enter_counts l p.plain f with ⟨trips, hits, sides⟩
      refine ⟨trips, congrArg (· + 1) hits, ?_⟩
      intro side
      rw [sides, List.countP_singleton]
      simp only [Option.bind_some, decide_eq_true_eq]

theorem answer_adds (net : Network) (l : Ledger) (r : Request) :
    Adds l.counts (l.answer net r).ledger.counts [(r, l.answer net r)] := by
  cases r with
  | resolve p travelled => exact resolve_adds net l p travelled
  | assign t =>
    -- registering the trip adds an assignment to what resolving its pattern has added
    rcases resolve_adds net l t.pattern t.travelled with ⟨trips, returns, sides⟩
    simp only [answer, assign]
    cases result : (l.resolve net t.pattern t.travelled).result with
    | error fault =>
      simp only [List.countP_singleton, result] at returns
      refine ⟨trips, ?_, sides⟩
      rw [List.countP_singleton, List.countP_singleton]
      exact returns
    | ok e =>
      simp only [List.countP_singleton, result] at returns
      refine ⟨congrArg (· + 1) trips, ?_, ?_⟩
      · rw [List.countP_singleton, List.countP_singleton]
        exact returns
      · intro side
        cases side with
        | distance => exact sides .distance
        | place => exact sides .place

/-! ## Runs -/

theorem Adds.append {old between new : Counts} {run more : List (Request × Answer)}
    (first : Adds old between run) (second : Adds between new more) :
    Adds old new (run ++ more) where
  trips := by
    rw [second.trips, first.trips, List.countP_append, Nat.add_assoc]
  returns := by
    have := first.returns
    have := second.returns
    simp only [List.countP_append]
    omega
  sides side := by
    rw [second.sides, first.sides, List.countP_append, Nat.add_assoc]

/-- What a run adds to the counts. -/
theorem run_adds (net : Network) (l : Ledger) (rs : List Request) :
    Adds l.counts (l.after net rs).counts (l.transcript net rs) := by
  induction rs generalizing l with
  | nil => exact ⟨rfl, rfl, fun _ => rfl⟩
  | cons r rs ih => exact (answer_adds net l r).append (ih (l.answer net r).ledger)

section Keys

variable (net : Network) (table : Array (List Int)) (rs : List Request)

/-- What a call has searched for is the first finding of its key. -/
theorem firstFinding?_of_found {r : Request} {a : Answer} {f : Finding}
    (member : (r, a) ∈ (start table).transcript net rs) (found : a.found = some f) :
    firstFinding? net rs r.key = some f := by
  induction rs using List.reverseRecOn with
  | nil => cases member
  | append_singleton rs q ih =>
    rw [transcript_concat] at member
    rcases List.mem_append.mp member with before | last
    · rw [firstFinding?_concat, ih before, Option.some_or]
    · cases List.mem_singleton.mp last
      cases (kept_after net table rs).answered r with
      | known e entry result idle => cases idle.symm.trans found
      | failed fault first search result idle => cases idle.symm.trans found
      | made g first search result found' =>
        cases found'.symm.trans found
        rw [firstFinding?_concat_new first (Request.finding?_of_ok search), if_pos rfl]

/-- The keys with a finding are those of the calls that have searched to the end. -/
theorem countP_foundKeys (p : Pattern → Bool) :
    (foundKeys net rs).countP p =
      ((start table).transcript net rs).countP fun call => p call.1.key && call.2.found.isSome := by
  rw [← searched_transcript net table rs, List.countP_map, List.countP_filter]
  rfl

theorem hits_after :
    ((start table).after net rs).counts.hits + (foundKeys net rs).length =
      ((start table).transcript net rs).countP fun call => call.2.result.isOk := by
  have returns := (run_adds net (start table) rs).returns
  have keys := countP_foundKeys net table rs fun _ => true
  simp only [Bool.true_and, List.countP_true] at keys
  rw [keys, returns]
  exact Nat.zero_add _

theorem sides_after (side : Side) :
    ((start table).after net rs).counts.of side = (foundKeys net rs).countP fun key =>
      (firstFinding? net rs key).bind Finding.side? = some side := by
  have none : (start table).counts.of side = 0 := by cases side <;> rfl
  rw [(run_adds net (start table) rs).sides, none, Nat.zero_add, countP_foundKeys net table rs]
  refine List.countP_congr fun call member => ?_
  cases found : call.2.found with
  | none => simp
  | some f => simp [firstFinding?_of_found net table rs member found]

end Keys

/-! ## What the counts say -/

/-- The matcher of a key: that of what its first call that returns finds. -/
def sideOf? (net : Network) (run : List (Request × Answer)) (key : Pattern) : Option Side :=
  (firstReturned? run key).bind fun q => (q.finding? net).bind Finding.side?

theorem sideOf?_transcript (net : Network) (table : Array (List Int)) (rs : List Request)
    (key : Pattern) :
    sideOf? net ((start table).transcript net rs) key =
      (firstFinding? net rs key).bind Finding.side? := by
  have origin := congrArg (Option.bind · (Option.bind · Finding.side?))
    (firstReturned?_transcript net table rs key)
  simpa [sideOf?, Option.bind_map, Function.comp_def] using origin

/-- Each key with offsets counts for one of the matchers. -/
theorem countP_sides (sideOf : Pattern → Option Side) (keys : List Pattern) :
    (keys.countP fun key => sideOf key = some .distance) +
        (keys.countP fun key => sideOf key = some .place) =
      keys.countP fun key => (sideOf key).isSome := by
  induction keys with
  | nil => rfl
  | cons key keys ih =>
    have here : (if sideOf key = some .distance then 1 else 0) +
        (if sideOf key = some .place then 1 else 0) = if (sideOf key).isSome then 1 else 0 := by
      cases sideOf key with
      | none => rfl
      | some side => cases side <;> rfl
    simp only [List.countP_cons, decide_eq_true_eq]
    omega

/-- What the counts of a ledger that had a table only say about the calls since. -/
structure Accounts (net : Network) (first : Array (List Int)) (run : List (Request × Answer))
    (last : Ledger) : Prop where
  trips : last.counts.trips = run.countP fun call => (assigned? call).isSome
  -- the trips without offsets, known answers among them: by their reasons, and all together
  reasons : ∀ reason, last.counts.without.count reason =
    run.countP fun call => (assigned? call).any fun made => made.2 = .without reason
  without : last.counts.without.length =
    run.countP fun call => (assigned? call).any fun made => made.2.row? = none
  hits : last.counts.hits + (resolvedKeys run).length = run.countP fun call => call.2.result.isOk
  grown : last.table.size = first.size + last.counts.computations
  sides : ∀ side, last.counts.of side =
    (resolvedKeys run).countP fun key => sideOf? net run key = some side
  -- a row is counted for the matcher that has given it, for the first call of its key that returns
  produced : ∀ key row, last.entries.find? key = some (.row row) → ∃ q side offsets,
    firstReturned? run key = some q ∧ sideOf? net run key = some side ∧
      last.table[row]? = some offsets ∧ Produced net q side offsets

section Accounts

variable (net : Network) (table : Array (List Int)) (rs : List Request)

theorem count_without (reason : Reason) :
    ((start table).after net rs).counts.without.count reason =
      ((start table).transcript net rs).countP fun call =>
        (assigned? call).any fun made => made.2 = .without reason := by
  rw [without_after, List.filterMap_reverse, List.count_reverse, List.filterMap_filterMap,
    List.count_filterMap]
  refine List.countP_congr fun call _ => ?_
  cases assigned? call with
  | none => simp
  | some made => simp [Entry.reason?_eq_some]

theorem length_without :
    ((start table).after net rs).counts.without.length =
      ((start table).transcript net rs).countP fun call =>
        (assigned? call).any fun made => made.2.row? = none := by
  rw [without_after, List.filterMap_reverse, List.length_reverse, List.filterMap_filterMap,
    List.length_filterMap_eq_countP]
  refine List.countP_congr fun call _ => ?_
  cases assigned? call with
  | none => simp
  | some made => simp [Entry.isSome_reason?]

theorem computations_after :
    ((start table).after net rs).counts.computations = (matchedKeys net rs).length := by
  have sides := sides_after net table rs
  calc ((start table).after net rs).counts.computations
      = (foundKeys net rs).countP fun key =>
          ((firstFinding? net rs key).bind Finding.side?).isSome := by
        rw [← countP_sides, ← sides .distance, ← sides .place]
        rfl
    _ = (matchedKeys net rs).length := by
        rw [matchedKeys, ← List.countP_eq_length_filter]
        refine List.countP_congr fun key _ => ?_
        rw [offsetsOf?]
        cases firstFinding? net rs key with
        | none => rfl
        | some f => simp [Finding.isSome_side?]

theorem accounts_after :
    Accounts net table ((start table).transcript net rs) ((start table).after net rs) := by
  have kept := kept_after net table rs
  have keys := resolvedKeys_transcript net table rs
  refine
    { trips := (run_adds net (start table) rs).trips.trans (Nat.zero_add _)
      reasons := count_without net table rs
      without := length_without net table rs
      hits := keys ▸ hits_after net table rs
      grown := ?_
      sides := ?_
      produced := ?_ }
  · rw [kept.size, computations_after, Array.length_toList]
  · intro side
    simp only [keys, sideOf?_transcript, sides_after]
  · intro key row entry
    have origin := (kept.entries key).symm.trans entry
    rcases Option.isSome_iff_exists.mp (mem_matchedKeys.mp (entryOf?_eq_row.mp origin).1) with
      ⟨offsets, has⟩
    rcases Option.bind_eq_some_iff.mp has with ⟨f, first, own⟩
    have returned := firstReturned?_transcript net table rs key
    rw [first] at returned
    rcases Option.map_eq_some_iff.mp returned with ⟨q, here, finding⟩
    rcases produced_of_find (Request.find_of_finding? finding) own with ⟨side, counted, produced⟩
    refine ⟨q, side, offsets, here, ?_, (kept.row origin).trans has, produced⟩
    rw [sideOf?_transcript, first]
    exact counted

end Accounts

end Ledger
end StopAlign
