import StopAlign.Proofs.Trip.Findings

/-!
# Run — what a sequence of requests leaves in a ledger

- `Ledger.after`, `Ledger.transcript` : the ledger after requests; the requests with their answers
- `Ledger.Kept` : entries and table, as the findings of the requests say
- `Ledger.firstReturned?`, `Ledger.resolvedKeys` : calls that return, by key
- `Ledger.lastAssigned?` : what is registered for a trip
- `Ledger.Shared`        : every answer is what the first call of its key that returns has found

A ledger only grows, so everything is proved for a run that grows by one request at its end.
-/

namespace StopAlign

namespace Ledger

/-! ## Requests one by one -/

theorem enter_eq (l : Ledger) (p : Pattern) (f : Finding) :
    (l.enter p f).2 = f.entry l.table.size ∧
      (l.enter p f).1.entries = l.entries.put p (f.entry l.table.size) ∧
      (l.enter p f).1.table.toList = l.table.toList ++ f.offsets?.toList ∧
      (l.enter p f).1.trips = l.trips ∧ (l.enter p f).1.counts.without = l.counts.without := by
  cases f <;> simp [enter, Finding.entry, Finding.offsets?]

/-- Registering a trip leaves entries and table alone. -/
theorem answer_eq_resolve (net : Network) (l : Ledger) (r : Request) :
    (l.answer net r).result = (l.resolve net r.pattern r.travelled).result ∧
      (l.answer net r).found = (l.resolve net r.pattern r.travelled).found ∧
      (l.answer net r).ledger.entries = (l.resolve net r.pattern r.travelled).ledger.entries ∧
      (l.answer net r).ledger.table = (l.resolve net r.pattern r.travelled).ledger.table := by
  cases r with
  | resolve pattern travelled => exact ⟨rfl, rfl, rfl, rfl⟩
  | assign trip =>
    simp only [answer, assign, Request.pattern, Request.travelled]
    cases result : (l.resolve net trip.pattern trip.travelled).result with
    | error fault => exact ⟨rfl, rfl, rfl, rfl⟩
    | ok entry => exact ⟨rfl, rfl, rfl, rfl⟩

/-- A known key is answered from its entry, and nothing is searched. -/
theorem answer_known (net : Network) {l : Ledger} {r : Request} {e : Entry}
    (h : l.entries.find? r.key = some e) :
    (l.answer net r).result = .ok e ∧ (l.answer net r).found = none ∧
      (l.answer net r).ledger.entries = l.entries ∧ (l.answer net r).ledger.table = l.table := by
  rcases answer_eq_resolve net l r with ⟨result, found, entries, table⟩
  rw [Request.key] at h
  rw [result, found, entries, table, resolve, h]
  exact ⟨rfl, rfl, rfl, rfl⟩

/-- A fault changes nothing. -/
theorem answer_failed {net : Network} {l : Ledger} {r : Request} {fault : Fault}
    (h : l.entries.find? r.key = none) (failed : net.find r.pattern r.travelled = .error fault) :
    (l.answer net r).result = .error fault ∧ (l.answer net r).found = none ∧
      (l.answer net r).ledger.entries = l.entries ∧ (l.answer net r).ledger.table = l.table := by
  rcases answer_eq_resolve net l r with ⟨result, found, entries, table⟩
  rw [Request.key] at h
  rw [result, found, entries, table, resolve, h, failed]
  exact ⟨rfl, rfl, rfl, rfl⟩

/-- A new finding is entered under its key, and its offsets stand behind the table. -/
theorem answer_new {net : Network} {l : Ledger} {r : Request} {f : Finding}
    (h : l.entries.find? r.key = none) (found : net.find r.pattern r.travelled = .ok f) :
    (l.answer net r).result = .ok (f.entry l.table.size) ∧ (l.answer net r).found = some f ∧
      (l.answer net r).ledger.entries = l.entries.put r.key (f.entry l.table.size) ∧
      (l.answer net r).ledger.table.toList = l.table.toList ++ f.offsets?.toList := by
  rcases answer_eq_resolve net l r with ⟨result, made, entries, table⟩
  rcases enter_eq l r.pattern.plain f with ⟨entry, entered, grown, -, -⟩
  rw [Request.key] at h
  rw [result, made, entries, table, resolve, h, found]
  exact ⟨congrArg Except.ok entry, rfl, entered, grown⟩

/-! ## Runs -/

/-- The ledger after requests. -/
def after (net : Network) (l : Ledger) (rs : List Request) : Ledger :=
  rs.foldl (fun l r => (l.answer net r).ledger) l

/-- Requests with their answers. -/
def transcript (net : Network) : Ledger → List Request → List (Request × Answer)
  | _, [] => []
  | l, r :: rs => (r, l.answer net r) :: transcript net (l.answer net r).ledger rs

theorem after_concat (net : Network) (l : Ledger) (rs : List Request) (r : Request) :
    l.after net (rs ++ [r]) = ((l.after net rs).answer net r).ledger := by
  simp [after, List.foldl_append]

theorem transcript_append (net : Network) (l : Ledger) (rs more : List Request) :
    l.transcript net (rs ++ more) =
      l.transcript net rs ++ (l.after net rs).transcript net more := by
  induction rs generalizing l with
  | nil => rfl
  | cons r rs ih =>
    have later := ih (l.answer net r).ledger
    simpa [transcript, after] using later

theorem transcript_concat (net : Network) (l : Ledger) (rs : List Request) (r : Request) :
    l.transcript net (rs ++ [r]) =
      l.transcript net rs ++ [(r, (l.after net rs).answer net r)] := by
  simp [transcript_append, transcript]

/-- An answer of a run is the one that the ledger gives after the requests before it. -/
theorem mem_transcript {net : Network} {l : Ledger} {rs : List Request} {r : Request} {a : Answer}
    (h : (r, a) ∈ l.transcript net rs) :
    ∃ before behind, rs = before ++ r :: behind ∧ a = (l.after net before).answer net r := by
  induction rs generalizing l with
  | nil => cases h
  | cons first rs ih =>
    rcases List.mem_cons.mp h with here | later
    · cases here
      exact ⟨[], rs, rfl, rfl⟩
    · rcases ih later with ⟨before, behind, parts, answer⟩
      exact ⟨first :: before, behind, congrArg (first :: ·) parts, answer⟩

/-- What entries and table of a ledger are after requests to one that had a table only. -/
structure Kept (net : Network) (table : List (List Int)) (rs : List Request) (l : Ledger) :
    Prop where
  entries : ∀ key, l.entries.find? key = entryOf? net table.length rs key
  table : l.table.toList = table ++ matchedOffsets net rs

section Kept

variable {net : Network} {table : List (List Int)} {rs : List Request} {l : Ledger}

theorem Kept.size (kept : Kept net table rs l) :
    l.table.size = table.length + (matchedKeys net rs).length := by
  have length := congrArg List.length kept.table
  simpa [matchedOffsets] using length

/-- The answers of such a ledger, where `row` is the next row of the table. -/
inductive Answered (net : Network) (size row : Nat) (rs : List Request) (l : Ledger) (r : Request)
    (a : Answer) : Prop
  -- the key has an entry, and nothing is searched
  | known (e : Entry) (entry : entryOf? net size rs r.key = some e) (result : a.result = .ok e)
      (idle : a.found = none) (entries : a.ledger.entries = l.entries)
      (table : a.ledger.table = l.table)
  -- the search fails, and leaves nothing behind
  | failed (fault : Fault) (first : firstFinding? net rs r.key = none)
      (search : net.find r.pattern r.travelled = .error fault) (result : a.result = .error fault)
      (idle : a.found = none) (entries : a.ledger.entries = l.entries)
      (table : a.ledger.table = l.table)
  -- the search makes the finding of the key
  | made (f : Finding) (first : firstFinding? net rs r.key = none)
      (search : net.find r.pattern r.travelled = .ok f) (result : a.result = .ok (f.entry row))
      (found : a.found = some f) (entries : a.ledger.entries = l.entries.put r.key (f.entry row))
      (table : a.ledger.table.toList = l.table.toList ++ f.offsets?.toList)

theorem Kept.answered (kept : Kept net table rs l) (r : Request) :
    Answered net table.length (table.length + (matchedKeys net rs).length) rs l r
      (l.answer net r) := by
  cases entry : entryOf? net table.length rs r.key with
  | some e =>
    rcases answer_known net ((kept.entries r.key).trans entry) with ⟨result, idle, entries, same⟩
    exact .known e entry result idle entries same
  | none =>
    have first : firstFinding? net rs r.key = none := Option.map_eq_none_iff.mp entry
    have unknown : l.entries.find? r.key = none := (kept.entries r.key).trans entry
    rw [← kept.size]
    cases search : net.find r.pattern r.travelled with
    | error fault =>
      rcases answer_failed unknown search with ⟨result, idle, entries, same⟩
      exact .failed fault first search result idle entries same
    | ok f =>
      rcases answer_new unknown search with ⟨result, found, entries, grown⟩
      exact .made f first search result found entries grown

/-- One more request keeps entries and table as they should be. -/
theorem Kept.answer (kept : Kept net table rs l) (r : Request) :
    Kept net table (rs ++ [r]) (l.answer net r).ledger := by
  -- without a new finding everything stays
  have old : (firstFinding? net rs r.key).isSome = true ∨ r.finding? net = none →
      (l.answer net r).ledger.entries = l.entries → (l.answer net r).ledger.table = l.table →
      Kept net table (rs ++ [r]) (l.answer net r).ledger := by
    intro h entries same
    refine ⟨?_, ?_⟩
    · intro key
      rw [entries, entryOf?_concat_old _ h, kept.entries]
    · rw [same, matchedOffsets_concat_old h, kept.table]
  cases kept.answered r with
  | known e entry _ _ entries same =>
    exact old (.inl (firstFinding?_of_entryOf? entry)) entries same
  | failed fault _ search _ _ entries same =>
    exact old (.inr (Request.finding?_of_error search)) entries same
  | made f first search _ _ entries grown =>
    have own := Request.finding?_of_ok search
    refine ⟨?_, ?_⟩
    · intro key
      rw [entries, Dictionary.find?_put, entryOf?_concat_new _ first own, kept.entries]
    · rw [grown, kept.table, matchedOffsets_concat_new first own, List.append_assoc]

end Kept

theorem kept_after (net : Network) (table : Array (List Int)) (rs : List Request) :
    Kept net table.toList rs ((start table).after net rs) := by
  induction rs using List.reverseRecOn with
  | nil => exact ⟨fun _ => rfl, (List.append_nil _).symm⟩
  | append_singleton rs r ih =>
    rw [after_concat]
    exact ih.answer r

/-! ## What a run has resolved -/

/-- The keys of the calls that return, in the order of their first such calls. -/
def resolvedKeys (run : List (Request × Answer)) : List Pattern :=
  ((run.filter fun call => call.2.result.isOk).map (·.1.key)).eraseDups

/-- The first call with a key that returns. -/
def firstReturned? (run : List (Request × Answer)) (key : Pattern) : Option Request :=
  (run.find? fun call => call.1.key = key && call.2.result.isOk).map (·.1)

theorem resolvedKeys_concat (run : List (Request × Answer)) (r : Request) (a : Answer) :
    resolvedKeys (run ++ [(r, a)]) =
      if a.result.isOk = true ∧ r.key ∉ resolvedKeys run then resolvedKeys run ++ [r.key]
      else resolvedKeys run := by
  cases returned : a.result.isOk with
  | false => simp [resolvedKeys, returned]
  | true =>
    by_cases known : r.key ∈ resolvedKeys run
    · have before := known
      simp only [resolvedKeys, List.mem_eraseDups] at before
      simp [resolvedKeys, returned, eraseDups_concat, before]
    · have before := known
      simp only [resolvedKeys, List.mem_eraseDups] at before
      simp [resolvedKeys, returned, eraseDups_concat, before]

section Transcript

variable (net : Network) (table : Array (List Int)) (rs : List Request)

theorem resolvedKeys_transcript :
    resolvedKeys ((start table).transcript net rs) = foundKeys net rs := by
  induction rs using List.reverseRecOn with
  | nil => rfl
  | append_singleton rs r ih =>
    rw [transcript_concat, resolvedKeys_concat, ih]
    cases (kept_after net table rs).answered r with
    | known e entry result =>
      have seen := firstFinding?_of_entryOf? entry
      have member := mem_foundKeys.mpr seen
      simp [member, foundKeys_concat_old (.inl seen)]
    | failed fault first search result =>
      have own := Request.finding?_of_error search
      simp [result, Except.isOk, Except.toBool, foundKeys_concat_old (.inr own)]
    | made f first search result =>
      have own := Request.finding?_of_ok search
      have fresh : r.key ∉ foundKeys net rs := by simp [mem_foundKeys, first]
      simp [result, Except.isOk, Except.toBool, fresh, foundKeys_concat_new first own]

/-- Every key is searched to the end once. -/
theorem searched_transcript :
    (((start table).transcript net rs).filter fun call => call.2.found.isSome).map (·.1.key) =
      foundKeys net rs := by
  induction rs using List.reverseRecOn with
  | nil => rfl
  | append_singleton rs r ih =>
    rw [transcript_concat, List.filter_append, List.map_append, ih]
    cases (kept_after net table rs).answered r with
    | known e entry _ idle =>
      have seen := firstFinding?_of_entryOf? entry
      simp [idle, foundKeys_concat_old (.inl seen)]
    | failed fault first search _ idle =>
      have own := Request.finding?_of_error search
      simp [idle, foundKeys_concat_old (.inr own)]
    | made f first search _ found =>
      have own := Request.finding?_of_ok search
      simp [found, foundKeys_concat_new first own]

theorem firstReturned?_transcript (key : Pattern) :
    (firstReturned? ((start table).transcript net rs) key).map (Request.finding? net) =
      (firstFinding? net rs key).map some := by
  induction rs using List.reverseRecOn with
  | nil => rfl
  | append_singleton rs r ih =>
    have split : firstReturned? ((start table).transcript net (rs ++ [r])) key =
        (firstReturned? ((start table).transcript net rs) key).or
          (firstReturned? [(r, ((start table).after net rs).answer net r)] key) := by
      rw [transcript_concat, firstReturned?, List.find?_append, Option.map_or]
      rfl
    rw [split, Option.map_or, ih, firstFinding?_concat, Option.map_or]
    by_cases same : r.key = key
    · subst same
      cases (kept_after net table rs).answered r with
      | known e entry =>
        -- an earlier call has returned, so this one is not the first
        have seen := firstFinding?_of_entryOf? entry
        rcases Option.isSome_iff_exists.mp seen with ⟨f, first⟩
        simp [first]
      | failed fault first search result =>
        have own := Request.finding?_of_error search
        simp [firstReturned?, first, own, result, Except.isOk, Except.toBool]
      | made f first search result =>
        have own := Request.finding?_of_ok search
        simp [firstReturned?, first, own, result, Except.isOk, Except.toBool]
    · simp [firstReturned?, same]

/-- An answer stays the entry of its key. -/
theorem entryOf?_of_mem_transcript {r : Request} {a : Answer} {e : Entry}
    (member : (r, a) ∈ (start table).transcript net rs) (returned : a.result = .ok e) :
    entryOf? net table.size rs r.key = some e := by
  induction rs using List.reverseRecOn with
  | nil => cases member
  | append_singleton rs q ih =>
    rw [transcript_concat] at member
    rcases List.mem_append.mp member with before | last
    · exact entryOf?_concat (ih before) q
    · cases List.mem_singleton.mp last
      cases (kept_after net table rs).answered r with
      | known g entry result =>
        cases result.symm.trans returned
        exact entryOf?_concat entry r
      | failed fault first search result => cases result.symm.trans returned
      | made f first search result =>
        cases result.symm.trans returned
        have own := Request.finding?_of_ok search
        simp [entryOf?_concat_new _ first own]

/-- A call that raises has searched for itself. -/
theorem find_of_mem_transcript {r : Request} {a : Answer} {fault : Fault}
    (member : (r, a) ∈ (start table).transcript net rs) (raised : a.result = .error fault) :
    net.find r.pattern r.travelled = .error fault := by
  rcases mem_transcript member with ⟨before, behind, -, rfl⟩
  cases (kept_after net table before).answered r with
  | known e entry result => cases result.symm.trans raised
  | failed own first search result =>
    cases result.symm.trans raised
    exact search
  | made f first search result => cases result.symm.trans raised

end Transcript

/-! ## Rows -/

section Rows

variable {net : Network} {table : List (List Int)} {rs : List Request} {l : Ledger}

theorem Kept.getElem? (kept : Kept net table rs l) {key : Pattern} {offsets : List Int}
    (h : offsetsOf? net rs key = some offsets) :
    l.table[table.length + (matchedKeys net rs).idxOf key]? = some offsets := by
  have member : key ∈ matchedKeys net rs := by simp [mem_matchedKeys, h]
  have place := List.getElem?_idxOf member
  rw [← Array.getElem?_toList, kept.table, List.getElem?_append_right (Nat.le_add_right ..)]
  simp [matchedOffsets, place, h]

/-- The row of an entry has the offsets of its key. -/
theorem Kept.row (kept : Kept net table rs l) {key : Pattern} {e : Entry}
    (h : entryOf? net table.length rs key = some e) :
    e.row?.bind (l.table[·]?) = offsetsOf? net rs key := by
  rcases Option.map_eq_some_iff.mp h with ⟨f, first, rfl⟩
  have offsets : offsetsOf? net rs key = f.offsets? := by simp [offsetsOf?, first]
  cases f with
  | without reason stop => exact offsets.symm
  | byDistance found =>
    have stored := kept.getElem? offsets
    exact stored.trans offsets.symm
  | byPlace found =>
    have stored := kept.getElem? offsets
    exact stored.trans offsets.symm

theorem entryOf?_eq_row {size : Nat} {key : Pattern} {i : Nat} :
    entryOf? net size rs key = some (.row i) ↔
      key ∈ matchedKeys net rs ∧ i = size + (matchedKeys net rs).idxOf key := by
  rw [mem_matchedKeys, offsetsOf?, entryOf?]
  cases firstFinding? net rs key with
  | none => simp
  | some f =>
    cases f with
    | without reason stop => simp [Finding.entry, Finding.offsets?]
    | byDistance found => simp [Finding.entry, Finding.offsets?, eq_comm]
    | byPlace found => simp [Finding.entry, Finding.offsets?, eq_comm]

/-- Every row behind the first table belongs to a key. -/
theorem Kept.row_owner (kept : Kept net table rs l) {i : Nat} :
    (table.length ≤ i ∧ i < l.table.size) ↔ ∃ key, l.entries.find? key = some (.row i) := by
  simp only [kept.entries, entryOf?_eq_row, kept.size]
  constructor
  · rintro ⟨low, high⟩
    have bound : i - table.length < (matchedKeys net rs).length := by omega
    have place := (nodup_matchedKeys rs).idxOf_getElem _ bound
    refine ⟨_, List.getElem_mem bound, ?_⟩
    rw [place, Nat.add_sub_cancel' low]
  · rintro ⟨key, member, rfl⟩
    have bound := List.idxOf_lt_length_of_mem member
    exact ⟨Nat.le_add_right _ _, Nat.add_lt_add_left bound _⟩

theorem Kept.row_injective (kept : Kept net table rs l) {key other : Pattern} {i : Nat}
    (h : l.entries.find? key = some (.row i)) (h' : l.entries.find? other = some (.row i)) :
    key = other := by
  rw [kept.entries, entryOf?_eq_row] at h h'
  have index : (matchedKeys net rs).idxOf key = (matchedKeys net rs).idxOf other :=
    Nat.add_left_cancel (h.2.symm.trans h'.2)
  exact (List.idxOf_inj h.1).mp index

end Rows

/-! ## The register -/

/-- What a call assigns, if it does. -/
def assigned? (call : Request × Answer) : Option (Trip × Entry) :=
  match call.1 with
  | .assign trip => call.2.result.toOption.map (trip, ·)
  | .resolve _ _ => none

/-- The last assignment of a trip. -/
def lastAssigned? (run : List (Request × Answer)) (trip : Ident) : Option (Trip × Entry) :=
  (run.filterMap assigned?).reverse.find? fun made => made.1.id.plain = trip.plain

theorem resolve_trips (net : Network) (l : Ledger) (p : Pattern) (travelled : List Float) :
    (l.resolve net p travelled).ledger.trips = l.trips ∧
      (l.resolve net p travelled).ledger.counts.without = l.counts.without := by
  unfold resolve
  cases l.entries.find? p.plain with
  | some e => exact ⟨rfl, rfl⟩
  | none =>
    cases net.find p travelled with
    | error fault => exact ⟨rfl, rfl⟩
    | ok f => exact (enter_eq l p.plain f).2.2.2

theorem assigned?_eq_some {r : Request} {a : Answer} {t : Trip} {e : Entry} :
    assigned? (r, a) = some (t, e) ↔ r = .assign t ∧ a.result = .ok e := by
  cases r with
  | resolve p travelled => simp [assigned?]
  | assign trip =>
    cases result : a.result with
    | error fault => simp [assigned?, result, Except.toOption]
    | ok entry => simp [assigned?, result, Except.toOption]

/-- A call that assigns nothing leaves the register alone. -/
theorem answer_of_unassigned {net : Network} {l : Ledger} {r : Request}
    (h : assigned? (r, l.answer net r) = none) :
    (l.answer net r).ledger.trips = l.trips ∧
      (l.answer net r).ledger.counts.without = l.counts.without := by
  cases r with
  | resolve p travelled => exact resolve_trips net l p travelled
  | assign t =>
    cases result : (l.resolve net t.pattern t.travelled).result with
    | error fault => simpa [answer, assign, result] using resolve_trips net l t.pattern t.travelled
    | ok e => simp [answer, assign, result, assigned?, Except.toOption] at h

theorem answer_of_assigned {net : Network} {l : Ledger} {r : Request} {t : Trip} {e : Entry}
    (h : assigned? (r, l.answer net r) = some (t, e)) :
    (l.answer net r).ledger.trips = l.trips.put t.id.plain
        ⟨((l.registered? t.id).map (·.trip)).getD t.id, t.shape, e.row?⟩ ∧
      (l.answer net r).ledger.counts.without = e.reason?.toList ++ l.counts.without := by
  rcases assigned?_eq_some.mp h with ⟨rfl, given⟩
  rcases resolve_trips net l t.pattern t.travelled with ⟨trips, without⟩
  have result : (l.resolve net t.pattern t.travelled).result = .ok e := by
    rw [← given, (answer_eq_resolve net l (.assign t)).1]
    rfl
  have ledger : (l.answer net (.assign t)).ledger =
      (l.resolve net t.pattern t.travelled).ledger.register t e := by
    simp [answer, assign, result]
  refine ⟨?_, ?_⟩
  · simp [ledger, register, registered?, trips]
  · rw [ledger]
    cases e with
    | row i => exact without
    | without reason => exact congrArg (reason :: ·) without

section Register

variable (net : Network) (table : Array (List Int)) (rs : List Request)

theorem registered?_after (trip : Ident) :
    (((start table).after net rs).registered? trip).map (fun g => (g.shape, g.row)) =
      (lastAssigned? ((start table).transcript net rs) trip).map
        fun made => (made.1.shape, made.2.row?) := by
  induction rs using List.reverseRecOn with
  | nil => rfl
  | append_singleton rs r ih =>
    rw [after_concat, transcript_concat]
    cases made : assigned? (r, ((start table).after net rs).answer net r) with
    | none =>
      have trips := (answer_of_unassigned made).1
      simpa [lastAssigned?, registered?, made, trips] using ih
    | some pair =>
      have trips := (answer_of_assigned made).1
      by_cases same : pair.1.id.plain = trip.plain
      · simp [lastAssigned?, registered?, made, trips, same]
      · simpa [lastAssigned?, registered?, made, trips, Dictionary.find?_put, same] using ih

/-- The reasons of a ledger are those of its assignments, the last one first. -/
theorem without_after :
    ((start table).after net rs).counts.without =
      (((start table).transcript net rs).filterMap assigned?).reverse.filterMap
        (·.2.reason?) := by
  induction rs using List.reverseRecOn with
  | nil => rfl
  | append_singleton rs r ih =>
    rw [after_concat, transcript_concat]
    cases made : assigned? (r, ((start table).after net rs).answer net r) with
    | none =>
      have same := (answer_of_unassigned made).2
      simpa [made, same] using ih
    | some pair =>
      have more := (answer_of_assigned made).2
      cases reason : pair.2.reason? with
      | none => simpa [made, more, reason] using ih
      | some why => simpa [made, more, reason] using ih

/-- A trip has the offsets of the pattern that it was last assigned with. -/
theorem offsets?_after (trip : Ident) :
    ((start table).after net rs).offsets? trip =
      (lastAssigned? ((start table).transcript net rs) trip).bind
        fun made => offsetsOf? net rs made.1.pattern.plain := by
  have registered := congrArg (Option.bind · Prod.snd) (registered?_after net table rs trip)
  have rows : (((start table).after net rs).registered? trip).bind (·.row) =
      (lastAssigned? ((start table).transcript net rs) trip).bind (·.2.row?) := by
    simpa [Option.bind_map, Function.comp_def] using registered
  rw [offsets?, rows]
  cases last : lastAssigned? ((start table).transcript net rs) trip with
  | none => rfl
  | some made =>
    have member : made ∈ ((start table).transcript net rs).filterMap assigned? :=
      List.mem_reverse.mp (List.mem_of_find?_eq_some last)
    rcases List.mem_filterMap.mp member with ⟨⟨r, a⟩, call, own⟩
    rcases assigned?_eq_some.mp own with ⟨rfl, result⟩
    have entry := entryOf?_of_mem_transcript net table rs call result
    exact (kept_after net table rs).row entry

end Register

/-! ## Requests share findings -/

/-- The ledger after some of the requests: entries stay, and the table only grows. -/
theorem after_grows (net : Network) (table : Array (List Int)) {before rs : List Request}
    (h : before <+: rs) :
    (∀ key e, ((start table).after net before).entries.find? key = some e →
        ((start table).after net rs).entries.find? key = some e) ∧
      ((start table).after net before).table.toList <+:
        ((start table).after net rs).table.toList := by
  rcases h with ⟨more, rfl⟩
  refine ⟨?_, ?_⟩
  · intro key e entry
    rw [(kept_after net table before).entries] at entry
    rw [(kept_after net table _).entries]
    exact entryOf?_append entry more
  · induction more using List.reverseRecOn with
    | nil => simp
    | append_singleton more r ih =>
      rw [← List.append_assoc, after_concat]
      refine ih.trans ?_
      cases (kept_after net table (before ++ more)).answered r with
      | known _ _ _ _ _ same => exact same ▸ List.prefix_rfl
      | failed _ _ _ _ _ _ same => exact same ▸ List.prefix_rfl
      | made _ _ _ _ _ _ grown =>
        rw [grown]
        exact List.prefix_append _ _

/-- What the answers to requests and the ledger after them have in common. -/
structure Shared (net : Network) (first : Array (List Int)) (rs : List Request)
    (run : List (Request × Answer)) (last : Ledger) : Prop where
  -- a call that returns gives what the first call of its key that returns has found
  answers : ∀ r a e, (r, a) ∈ run → a.result = .ok e → ∃ q f,
    firstReturned? run r.key = some q ∧ net.find q.pattern q.travelled = .ok f ∧
      firstFinding? net rs r.key = some f ∧
      e = f.entry (first.size + (matchedKeys net rs).idxOf r.key)
  faults : ∀ r a fault, (r, a) ∈ run → a.result = .error fault →
    net.find r.pattern r.travelled = .error fault
  -- one search is completed for each key that is resolved
  resolved : resolvedKeys run = foundKeys net rs
  searched : (run.filter fun call => call.2.found.isSome).map (·.1.key) = resolvedKeys run
  distinct : (resolvedKeys run).Nodup
  entries : ∀ key, last.entries.find? key = entryOf? net first.size rs key
  -- the rows behind the first table belong to the keys with offsets, one to each
  table : last.table.toList = first.toList ++ matchedOffsets net rs
  owned : ∀ i, first.size ≤ i ∧ i < last.table.size ↔
    ∃ key, last.entries.find? key = some (.row i)
  alone : ∀ key other i, last.entries.find? key = some (.row i) →
    last.entries.find? other = some (.row i) → key = other
  -- nothing that has been written changes
  grown : ∀ before, before <+: rs →
    (∀ key e, ((start first).after net before).entries.find? key = some e →
      last.entries.find? key = some e) ∧
    ((start first).after net before).table.toList <+: last.table.toList
  registered : ∀ trip, last.offsets? trip =
    (lastAssigned? run trip).bind fun made => offsetsOf? net rs made.1.pattern.plain

theorem shared_after (net : Network) (table : Array (List Int)) (rs : List Request) :
    Shared net table rs ((start table).transcript net rs) ((start table).after net rs) := by
  have kept := kept_after net table rs
  have resolved := resolvedKeys_transcript net table rs
  refine
    { answers := ?_
      faults := fun r a fault => find_of_mem_transcript net table rs
      resolved := resolved
      searched := (searched_transcript net table rs).trans resolved.symm
      distinct := nodup_eraseDups _
      entries := kept.entries
      table := kept.table
      owned := fun i => kept.row_owner
      alone := fun key other i => kept.row_injective
      grown := fun before => after_grows net table
      registered := offsets?_after net table rs }
  intro r a e member result
  have entry := entryOf?_of_mem_transcript net table rs member result
  rcases Option.map_eq_some_iff.mp entry with ⟨f, found, rfl⟩
  have origin := firstReturned?_transcript net table rs r.key
  rw [found] at origin
  rcases Option.map_eq_some_iff.mp origin with ⟨q, returned, own⟩
  refine ⟨q, f, returned, ?_, found, rfl⟩
  cases search : net.find q.pattern q.travelled with
  | ok g => simpa [Request.finding?, search, Except.toOption] using own
  | error fault => simp [Request.finding?, search, Except.toOption] at own

end Ledger
end StopAlign
