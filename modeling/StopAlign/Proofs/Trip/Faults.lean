import StopAlign.Proofs.Dictionary
import StopAlign.Proofs.Trip.Run

/-!
# Faults — a call that raises leaves no trace

- `answer_eq_error`, `ledger_of_error` : when a call raises, and that it leaves the ledger alone
- `answer_absent`    : a key without an entry is searched for
- `run_filter`       : a run without calls that raise
- `Reserved.resolve` : a key is reserved for its search, and set free if that fails
- `resolve_reserved` : the result for a pattern comes about by these steps
- `Traceless`, `traceless` : what a call that raises leaves behind
-/

namespace StopAlign

namespace Ledger

/-! ## One request -/

/-- A call raises if its key has no entry and its search fails, and then the ledger stays. -/
theorem answer_eq_error {net : Network} {l : Ledger} {r : Request} {fault : Fault} :
    (l.answer net r).result = .error fault ↔
      l.entries.find? r.key = none ∧ net.find r.pattern r.travelled = .error fault := by
  cases known : l.entries.find? r.key with
  | some e => simp [(answer_known net known).1]
  | none =>
    cases search : net.find r.pattern r.travelled with
    | error other => simp [(answer_failed known search).1]
    | ok f => simp [(answer_new known search).1]

theorem ledger_of_error {net : Network} {l : Ledger} {r : Request} {fault : Fault}
    (raised : (l.answer net r).result = .error fault) : (l.answer net r).ledger = l := by
  rcases answer_eq_error.mp raised with ⟨unknown, failed⟩
  cases r with
  | resolve p travelled =>
    have unknown : l.entries.find? p.plain = none := unknown
    have failed : net.find p travelled = .error fault := failed
    simp only [answer, resolve, unknown, failed]
  | assign t =>
    have unknown : l.entries.find? t.pattern.plain = none := unknown
    have failed : net.find t.pattern t.travelled = .error fault := failed
    simp only [answer, assign, resolve, unknown, failed]

/-- A key without an entry is searched for. -/
theorem answer_absent {net : Network} {l : Ledger} {r : Request}
    (unknown : l.entries.find? r.key = none) :
    (l.answer net r).result =
        (net.find r.pattern r.travelled).map (Finding.entry l.table.size) ∧
      (l.answer net r).found = r.finding? net := by
  cases search : net.find r.pattern r.travelled with
  | error fault =>
    rcases answer_failed unknown search with ⟨result, idle, -, -⟩
    exact ⟨result, idle.trans (Request.finding?_of_error search).symm⟩
  | ok f =>
    rcases answer_new unknown search with ⟨result, found, -, -⟩
    exact ⟨result, found.trans (Request.finding?_of_ok search).symm⟩

/-! ## Runs -/

/-- Calls that raise can be left out of a run: the others have their answers, and the ledger is the
same in the end. -/
theorem run_filter (net : Network) (l : Ledger) (rs : List Request)
    (p : Request × Answer → Bool)
    (raised : ∀ call ∈ l.transcript net rs, p call = false → call.2.result.isOk = false) :
    l.transcript net (((l.transcript net rs).filter p).map (·.1)) =
        (l.transcript net rs).filter p ∧
      l.after net (((l.transcript net rs).filter p).map (·.1)) = l.after net rs := by
  induction rs generalizing l with
  | nil => exact ⟨rfl, rfl⟩
  | cons r rs ih =>
    rcases ih (l.answer net r).ledger
      fun call member => raised call (List.mem_cons_of_mem _ member) with ⟨calls, last⟩
    rw [transcript, List.filter_cons]
    cases stays : p (r, l.answer net r) with
    | true =>
      rw [if_pos rfl, List.map_cons, transcript, calls]
      exact ⟨rfl, last⟩
    | false =>
      -- the call has left the ledger to the calls behind it
      have fails := raised _ List.mem_cons_self stays
      cases result : (l.answer net r).result with
      | ok e =>
        rw [result] at fails
        cases fails
      | error fault =>
        have same := ledger_of_error result
        rw [same] at calls last
        rw [if_neg Bool.false_ne_true, same]
        refine ⟨calls, last.trans ?_⟩
        rw [after, after, List.foldl_cons, same]

/-- A key has an entry only if some call with it was made. -/
theorem find?_after_other {net : Network} {l : Ledger} {key : Pattern} {rs : List Request}
    (others : ∀ r ∈ rs, r.key ≠ key) :
    (l.after net rs).entries.find? key = l.entries.find? key := by
  induction rs using List.reverseRecOn with
  | nil => rfl
  | append_singleton rs r ih =>
    have other : r.key ≠ key := others r (by simp)
    rw [after_concat, ← ih fun q member => others q (List.mem_append_left _ member)]
    cases known : (l.after net rs).entries.find? r.key with
    | some e => rw [(answer_known net known).2.2.1]
    | none =>
      cases search : net.find r.pattern r.travelled with
      | error fault => rw [(answer_failed known search).2.2.1]
      | ok f => rw [(answer_new known search).2.2.1, Dictionary.find?_put, if_neg other]

/-! ## Reserved keys -/

/-- A ledger in the middle of a call: a key whose search is under way is reserved, which is to say
that it is there without an entry. -/
structure Reserved where
  entries : Dictionary Pattern (Option Entry)
  table : Array (List Int)
  trips : Dictionary Ident Registered
  counts : Counts

/-- The ledger between two calls. -/
def reserved (l : Ledger) : Reserved := ⟨l.entries.map id some, l.table, l.trips, l.counts⟩

namespace Reserved

/-- Put offsets into the table. -/
def store (d : Reserved) : Finding → Reserved × Entry
  | .byDistance offsets =>
    ({ d with
        table := d.table.push (offsets.map Int.ofNat)
        counts := { d.counts with byDistance := d.counts.byDistance + 1 } }, .row d.table.size)
  | .byPlace offsets =>
    ({ d with
        table := d.table.push offsets
        counts := { d.counts with byPlace := d.counts.byPlace + 1 } }, .row d.table.size)
  | .without reason _ => (d, .without reason)

/-- The result for a pattern, step by step: reserve its key, search, and enter what was found or set
the key free. There is no result yet for a key that is reserved already. -/
def resolve (net : Network) (d : Reserved) (pattern : Pattern) (travelled : List Float) :
    Reserved × Option (Except Fault Entry) :=
  match d.entries.find? pattern.plain with
  | some entry =>
    ({ d with counts := { d.counts with hits := d.counts.hits + 1 } }, entry.map .ok)
  | none =>
    let d := { d with entries := d.entries.put pattern.plain none }
    match net.find pattern travelled with
    | .error fault =>
      ({ d with entries := d.entries.erase pattern.plain }, some (.error fault))
    | .ok finding =>
      let (d, entry) := d.store finding
      ({ d with entries := d.entries.put pattern.plain (some entry) }, some (.ok entry))

end Reserved

/-- Between two calls no key is reserved, whether the search has failed or not. -/
theorem resolve_reserved (net : Network) (l : Ledger) (pattern : Pattern)
    (travelled : List Float) :
    l.reserved.resolve net pattern travelled =
      ((l.resolve net pattern travelled).ledger.reserved,
        some (l.resolve net pattern travelled).result) := by
  have here := Dictionary.find?_map Function.injective_id some l.entries pattern.plain
  rw [id] at here
  cases known : l.entries.find? pattern.plain with
  | some e =>
    rw [known] at here
    simp only [Reserved.resolve, resolve, reserved, here, known]
    rfl
  | none =>
    rw [known] at here
    simp only [Reserved.resolve, resolve, reserved, here, known, Option.map_none]
    cases net.find pattern travelled with
    | error fault => simp only [Dictionary.erase_put here]
    | ok f =>
      cases f <;> simp only [Reserved.store, enter, Dictionary.put_put, Dictionary.map_put
        Function.injective_id, id]

/-! ## Without a trace -/

/-- What a call that raises leaves behind, which is nothing. -/
structure Traceless (net : Network) (first : Array (List Int)) : Prop where
  -- a call raises where its key has no entry and its search fails, at any depth
  raises : ∀ (l : Ledger) r fault, (l.answer net r).result = .error fault ↔
    l.entries.find? r.key = none ∧ net.find r.pattern r.travelled = .error fault
  kept : ∀ (l : Ledger) r fault, (l.answer net r).result = .error fault →
    (l.answer net r).ledger = l
  -- the key that was reserved for the search is set free
  released : ∀ (l : Ledger) pattern travelled, l.reserved.resolve net pattern travelled =
    ((l.resolve net pattern travelled).ledger.reserved,
      some (l.resolve net pattern travelled).result)
  -- the other calls of a run have the same answers without it, and the same ledger in the end
  deleted : ∀ rs, let returned := ((start first).transcript net rs).filter (·.2.result.isOk)
    (start first).transcript net (returned.map (·.1)) = returned ∧
      (start first).after net (returned.map (·.1)) = (start first).after net rs
  -- the next call with its key searches for itself
  afresh : ∀ before r between q fault,
    (((start first).after net before).answer net r).result = .error fault →
    (∀ other ∈ between, other.key ≠ r.key) → q.key = r.key →
    let l := (start first).after net (before ++ r :: between)
    (l.answer net q).result = (net.find q.pattern q.travelled).map (Finding.entry l.table.size) ∧
      (l.answer net q).found = q.finding? net

theorem traceless (net : Network) (first : Array (List Int)) : Traceless net first where
  raises _ _ _ := answer_eq_error
  kept _ _ _ := ledger_of_error
  released := resolve_reserved net
  deleted rs := run_filter net (start first) rs _ fun _ _ => id
  afresh := by
    intro before r between q fault raised others same l
    have unknown : l.entries.find? q.key = none := by
      have behind : l = ((start first).after net before).after net between := by
        rw [← ledger_of_error raised]
        simp [l, after]
      rw [behind, same, find?_after_other others]
      exact (answer_eq_error.mp raised).1
    exact answer_absent unknown

-- a shape that is not in the store
example (stops : Dictionary Ident Point) (strategy : Strategy) :
    ((start #[]).answer ⟨.empty, ⟨0, [], [], []⟩, stops, strategy⟩
      (.resolve ⟨some 5, [.text "a", .text "b"]⟩ [])).result = .error (.shapeIndex 5 0) := rfl

end Ledger
end StopAlign
