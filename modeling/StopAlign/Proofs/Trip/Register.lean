import StopAlign.Proofs.Export.Offsets
import StopAlign.Proofs.Trip.Fitting
import StopAlign.Proofs.Trip.Order

/-!
# Register — the result that a trip has in the end

- `LastNamed`          : the last one of some trips with an identifier
- `registered_of_pass` : a trip has the result of the last one with its identifier
- `Shows`              : cells that show the result of a pattern
- `shows_of_pass`      : what the row of a trip shows after a pass

The register goes by identifiers, so of two trips with one identifier the first one is forgotten.
-/

namespace StopAlign

/-- The place of the last trip with an identifier, and the trip. -/
structure LastNamed (trips : List Trip) (id : Ident) (j : Nat) (last : Trip) : Prop where
  place : trips[j]? = some last
  named : last.id.plain = id.plain
  others : ∀ k u, j < k → trips[k]? = some u → u.id.plain ≠ id.plain

theorem lastNamed_of_find? {trips : List Trip} {id : Ident} {last : Trip}
    (h : (trips.reverse.find? fun t => t.id.plain = id.plain) = some last) :
    ∃ j, LastNamed trips id j last := by
  rcases List.find?_eq_some_iff_append.mp h with ⟨named, behind, before, parts, others⟩
  have whole : trips = before.reverse ++ last :: behind.reverse := by
    rw [← trips.reverse_reverse, parts]
    simp
  subst whole
  refine ⟨before.reverse.length, ?_, by simpa using named, ?_⟩
  · rw [List.getElem?_append_right (Nat.le_refl _), Nat.sub_self, List.getElem?_cons_zero]
  · intro k u later found
    rw [List.getElem?_append_right (Nat.le_of_lt later)] at found
    -- behind the last one
    obtain ⟨n, place⟩ : ∃ n, k - before.reverse.length = n + 1 := ⟨k - before.reverse.length - 1,
      by omega⟩
    rw [place, List.getElem?_cons_succ] at found
    have member := List.mem_reverse.mp (List.mem_of_getElem? found)
    simpa using others u member

/-! ## Offsets of findings -/

/-- A trip with offsets has two stops or more. -/
theorem Network.two_le_of_offsets? {net : Network} {p : Pattern} {travelled : List Float}
    {f : Finding} {offsets : List Int} (found : net.find p travelled = .ok f)
    (own : f.offsets? = some offsets) : 2 ≤ p.stops.length := by
  rcases p with ⟨_ | index, stops⟩
  · cases found
    cases own
  · by_cases few : stops.length < 2
    · simp only [find, if_pos few] at found
      cases found
      cases own
    · exact Nat.le_of_not_lt few

theorem Network.Sound.offsets_ne_nil {net : Network} (sound : net.Sound) {p : Pattern}
    {travelled : List Float} {f : Finding} {offsets : List Int}
    (found : net.find p travelled = .ok f) (own : f.offsets? = some offsets) : offsets ≠ [] := by
  rcases Network.find_fits sound found own with ⟨index, shape, fits⟩
  have enough := Network.two_le_of_offsets? found own
  have count := fits.length_eq
  intro none
  rw [none, List.length_nil] at count
  omega

/-! ## Passes -/

/-- Cells that show the result of a pattern on a shape of so many points: the row of its offsets and
the offsets themselves, or nothing. -/
inductive Shows (l : Ledger) (key : Pattern) (points : Nat) : String → String → Prop
  | matched {row : Nat} {offsets : List Int} {cell : String}
      (entry : l.entries.find? key = some (.row row)) (listed : l.table[row]? = some offsets)
      (read : readOffsets cell = offsets.map some) (filled : cell ≠ "")
      (inside : ∀ o ∈ offsets, 0 ≤ o ∧ o < points) : Shows l key points (toString row) cell
  | unmatchable {reason : Reason} (entry : l.entries.find? key = some (.without reason)) :
      Shows l key points "" ""

section Passes

variable {net : Network} {meter : Nat → List Line} {trips : List Trip} {l : Ledger} {t : Trip}

open Ledger

/-- A trip has the result of the last one with its identifier. -/
theorem registered_of_pass (ended : (matchTrips net meter trips).outcome = .ok l)
    (member : t ∈ trips) :
    ∃ j last e, LastNamed trips t.id j last ∧ l.entries.find? last.pattern.plain = some e ∧
      (l.registered? t.id).bind (·.row) = e.row? := by
  rcases matchTrips_eq_ok.mp ended with ⟨returned, rfl⟩
  have all := map_assigned_transcript returned
  have registered := registered?_after net #[] (trips.map .assign) t.id
  -- the last assignment is the one of the last trip
  have lasts : (lastAssigned? ((start #[]).transcript net (trips.map .assign)) t.id).map
      Prod.fst = trips.reverse.find? fun u => u.id.plain = t.id.plain := by
    rw [lastAssigned?]
    conv_rhs => rw [← all, ← List.map_reverse, List.find?_map]
    rfl
  cases assigned : lastAssigned? ((start #[]).transcript net (trips.map .assign)) t.id with
  | none =>
    rw [assigned] at lasts
    have none := List.find?_eq_none.mp lasts.symm t (List.mem_reverse.mpr member)
    exact absurd (decide_eq_true rfl) none
  | some made =>
    rcases made with ⟨last, e⟩
    rw [assigned] at lasts registered
    rcases lastNamed_of_find? lasts.symm with ⟨j, here⟩
    have own := List.mem_reverse.mp (List.mem_of_find?_eq_some assigned)
    rcases List.mem_filterMap.mp own with ⟨⟨r, a⟩, call, made⟩
    rcases assigned?_eq_some.mp made with ⟨rfl, result⟩
    have entry := entryOf?_of_mem_transcript net #[] (trips.map .assign) call result
    -- its answer is the entry of its pattern, also at the end of the pass
    refine ⟨j, last, e, here, ?_, ?_⟩
    · exact ((kept_after net #[] (trips.map .assign)).entries _).trans entry
    · rcases Option.map_eq_some_iff.mp registered with ⟨g, found, same⟩
      rw [found]
      exact congrArg Prod.snd same

/-- The row of an entry has offsets that a request of its pattern has found. -/
theorem finding_of_entry (ended : (matchTrips net meter trips).outcome = .ok l) {p : Pattern}
    {row : Nat} (entry : l.entries.find? p.plain = some (.row row)) :
    ∃ (r : Request) (f : Finding) (offsets : List Int), r.key = p.plain ∧
      net.find r.pattern r.travelled = .ok f ∧ f.offsets? = some offsets ∧
        l.table[row]? = some offsets := by
  rcases matchTrips_eq_ok.mp ended with ⟨-, rfl⟩
  have kept := kept_after net #[] (trips.map .assign)
  have origin := (kept.entries p.plain).symm.trans entry
  rcases Option.isSome_iff_exists.mp (mem_matchedKeys.mp (entryOf?_eq_row.mp origin).1) with
    ⟨offsets, has⟩
  rcases Option.bind_eq_some_iff.mp has with ⟨f, first, own⟩
  rcases exists_of_firstFinding? first with ⟨r, same, found⟩
  exact ⟨r, f, offsets, same, found, own, (kept.row origin).trans has⟩

/-- A pattern with a row has two stops or more. -/
theorem two_le_of_entry (ended : (matchTrips net meter trips).outcome = .ok l) {p : Pattern}
    {row : Nat} (entry : l.entries.find? p.plain = some (.row row)) : 2 ≤ p.stops.length := by
  rcases finding_of_entry ended entry with ⟨r, f, offsets, same, found, own, -⟩
  have count : r.pattern.stops.length = p.stops.length := by
    simpa [Request.key, Pattern.plain] using congrArg (·.stops.length) same
  exact count ▸ Network.two_le_of_offsets? found own

/-- The entry of a pattern with a row has offsets on the shape of the pattern. -/
theorem offsets_of_entry (sound : net.Sound) (ended : (matchTrips net meter trips).outcome = .ok l)
    {p : Pattern} {row : Nat} (entry : l.entries.find? p.plain = some (.row row)) :
    ∃ offsets index shape, l.table[row]? = some offsets ∧ offsets ≠ [] ∧ p.shape = some index ∧
      net.store.shape (some index) = .ok shape ∧ ∀ o ∈ offsets, 0 ≤ o ∧ o < shape.length := by
  -- the request that has found them may have another pattern with the same plain form
  rcases finding_of_entry ended entry with ⟨r, f, offsets, same, found, own, listed⟩
  rcases Network.find_fits sound found own with ⟨index, shape, fits⟩
  have fits := fits.of_plain same
  exact ⟨offsets, index, shape, listed, sound.offsets_ne_nil found own, fits.shape_eq, fits.points,
    fits.bounds⟩

/-- The row of a trip shows the result of the last trip with its identifier. -/
theorem shows_of_pass (sound : net.Sound) (ended : (matchTrips net meter trips).outcome = .ok l)
    (member : t ∈ trips) :
    ∃ j last index cell, LastNamed trips t.id j last ∧
      (offsetRow net.pass l t).cells = [(offsetRow net.pass l t).tripText,
        (offsetRow net.pass l t).shape, index, cell] ∧
      ∀ points, (∀ i shape, last.shape = some i → net.store.shape (some i) = .ok shape →
        shape.length = points) → Shows l last.pattern.plain points index cell := by
  rcases registered_of_pass ended member with ⟨j, last, e, here, entry, registered⟩
  refine ⟨j, last, _, _, here, rfl, ?_⟩
  intro points count
  have row : (offsetRow net.pass l t).row = e.row? := registered
  have offsets : (offsetRow net.pass l t).offsets = e.row?.bind (l.table[·]?) :=
    congrArg (Option.bind · (l.table[·]?)) registered
  rw [row, offsets]
  cases e with
  | without reason => exact .unmatchable entry
  | row i =>
    rcases offsets_of_entry sound ended entry with ⟨list, index, shape, listed, filled, known, points',
      inside⟩
    have written : ((Entry.row i).row?.bind (l.table[·]?)).map writeOffsets =
        some (writeOffsets list) := by
      rw [Entry.row?, Option.bind_some, listed, Option.map_some]
    rw [written]
    refine .matched entry listed (readOffsets_writeOffsets filled) (writeOffsets_ne_empty filled) ?_
    rw [← count index shape known points']
    exact inside

end Passes

end StopAlign
