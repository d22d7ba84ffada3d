import StopAlign.Proofs.Align.Greedy
import StopAlign.Proofs.Align.Travelled
import StopAlign.Proofs.Shape.Filling
import StopAlign.Proofs.Trip.Run

/-!
# Fitting — offsets lie on the shapes of their patterns

- `Network.Sound`, `sound_after`, `sound_of_load` : each gap table belongs to a shape of the store
- `FitsOn`, `find_fits`          : the offsets of a finding on the shape of a pattern
- `Fitted`, `fitted_after`       : rows and polylines of a ledger after requests

Offsets by distance never look at the points of a shape. They lie on it because a gap table that is
not empty has one entry less than its shape has points.
-/

namespace StopAlign

open Outcome

/-! ## Gap tables and shapes -/

/-- An index with gaps is the index of a shape that has one point more. -/
def Network.Sound (net : Network) : Prop :=
  ∀ index, net.pass.gaps index ≠ [] → ∃ shape, net.store.shape (some index) = .ok shape ∧
    (net.pass.gaps index).length + 1 = shape.length

/-- The networks of a store that was filled from the empty one, with any of its passes. -/
theorem sound_after (ds : List Deed) {p : List ShapeRecord × Pass}
    (member : p ∈ (Filling.after ds).passes) (stops : Dictionary Ident Point)
    (strategy : Strategy) : Network.Sound ⟨(Filling.after ds).store, p.2, stops, strategy⟩ := by
  have tabled := tabled_after ds p member
  intro index gaps
  dsimp only at gaps ⊢
  by_cases outside :
      index < p.2.offset ∨ ((p.2.offset + (shapeIds p.1).length : Nat) : Int) ≤ index
  · exact absurd (tabled.others index outside) gaps
  · have place : ∃ k, index = ((p.2.offset + k : Nat) : Int) ∧ k < (shapeIds p.1).length :=
      ⟨(index - p.2.offset).toNat, by omega, by omega⟩
    rcases place with ⟨k, rfl, within⟩
    rcases tabled.own k _ (List.getElem?_eq_getElem within) with ⟨-, points, table⟩
    have here := ((refines_empty_add (added ds)).shape_eq _ _ points).1
    rw [← Filling.store_after] at here
    rw [table] at gaps ⊢
    refine ⟨_, here, ?_⟩
    rw [length_gapTable gaps, List.length_map, List.length_map]

/-- What a load brings is sound. -/
theorem sound_of_load (before : List Deed) {source : Source ShapeRecord} {pass : Pass}
    {store : ShapeStore}
    (loaded : (load source (Filling.after before).store).outcome = .ok (pass, store))
    (stops : Dictionary Ident Point) (strategy : Strategy) :
    Network.Sound ⟨store, pass, stops, strategy⟩ := by
  have whole := Filling.after_loaded loaded
  have all := sound_after (before ++ [.load source]) (p := (source.items, pass)) (by
    rw [whole]
    exact List.mem_append_right _ (List.mem_singleton_self _)) stops strategy
  rw [whole] at all
  exact all

theorem ShapeStore.inside_of_shape {store : ShapeStore} {index : Int} {shape : Polyline}
    (h : store.shape (some index) = .ok shape) : 0 ≤ index ∧ index < store.size := by
  by_contra outside
  rw [store.shape_outside index (by omega)] at h
  cases h

/-! ## Findings -/

/-- The offsets of a finding on the shape of its pattern: one for each stop, never going back, each
the index of a point. Offsets by place span the shape. -/
structure FitsOn (store : ShapeStore) (p : Pattern) (f : Finding) (offsets : List Int)
    (index : Int) (shape : Polyline) : Prop where
  shape_eq : p.shape = some index
  inside : 0 ≤ index ∧ index < store.size
  points : store.shape (some index) = .ok shape
  length_eq : offsets.length = p.stops.length
  ascending : offsets.Pairwise (· ≤ ·)
  bounds : ∀ o ∈ offsets, 0 ≤ o ∧ o < shape.length
  spans : (∃ placed, f = .byPlace placed) → Spans p.stops.length shape.length offsets

theorem FitsOn.of_plain {store : ShapeStore} {p q : Pattern} {f : Finding} {offsets : List Int}
    {index : Int} {shape : Polyline} (fits : FitsOn store p f offsets index shape)
    (same : p.plain = q) : FitsOn store q f offsets index shape := by
  subst same
  have stops : p.plain.stops.length = p.stops.length := List.length_map _
  exact
    { shape_eq := fits.shape_eq
      inside := fits.inside
      points := fits.points
      length_eq := fits.length_eq.trans stops.symm
      ascending := fits.ascending
      bounds := fits.bounds
      spans := fun placed => stops.symm ▸ fits.spans placed }

theorem fits_byDistance {store : ShapeStore} {stops : List Ident} {index : Int} {shape : Polyline}
    {travelled gaps : List Float} (points : store.shape (some index) = .ok shape)
    (count : gaps.length + 1 = shape.length) (parallel : travelled.length = stops.length) :
    FitsOn store ⟨some index, stops⟩ (.byDistance (travelledOffsets travelled gaps))
      ((travelledOffsets travelled gaps).map Int.ofNat) index shape := by
  rcases travelledOffsets_bounds travelled gaps with ⟨length, ascending, bounds⟩
  refine
    { shape_eq := rfl
      inside := ShapeStore.inside_of_shape points
      points := points
      length_eq := by rw [List.length_map, length, parallel]
      ascending := List.pairwise_map.mpr (ascending.imp fun h => Int.ofNat_le.mpr h)
      bounds := ?_
      spans := fun ⟨placed, same⟩ => nomatch same }
  intro o member
  rcases List.mem_map.mp member with ⟨n, among, rfl⟩
  have below := bounds n among
  simp only [Int.ofNat_eq_natCast]
  omega

theorem fits_byPlace {store : ShapeStore} {stops : List Ident} {index : Int} {shape : Polyline}
    {offsets : List Int} (points : store.shape (some index) = .ok shape)
    (spans : Spans stops.length shape.length offsets) :
    FitsOn store ⟨some index, stops⟩ (.byPlace offsets) offsets index shape where
  shape_eq := rfl
  inside := ShapeStore.inside_of_shape points
  points := points
  length_eq := spans.length_eq
  ascending := spans.ascending.imp fun h => Int.le_of_lt h
  bounds := fun _ member => spans.bounds member
  spans := fun _ => spans

namespace Network

variable {net : Network}

theorem length_places {stops : List Ident} {places : List Point}
    (h : net.places stops = .ok places) : places.length = stops.length := by
  induction stops generalizing places with
  | nil =>
    cases h
    rfl
  | cons stop stops ih =>
    unfold Network.places at h
    cases found : net.stops.find? stop.plain with
    | none =>
      rw [found] at h
      cases h
    | some p =>
      rw [found] at h
      rcases bind_eq_ok.mp h with ⟨rest, later, last⟩
      cases last
      rw [List.length_cons, ih later, List.length_cons]

/-- Offsets that are found by place span the shape. -/
theorem findByPlace_spans {shape : Polyline} {stops : List Ident} {f : Finding}
    (h : net.findByPlace shape stops = .ok f) :
    f.offsets? = none ∨ ∃ offsets, f = .byPlace offsets ∧
      Spans stops.length shape.length offsets := by
  unfold findByPlace at h
  cases known : net.places stops with
  | error stop =>
    rw [known] at h
    cases h
    exact .inl rfl
  | ok places =>
    rw [known] at h
    rcases bind_eq_ok.mp h with ⟨placed, searched, last⟩
    cases placed with
    | none =>
      cases last
      exact .inl rfl
    | some offsets =>
      cases last
      exact .inr ⟨offsets, rfl, length_places known ▸ placedOffsets_spans searched⟩

/-- Whatever offsets are found lie on the shape of the pattern. -/
theorem find_fits (sound : net.Sound) {p : Pattern} {travelled : List Float} {f : Finding}
    {offsets : List Int} (found : net.find p travelled = .ok f)
    (own : f.offsets? = some offsets) :
    ∃ index shape, FitsOn net.store p f offsets index shape := by
  rcases p with ⟨_ | index, stops⟩
  · cases found
    cases own
  · simp only [find] at found
    split at found
    · cases found
      cases own
    · split at found
      · rename_i distances
        cases found
        cases own
        have gaps : net.pass.gaps index ≠ [] := by
          intro none
          simp [comparable, none] at distances
        rcases sound index gaps with ⟨shape, points, count⟩
        exact ⟨index, shape, fits_byDistance points count distances.1⟩
      · rcases bind_eq_ok.mp found with ⟨shape, points, rest⟩
        split at rest
        · cases rest
          cases own
        · rcases findByPlace_spans rest with none | ⟨placed, rfl, spans⟩
          · rw [none] at own
            cases own
          · cases own
            exact ⟨index, shape, fits_byPlace points spans⟩

end Network

/-! ## Ledgers -/

namespace Ledger

/-- The first finding of a key is the one of some request with the key. -/
theorem exists_of_firstFinding? {net : Network} {rs : List Request} {key : Pattern} {f : Finding}
    (h : firstFinding? net rs key = some f) :
    ∃ r : Request, r.key = key ∧ net.find r.pattern r.travelled = .ok f := by
  rcases List.exists_of_findSome?_eq_some h with ⟨r, -, own⟩
  by_cases same : r.key = key
  · rw [if_pos same] at own
    exact ⟨r, same, Request.find_of_finding? own⟩
  · rw [if_neg same] at own
    cases own

theorem fits_of_firstFinding? {net : Network} (sound : net.Sound) {rs : List Request}
    {key : Pattern} {f : Finding} {offsets : List Int} (h : firstFinding? net rs key = some f)
    (own : f.offsets? = some offsets) :
    ∃ index shape, FitsOn net.store key f offsets index shape := by
  rcases exists_of_firstFinding? h with ⟨r, same, found⟩
  rcases Network.find_fits sound found own with ⟨index, shape, fits⟩
  exact ⟨index, shape, fits.of_plain same⟩

/-- The rows behind the first table belong to patterns and lie on their shapes, and a trip has the
polyline of its shape if, and only if, it has offsets, which lie on it. -/
structure Fitted (net : Network) (first : Array (List Int)) (rs : List Request) (l : Ledger) :
    Prop where
  rows : ∀ i offsets, first.size ≤ i → l.table[i]? = some offsets → ∃ key f,
    l.entries.find? key = some (.row i) ∧ firstFinding? net rs key = some f ∧
      f.offsets? = some offsets ∧ ∃ index shape, FitsOn net.store key f offsets index shape
  matched : ∀ trip offsets, l.offsets? trip = some offsets → ∃ index shape,
    l.shape? trip = some index ∧ net.store.shape (some index) = .ok shape ∧
      (∀ o ∈ offsets, 0 ≤ o ∧ o < shape.length) ∧ l.polyline net.store trip = .ok shape
  unmatched : ∀ trip, l.offsets? trip = none → l.polyline net.store trip = .ok []

theorem fitted_of_sound {net : Network} (sound : net.Sound) (table : Array (List Int))
    (rs : List Request) : Fitted net table rs ((start table).after net rs) := by
  have kept := kept_after net table rs
  refine ⟨?_, ?_, ?_⟩
  · intro i offsets behind row
    have within : i < ((start table).after net rs).table.size :=
      (Array.getElem?_eq_some_iff.mp row).1
    rcases kept.row_owner.mp ⟨behind, within⟩ with ⟨key, entry⟩
    have origin := (kept.entries key).symm.trans entry
    rcases Option.map_eq_some_iff.mp origin with ⟨f, found, -⟩
    have own : f.offsets? = some offsets := by
      have stored := kept.row origin
      rw [offsetsOf?, found] at stored
      exact stored.symm.trans row
    exact ⟨key, f, entry, found, own, fits_of_firstFinding? sound found own⟩
  · intro trip offsets matched
    have registered := registered?_after net table rs trip
    have origin := offsets?_after net table rs trip
    rw [matched] at origin
    rcases Option.bind_eq_some_iff.mp origin.symm with ⟨made, last, own⟩
    rcases Option.bind_eq_some_iff.mp own with ⟨f, found, offsets'⟩
    rcases fits_of_firstFinding? sound found offsets' with ⟨index, shape, fits⟩
    have shapeOf : ((start table).after net rs).shape? trip = some index := by
      rw [last] at registered
      rcases Option.map_eq_some_iff.mp registered with ⟨g, entry, same⟩
      have own := congrArg Prod.fst same
      rw [shape?, entry]
      exact own.trans fits.shape_eq
    refine ⟨index, shape, shapeOf, fits.points, fits.bounds, ?_⟩
    rw [polyline, matched, shapeOf]
    exact fits.points
  · intro trip unmatched
    rw [polyline, unmatched]
    rfl

/-- Over a store that was filled from the empty one and any of its passes, offsets lie on the shapes
of their patterns, and polylines never fail. -/
theorem fitted_after (ds : List Deed) (p : List ShapeRecord × Pass)
    (member : p ∈ (Filling.after ds).passes) (stops : Dictionary Ident Point)
    (strategy : Strategy) (table : Array (List Int)) (rs : List Request) :
    Fitted ⟨(Filling.after ds).store, p.2, stops, strategy⟩ table rs
      ((start table).after ⟨(Filling.after ds).store, p.2, stops, strategy⟩ rs) :=
  fitted_of_sound (sound_after ds member stops strategy) table rs

/-- A line of three points whose records come out of order. -/
def turned : List ShapeRecord :=
  [⟨.text "b", ⟨0, 0.002⟩, 2, 200⟩, ⟨.text "b", ⟨0, 0⟩, 0, 0⟩, ⟨.text "b", ⟨0, 0.001⟩, 1, 100⟩]

/-- A shape of one point, a stream that breaks off, and the line behind them. -/
def threeStreams : List Deed :=
  [.load ⟨[⟨.text "a", ⟨0, 0⟩, 0, 0⟩], none⟩, .load ⟨turned, some .mathDomain⟩,
    .load ⟨turned, none⟩]

/-- A trip with distances that go back and one that is none, a trip without distances on the same
shape, and one on the other shape. -/
def threeTrips : List Request :=
  [.assign ⟨.text "t", some 1, [.text "x", .text "y", .text "x"], [150, Number.notANumber, 10]⟩,
    .assign ⟨.text "u", some 1, [.text "x", .text "y"], []⟩,
    .assign ⟨.text "v", some 0, [.text "x", .text "y"], [0, 10]⟩]

theorem fitted_threeTrips :
    ∃ pass, (turned, pass) ∈ (Filling.after threeStreams).passes ∧
      Fitted ⟨(Filling.after threeStreams).store, pass,
          .ofList [(.text "x", ⟨0, 0⟩), (.text "y", ⟨0, 0.002⟩)], .division⟩ #[[5]] threeTrips
        ((start #[[5]]).after ⟨(Filling.after threeStreams).store, pass,
          .ofList [(.text "x", ⟨0, 0⟩), (.text "y", ⟨0, 0.002⟩)], .division⟩ threeTrips) := by
  have member : (turned, (Loader.ofRecords turned).pass 1) ∈
      (Filling.after threeStreams).passes := by
    decide +kernel
  exact ⟨_, member, fitted_after threeStreams (turned, (Loader.ofRecords turned).pass 1) member
    (.ofList [(.text "x", ⟨0, 0⟩), (.text "y", ⟨0, 0.002⟩)]) .division #[[5]] threeTrips⟩

end Ledger
end StopAlign
