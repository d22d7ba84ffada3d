import Mathlib.Data.List.Chain
import StopAlign.Proofs.Sequences
import StopAlign.Proofs.Shape.Store
import StopAlign.Shape.Loading

/-!
# Loading — what a stream of records leaves in the store

- `shapeIds`, `recordsOf`  : the identifiers of a stream in first-seen order; the records of a shape
- `disordersOf`            : the records whose number does not exceed the one before in their shape
- `trackOf`, `tracks_ofRecords` : the tracks of a loader, said without a loader
- `disorders_ofRecords`    : the warnings of a loader, said without a loader
- `load_outcome`           : the pass and the store that a stream without a fault brings

A loader is a fold, so all is proved for a stream that grows by one record at its end.
-/

namespace StopAlign

/-! ## The groups of a stream -/

/-- The identifiers of records in the order of their first appearance. -/
def shapeIds (records : List ShapeRecord) : List ShapeId :=
  (records.map (·.id)).eraseDups

/-- The records of one shape in input order. -/
def recordsOf (id : ShapeId) (records : List ShapeRecord) : List ShapeRecord :=
  records.filter (·.id = id)

/-- The disorder of a record behind others, if the one before it in its shape has no smaller
number. -/
def disorderBehind? (seen : List ShapeRecord) (r : ShapeRecord) : Option Disorder :=
  match (recordsOf r.id seen).getLast? with
  | some last =>
    if r.sequence ≤ last.sequence then some ⟨r.id, last.sequence, r.sequence⟩ else none
  | none => none

/-- The disorders of a stream in input order. -/
def disordersOf (records : List ShapeRecord) : List Disorder :=
  (List.range records.length).filterMap fun n =>
    records[n]?.bind (disorderBehind? (records.take n))

theorem shapeIds_concat (seen : List ShapeRecord) (r : ShapeRecord) :
    shapeIds (seen ++ [r]) =
      if r.id ∈ shapeIds seen then shapeIds seen else shapeIds seen ++ [r.id] := by
  simp only [shapeIds, List.map_append, List.map_singleton, eraseDups_concat, List.mem_eraseDups]

theorem nodup_shapeIds (records : List ShapeRecord) : (shapeIds records).Nodup :=
  nodup_eraseDups _

theorem mem_shapeIds {id : ShapeId} {records : List ShapeRecord} :
    id ∈ shapeIds records ↔ ∃ r ∈ records, r.id = id := by
  simp [shapeIds]

theorem recordsOf_concat (id : ShapeId) (seen : List ShapeRecord) (r : ShapeRecord) :
    recordsOf id (seen ++ [r]) =
      if r.id = id then recordsOf id seen ++ [r] else recordsOf id seen := by
  by_cases same : r.id = id <;> simp [recordsOf, same]

theorem recordsOf_eq_nil {id : ShapeId} {records : List ShapeRecord} (h : id ∉ shapeIds records) :
    recordsOf id records = [] := by
  apply List.filter_eq_nil_iff.mpr
  intro r hr same
  exact h (mem_shapeIds.mpr ⟨r, hr, of_decide_eq_true same⟩)

theorem disordersOf_concat (seen : List ShapeRecord) (r : ShapeRecord) :
    disordersOf (seen ++ [r]) = disordersOf seen ++ (disorderBehind? seen r).toList := by
  have earlier : ∀ n ∈ List.range seen.length,
      (seen ++ [r])[n]?.bind (disorderBehind? ((seen ++ [r]).take n)) =
        seen[n]?.bind (disorderBehind? (seen.take n)) := by
    intro n hn
    have within : n < seen.length := List.mem_range.mp hn
    rw [List.getElem?_append_left within, List.take_append_of_le_length (Nat.le_of_lt within)]
  unfold disordersOf
  rw [List.length_append, List.length_singleton, List.range_succ, List.filterMap_append,
    List.filterMap_congr earlier]
  have last : (seen ++ [r])[seen.length]?.bind
      (disorderBehind? ((seen ++ [r]).take seen.length)) = disorderBehind? seen r := by
    simp
  rw [List.filterMap_cons, last]
  cases disorderBehind? seen r <;> rfl

/-! ## Tracks -/

namespace Track

/-- The track of a shape that has no records yet. -/
def blank (id : ShapeId) : Track := ⟨id, #[], false⟩

/-- A track that is not marked has ascending numbers. -/
def Settled (t : Track) : Prop :=
  t.disordered = false → t.records.toList.IsChain fun a b => a.sequence < b.sequence

theorem settled_blank (id : ShapeId) : (blank id).Settled :=
  fun _ => List.isChain_nil

theorem settled_push {t : Track} (settled : t.Settled) (r : ShapeRecord) : (t.push r).Settled := by
  intro unmarked
  have parts : t.disordered = false ∧ (t.disorder? r).isSome = false := by
    simpa [push, Bool.or_eq_false_iff] using unmarked
  rcases parts with ⟨before, none⟩
  have grown : (t.push r).records.toList = t.records.toList ++ [r] := by simp [push]
  rw [grown]
  refine List.isChain_append.mpr ⟨settled before, List.isChain_singleton r, ?_⟩
  intro last hlast next hnext
  have here : next = r := by simpa using hnext.symm
  have back : t.records.back? = some last := by
    rw [← Array.getLast?_toList]
    exact hlast
  subst here
  -- without a disorder the new number exceeds the last one
  simp only [disorder?, back] at none
  by_contra le
  rw [if_pos (by omega)] at none
  cases none

/-- Push records one by one. -/
def pushAll (t : Track) (rs : List ShapeRecord) : Track := rs.foldl push t

@[simp]
theorem id_pushAll (t : Track) (rs : List ShapeRecord) : (t.pushAll rs).id = t.id := by
  induction rs generalizing t with
  | nil => rfl
  | cons r rs ih => exact ih (t.push r)

@[simp]
theorem records_pushAll (t : Track) (rs : List ShapeRecord) :
    (t.pushAll rs).records.toList = t.records.toList ++ rs := by
  induction rs generalizing t with
  | nil => simp [pushAll]
  | cons r rs ih =>
    have step := ih (t.push r)
    simpa [pushAll, push] using step

theorem settled_pushAll {t : Track} (settled : t.Settled) (rs : List ShapeRecord) :
    (t.pushAll rs).Settled := by
  induction rs generalizing t with
  | nil => exact settled
  | cons r rs ih => exact ih (settled_push settled r)

/-- The final order of a settled track, whether it is marked or not. -/
theorem stableOrder_sorted {t : Track} (settled : t.Settled) :
    StableOrder (·.sequence) t.records.toList t.sorted := by
  unfold sorted
  by_cases marked : t.disordered = true
  · rw [if_pos marked]
    exact stableOrder_stableSort (·.sequence) t.records.toList
  · rw [if_neg marked]
    have ascends := settled (Bool.eq_false_iff.mpr marked)
    refine StableOrder.refl_of_lt _ _ ?_
    have numbers := (List.isChain_map (fun r : ShapeRecord => r.sequence)).mpr ascends
    exact List.pairwise_map.mp numbers.pairwise

/-- A push changes what is asked of the next record as the stream does. -/
theorem disorder?_eq (t : Track) (seen : List ShapeRecord) (r : ShapeRecord)
    (same : t.records.toList = recordsOf r.id seen) : t.disorder? r = disorderBehind? seen r := by
  cases last : t.records.back? with
  | none => simp [disorder?, disorderBehind?, ← same, last]
  | some previous => simp [disorder?, disorderBehind?, ← same, last]

end Track

/-- The track of a shape after a stream. -/
def trackOf (records : List ShapeRecord) (id : ShapeId) : Track :=
  (Track.blank id).pushAll (recordsOf id records)

@[simp]
theorem id_trackOf (records : List ShapeRecord) (id : ShapeId) : (trackOf records id).id = id := by
  simp [trackOf, Track.blank]

@[simp]
theorem records_trackOf (records : List ShapeRecord) (id : ShapeId) :
    (trackOf records id).records.toList = recordsOf id records := by
  simp [trackOf, Track.blank]

theorem trackOf_concat (seen : List ShapeRecord) (r : ShapeRecord) (id : ShapeId) :
    trackOf (seen ++ [r]) id =
      if id = r.id then (trackOf seen id).push r else trackOf seen id := by
  rw [trackOf, recordsOf_concat]
  by_cases same : id = r.id
  · rw [if_pos same.symm, if_pos same, Track.pushAll, List.foldl_append]
    rfl
  · rw [if_neg (Ne.symm same), if_neg same]
    rfl

theorem trackOf_unseen {seen : List ShapeRecord} {id : ShapeId} (h : id ∉ shapeIds seen) :
    trackOf seen id = Track.blank id := by
  rw [trackOf, recordsOf_eq_nil h]
  rfl

/-- The records of a shape in their final order. -/
theorem stableOrder_trackOf (records : List ShapeRecord) (id : ShapeId) :
    StableOrder (·.sequence) (recordsOf id records) (trackOf records id).sorted := by
  have order := Track.stableOrder_sorted
    (Track.settled_pushAll (Track.settled_blank id) (recordsOf id records))
  rw [← records_trackOf records id]
  exact order

/-! ## The loader -/

namespace Loader

/-- With distinct identifiers the shortcut for the shape of the last record and the search through
all shapes answer the same index. -/
theorem indexOf_eq (l : Loader) (id : ShapeId) (distinct : (l.tracks.toList.map (·.id)).Nodup) :
    l.indexOf id = (l.tracks.toList.map (·.id)).idxOf id := by
  unfold indexOf
  cases shortcut : l.currentOf id with
  | some i =>
    rcases Option.filter_eq_some_iff.mp shortcut with ⟨-, here⟩
    rcases Option.any_eq_true _ _ |>.mp here with ⟨t, found, same⟩
    rw [← Array.getElem?_toList] at found
    have place : (l.tracks.toList.map (·.id))[i]? = some id := by
      rw [List.getElem?_map, found]
      exact congrArg some (of_decide_eq_true same)
    rcases List.getElem?_eq_some_iff.mp place with ⟨within, rfl⟩
    exact (distinct.idxOf_getElem i within).symm
  | none =>
    have search : (l.tracks.findIdx? (·.id = id)).getD l.tracks.size =
        l.tracks.findIdx (·.id = id) := rfl
    rw [search, List.idxOf, List.findIdx_map, ← List.findIdx_toArray, Array.toArray_toList]
    rfl

theorem indexOf_of_tracks (seen : List ShapeRecord) (l : Loader) (id : ShapeId)
    (same : l.tracks.toList = (shapeIds seen).map (trackOf seen)) :
    l.indexOf id = (shapeIds seen).idxOf id := by
  have ids : l.tracks.toList.map (·.id) = shapeIds seen := by
    rw [same, List.map_map]
    simp [Function.comp_def]
  rw [indexOf_eq l id (ids ▸ nodup_shapeIds seen), ids]

theorem ofRecords_concat (seen : List ShapeRecord) (r : ShapeRecord) :
    ofRecords (seen ++ [r]) = (ofRecords seen).accept r := by
  rw [ofRecords, List.foldl_append]
  rfl

theorem tracks_accept (l : Loader) (r : ShapeRecord) :
    (l.accept r).tracks =
      (room l.tracks (l.indexOf r.id) r.id).modify (l.indexOf r.id) (·.push r) :=
  rfl

/-- The tracks with room for a record: a new shape stands behind the others. -/
theorem room_eq (seen : List ShapeRecord) (tracks : Array Track) (r : ShapeRecord)
    (same : tracks.toList = (shapeIds seen).map (trackOf seen)) :
    (room tracks ((shapeIds seen).idxOf r.id) r.id).toList =
      (shapeIds (seen ++ [r])).map (trackOf seen) := by
  have size : tracks.size = (shapeIds seen).length := by
    rw [← Array.length_toList, same, List.length_map]
  unfold room
  rw [size, shapeIds_concat]
  by_cases known : r.id ∈ shapeIds seen
  · rw [if_pos (List.idxOf_lt_length_of_mem known), if_pos known, same]
  · rw [if_neg (fun h => known (List.idxOf_lt_length_iff.mp h)), if_neg known, Array.toList_push,
      same, List.map_append, List.map_singleton, trackOf_unseen known]
    rfl

/-- A record has its shape at the same index before and after it. -/
theorem idxOf_shapeIds_concat (seen : List ShapeRecord) (r : ShapeRecord) :
    (shapeIds (seen ++ [r])).idxOf r.id = (shapeIds seen).idxOf r.id := by
  rw [shapeIds_concat]
  by_cases known : r.id ∈ shapeIds seen
  · rw [if_pos known]
  · rw [if_neg known, List.idxOf_append_of_notMem known, List.idxOf_cons_self,
      List.idxOf_eq_length known]
    rfl

/-- The tracks of a loader after a stream. -/
theorem tracks_ofRecords (records : List ShapeRecord) :
    (ofRecords records).tracks.toList = (shapeIds records).map (trackOf records) := by
  induction records using List.reverseRecOn with
  | nil => rfl
  | append_singleton seen r ih =>
    rw [ofRecords_concat, tracks_accept, indexOf_of_tracks seen _ r.id ih, Array.toList_modify,
      room_eq seen _ r ih,
      ← idxOf_shapeIds_concat, map_modify_idxOf _ (nodup_shapeIds _)]
    apply List.map_congr_left
    intro id _
    exact (trackOf_concat seen r id).symm

/-- The track that a record is pushed to. -/
theorem room_getElem? (seen : List ShapeRecord) (tracks : Array Track) (r : ShapeRecord)
    (same : tracks.toList = (shapeIds seen).map (trackOf seen)) :
    (room tracks ((shapeIds seen).idxOf r.id) r.id)[(shapeIds seen).idxOf r.id]? =
      some (trackOf seen r.id) := by
  have known : r.id ∈ shapeIds (seen ++ [r]) := mem_shapeIds.mpr ⟨r, by simp, rfl⟩
  rw [← Array.getElem?_toList, room_eq seen tracks r same, List.getElem?_map,
    ← idxOf_shapeIds_concat, List.getElem?_idxOf known]
  rfl

theorem events_accept (l : Loader) (r : ShapeRecord) :
    (l.accept r).events =
      (match (room l.tracks (l.indexOf r.id) r.id)[l.indexOf r.id]?.bind (·.disorder? r) with
        | some d => l.events.push (.disorder d)
        | none => l.events).push (.counted (l.count + 1)) :=
  rfl

theorem disorders_accept (l : Loader) (r : ShapeRecord) :
    (l.accept r).disorders = l.disorders ++
      ((room l.tracks (l.indexOf r.id) r.id)[l.indexOf r.id]?.bind (·.disorder? r)).toList := by
  unfold disorders
  rw [events_accept]
  cases (room l.tracks (l.indexOf r.id) r.id)[l.indexOf r.id]?.bind (·.disorder? r) <;> simp

/-- The warnings of a loader after a stream. -/
theorem disorders_ofRecords (records : List ShapeRecord) :
    (ofRecords records).disorders = disordersOf records := by
  induction records using List.reverseRecOn with
  | nil => rfl
  | append_singleton seen r ih =>
    have tracks := tracks_ofRecords seen
    rw [ofRecords_concat, disorders_accept, ih, disordersOf_concat,
      indexOf_of_tracks seen _ r.id tracks, room_getElem? seen _ r tracks, Option.bind_some,
      Track.disorder?_eq _ seen r (records_trackOf seen r.id)]

theorem ids_pass (records : List ShapeRecord) (offset : Nat) :
    ((ofRecords records).pass offset).ids = shapeIds records := by
  simp [pass, tracks_ofRecords, Function.comp_def]

end Loader

/-! ## Passes -/

namespace Pass

theorem find?_getElem (p : Pass) (distinct : p.ids.Nodup) (k : Nat) (id : ShapeId)
    (h : p.ids[k]? = some id) : p.find? id = some (p.offset + k) := by
  rcases List.getElem?_eq_some_iff.mp h with ⟨within, rfl⟩
  have first : p.ids.findIdx? (· = p.ids[k]) = some k := by
    apply List.findIdx?_eq_some_iff_getElem.mpr
    refine ⟨within, decide_eq_true rfl, ?_⟩
    intro j hj same
    have equal : p.ids[j] = p.ids[k] := of_decide_eq_true same
    have index := (List.Nodup.getElem_inj_iff distinct).mp equal
    omega
  rw [find?, first]
  rfl

theorem find?_eq_none (p : Pass) (id : ShapeId) (h : id ∉ p.ids) : p.find? id = none := by
  have nowhere : p.ids.findIdx? (· = id) = none := by
    apply List.findIdx?_eq_none_iff.mpr
    intro other member
    exact decide_eq_false fun same => h (same ▸ member)
  rw [find?, nowhere]
  rfl

end Pass

/-! ## The whole stream -/

/-- The points of the shapes of a stream in the order of their indices. -/
def shapesOf (records : List ShapeRecord) : List Polyline :=
  (shapeIds records).map fun id => (trackOf records id).points

theorem Loaded.outcome_eq_ok {σ : Type} {r : Loaded σ} {pass : Pass} {store : σ} :
    r.outcome = .ok (pass, store) ↔ r.result = .ok pass ∧ r.store = store := by
  unfold outcome
  cases r.result with
  | error fault => exact iff_of_false nofun nofun
  | ok p => rw [Except.ok.injEq, Except.ok.injEq, Prod.mk.injEq]

/-- A stream without a fault is committed at its end. -/
theorem load_whole (records : List ShapeRecord) (store : ShapeStore) :
    load ⟨records, none⟩ store = ⟨Loader.ofRecords records,
      .ok ((Loader.ofRecords records).pass store.size), store.add (shapesOf records)⟩ := by
  simp [load, loadWith, shapesOf, Loader.tracks_ofRecords, Function.comp_def]

theorem load_outcome (records : List ShapeRecord) (store : ShapeStore) :
    (load ⟨records, none⟩ store).outcome =
      .ok ((Loader.ofRecords records).pass store.size, store.add (shapesOf records)) := by
  rw [load_whole]
  rfl

/-- A stream without a fault is committed as a whole. The `k`-th identifier gets the `k`-th index
behind the shapes that the store had, and under it stand the places of its records in the order of
their numbers. The warnings name each number that does not exceed the one before in its shape. -/
theorem load_commits (records : List ShapeRecord) (store : ShapeStore) :
    ∃ (pass : Pass) (grown : ShapeStore) (shapes : List Polyline),
      (load ⟨records, none⟩ store).outcome = .ok (pass, grown) ∧
      (pass.offset = store.size ∧ pass.ids = shapeIds records ∧
        pass.disorders = disordersOf records) ∧
      (grown.size = store.size + shapes.length ∧
        store.starts.toList <+: grown.starts.toList ∧
        grown.points.toList = store.points.toList ++ shapes.flatten) ∧
      shapes.length = (shapeIds records).length ∧
      (∀ k id shape, (shapeIds records)[k]? = some id → shapes[k]? = some shape →
        pass.find? id = some (store.size + k) ∧
        grown.shape (some ((store.size + k : Nat) : Int)) = .ok shape ∧
        ∃ sorted, StableOrder (·.sequence) (recordsOf id records) sorted ∧
          shape = sorted.map (·.place)) ∧
      (∀ id, (∀ r ∈ records, r.id ≠ id) → pass.find? id = none) := by
  have ids := Loader.ids_pass records store.size
  refine ⟨_, _, shapesOf records, load_outcome records store, ⟨rfl, ids, ?_⟩,
    ⟨store.size_add _, store.starts_prefix_add _, store.points_add _⟩, ?_, ?_, ?_⟩
  · exact Loader.disorders_ofRecords records
  · exact List.length_map _
  · intro k id shape hid hshape
    have points : shape = (trackOf records id).points := by
      rw [shapesOf, List.getElem?_map, hid] at hshape
      exact (Option.some.inj hshape).symm
    rcases List.getElem?_eq_some_iff.mp hshape with ⟨within, here⟩
    refine ⟨?_, ?_, ?_⟩
    · exact Pass.find?_getElem _ (ids ▸ nodup_shapeIds records) k id (ids ▸ hid)
    · rw [← here]
      exact store.shape_add (shapesOf records) k within
    · exact ⟨(trackOf records id).sorted, stableOrder_trackOf records id, points⟩
  · intro id unseen
    apply Pass.find?_eq_none
    rw [ids]
    intro seen
    rcases mem_shapeIds.mp seen with ⟨r, hr, same⟩
    exact unseen r hr same

end StopAlign
