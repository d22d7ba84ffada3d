import StopAlign.Proofs.Outcome
import StopAlign.Proofs.Shape.Loading

/-!
# Filling — what a store holds after appends and loads

- `inOrder`, `sorted_trackOf` : the records of a shape by their numbers, marked or not
- `Deed`, `Filling`, `Filling.after` : an append or a load; the store and the passes after deeds
- `Deed.shapes`, `added`      : the shapes that deeds add, as a plain list
- `Tabled`                    : shapes and gap tables of a pass
- `Refines`, `refines_after`  : the store says what the list says

Deeds only append, so the store is the empty one with all shapes added, and what a pass says of the
store stays true while it grows.
-/

namespace StopAlign

open Outcome

/-! ## Records in order -/

/-- The records of a shape by their numbers, equal numbers in input order. -/
def inOrder (id : ShapeId) (records : List ShapeRecord) : List ShapeRecord :=
  stableSort (fun a b => a.sequence ≤ b.sequence) (recordsOf id records)

theorem length_inOrder (id : ShapeId) (records : List ShapeRecord) :
    (inOrder id records).length = (recordsOf id records).length :=
  (stableOrder_stableSort (fun r : ShapeRecord => r.sequence) (recordsOf id records)).perm.length_eq

/-- A sort that is left out would have changed nothing. -/
theorem Track.sorted_eq {t : Track} (settled : t.Settled) :
    t.sorted = stableSort (fun a b => a.sequence ≤ b.sequence) t.records.toList := by
  unfold sorted
  by_cases marked : t.disordered = true
  · rw [if_pos marked]
  · rw [if_neg marked, stableSort_eq, List.mergeSort_of_pairwise]
    have numbers := (List.isChain_map (fun r : ShapeRecord => r.sequence)).mpr
      (settled (Bool.eq_false_iff.mpr marked))
    have ascends := List.pairwise_map.mp numbers.pairwise
    exact ascends.imp fun h => decide_eq_true (Int.le_of_lt h)

theorem sorted_trackOf (records : List ShapeRecord) (id : ShapeId) :
    (trackOf records id).sorted = inOrder id records := by
  have settled : (trackOf records id).Settled :=
    Track.settled_pushAll (Track.settled_blank id) (recordsOf id records)
  rw [Track.sorted_eq settled, records_trackOf]
  rfl

theorem shapesOf_eq (records : List ShapeRecord) :
    shapesOf records = (shapeIds records).map fun id => (inOrder id records).map (·.place) := by
  simp only [shapesOf, Track.points, sorted_trackOf]

/-! ## Deeds -/

/-- Append shapes, or load a stream. -/
inductive Deed
  | append (shapes : List Polyline)
  | load (source : Source ShapeRecord)

/-- The shapes that a deed adds. A stream with a fault adds none. -/
def Deed.shapes : Deed → List Polyline
  | .append shapes => shapes
  | .load ⟨records, none⟩ =>
    (shapeIds records).map fun id => (inOrder id records).map (·.place)
  | .load ⟨_, some _⟩ => []

/-- The shapes that deeds add, in the order of their indices. -/
def added (ds : List Deed) : List Polyline := ds.flatMap Deed.shapes

theorem added_concat (ds : List Deed) (d : Deed) : added (ds ++ [d]) = added ds ++ d.shapes := by
  simp [added]

/-- A store, and the passes that were loaded into it with their records. -/
structure Filling where
  store : ShapeStore
  passes : List (List ShapeRecord × Pass)

namespace Filling

def start : Filling := ⟨.empty, []⟩

def step (f : Filling) : Deed → Filling
  | .append shapes => { f with store := f.store.add shapes }
  | .load source =>
    let loaded := load source f.store
    match loaded.result with
    | .ok pass => ⟨loaded.store, f.passes ++ [(source.items, pass)]⟩
    | .error _ => ⟨loaded.store, f.passes⟩

/-- The store and the passes after deeds, from the empty store on. -/
def after (ds : List Deed) : Filling := ds.foldl step start

theorem after_concat (ds : List Deed) (d : Deed) : after (ds ++ [d]) = (after ds).step d := by
  simp [after, List.foldl_append]

theorem step_loaded (f : Filling) (records : List ShapeRecord) :
    f.step (.load ⟨records, none⟩) =
      ⟨f.store.add (shapesOf records),
        f.passes ++ [(records, (Loader.ofRecords records).pass f.store.size)]⟩ := by
  simp only [step, load_whole]

/-- A load that fails returns the store that it was given. -/
theorem step_failed (f : Filling) (records : List ShapeRecord) (fault : Fault) :
    f.step (.load ⟨records, some fault⟩) = f := rfl

/-- A load that returns is a deed of the store. -/
theorem after_loaded {before : List Deed} {source : Source ShapeRecord} {pass : Pass}
    {store : ShapeStore}
    (loaded : (load source (after before).store).outcome = .ok (pass, store)) :
    after (before ++ [.load source]) =
      ⟨store, (after before).passes ++ [(source.items, pass)]⟩ := by
  rcases Loaded.outcome_eq_ok.mp loaded with ⟨result, rfl⟩
  rw [after_concat]
  simp only [step, result]

theorem store_step (f : Filling) (d : Deed) : (f.step d).store = f.store.add d.shapes := by
  cases d with
  | append shapes => rfl
  | load source =>
    rcases source with ⟨records, _ | fault⟩
    · rw [step_loaded, shapesOf_eq]
      rfl
    · rw [step_failed]
      rfl

/-- The store is the empty one with all shapes added. -/
theorem store_after (ds : List Deed) : (after ds).store = ShapeStore.empty.add (added ds) := by
  induction ds using List.reverseRecOn with
  | nil => rfl
  | append_singleton ds d ih =>
    rw [after_concat, store_step, ih, added_concat, ShapeStore.add_append]

end Filling

/-! ## Passes -/

/-- The shapes of a pass stand among all shapes from its offset on, each with its own gap table, and
there are no gaps for any other index. -/
structure Tabled (shapes : List Polyline) (records : List ShapeRecord) (pass : Pass) : Prop where
  inside : pass.offset + (shapeIds records).length ≤ shapes.length
  own : ∀ k id, (shapeIds records)[k]? = some id →
    pass.find? id = some (pass.offset + k) ∧
      shapes[pass.offset + k]? = some ((inOrder id records).map (·.place)) ∧
      pass.gaps ((pass.offset + k : Nat) : Int) = gapTable ((inOrder id records).map (·.travelled))
  others : ∀ i : Int,
    i < pass.offset ∨ ((pass.offset + (shapeIds records).length : Nat) : Int) ≤ i →
      pass.gaps i = []

theorem Loader.tables_pass (records : List ShapeRecord) (offset : Nat) :
    ((ofRecords records).pass offset).tables =
      (shapeIds records).map fun id => gapTable ((inOrder id records).map (·.travelled)) := by
  simp [pass, tracks_ofRecords, Track.table, sorted_trackOf, Function.comp_def]

theorem tabled_load (shapes : List Polyline) (records : List ShapeRecord) :
    Tabled (shapes ++ shapesOf records) records
      ((Loader.ofRecords records).pass shapes.length) := by
  have ids := Loader.ids_pass records shapes.length
  have tables := Loader.tables_pass records shapes.length
  have offset : ((Loader.ofRecords records).pass shapes.length).offset = shapes.length := rfl
  generalize (Loader.ofRecords records).pass shapes.length = p at ids tables offset
  refine ⟨?_, ?_, ?_⟩
  · rw [offset, List.length_append, shapesOf, List.length_map]
  · intro k id here
    refine ⟨?_, ?_, ?_⟩
    · exact Pass.find?_getElem p (ids ▸ nodup_shapeIds records) k id (ids ▸ here)
    · rw [offset, List.getElem?_append_right (Nat.le_add_right _ _), Nat.add_sub_cancel_left,
        shapesOf_eq, List.getElem?_map, here]
      rfl
    · have index : (((p.offset + k : Nat) : Int) - p.offset).toNat = k := by omega
      rw [Pass.gaps, if_neg (by omega), index, tables, List.getElem?_map, here]
      rfl
  · intro i outside
    unfold Pass.gaps
    by_cases low : i < p.offset
    · rw [if_pos low]
    · have beyond : p.tables.length ≤ (i - p.offset).toNat := by
        rw [tables, List.length_map]
        omega
      rw [if_neg low, List.getElem?_eq_none beyond]
      rfl

theorem Tabled.append {shapes : List Polyline} {records : List ShapeRecord} {pass : Pass}
    (tabled : Tabled shapes records pass) (more : List Polyline) :
    Tabled (shapes ++ more) records pass where
  inside := by
    rw [List.length_append]
    exact Nat.le_add_right_of_le tabled.inside
  own := by
    intro k id here
    rcases tabled.own k id here with ⟨found, points, gaps⟩
    have within := (List.getElem?_eq_some_iff.mp points).1
    exact ⟨found, (List.getElem?_append_left within).trans points, gaps⟩
  others := tabled.others

theorem tabled_after (ds : List Deed) :
    ∀ p ∈ (Filling.after ds).passes, Tabled (added ds) p.1 p.2 := by
  induction ds using List.reverseRecOn with
  | nil =>
    intro p member
    cases member
  | append_singleton ds d ih =>
    have old : ∀ p ∈ (Filling.after ds).passes, Tabled (added (ds ++ [d])) p.1 p.2 := by
      intro p member
      rw [added_concat]
      exact (ih p member).append d.shapes
    intro p member
    rw [Filling.after_concat] at member
    cases d with
    | append shapes => exact old p member
    | load source =>
      rcases source with ⟨records, _ | fault⟩
      · rw [Filling.step_loaded] at member
        rcases List.mem_append.mp member with before | last
        · exact old p before
        · rw [List.mem_singleton.mp last, added_concat, Filling.store_after,
            ShapeStore.size_empty_add, Deed.shapes, ← shapesOf_eq]
          exact tabled_load (added ds) records
      · exact old p member

/-! ## The store as a list -/

/-- A store says what a list of shapes says: boundaries, shapes, sizes and points. -/
structure Refines (store : ShapeStore) (shapes : List Polyline) : Prop where
  head?_starts : store.starts.toList.head? = some 0
  ascending : store.starts.toList.Pairwise (· ≤ ·)
  getLast?_starts : store.starts.toList.getLast? = some (store.points.size : Int)
  size_eq : store.size = shapes.length
  shape_eq : ∀ (i : Nat) (shape : Polyline), shapes[i]? = some shape →
    store.shape (some (i : Int)) = .ok shape ∧ store.shapeSize i = .ok (shape.length : Int)
  all : (List.range store.size).mapM (fun i : Nat => store.shape (some (i : Int))) = .ok shapes
  points_eq : store.points.toList = shapes.flatten
  outside : ∀ i : Int, i < 0 ∨ (store.size : Int) ≤ i →
    store.shape (some i) = .error (.shapeIndex i store.size)

theorem refines_empty_add (shapes : List Polyline) : Refines (.add .empty shapes) shapes where
  head?_starts := by
    rw [ShapeStore.starts_empty_add, List.range_succ_eq_map]
    rfl
  ascending := ShapeStore.pairwise_starts_empty_add shapes
  getLast?_starts := by
    rw [Array.getLast?_toList]
    exact ShapeStore.back_starts _
  size_eq := ShapeStore.size_empty_add shapes
  shape_eq := by
    intro i shape here
    rcases List.getElem?_eq_some_iff.mp here with ⟨within, rfl⟩
    exact ⟨ShapeStore.shape_empty_add shapes i within,
      ShapeStore.shapeSize_empty_add shapes i within⟩
  all := by
    rw [ShapeStore.size_empty_add]
    apply mapM_of_forall₂
    refine List.forall₂_iff_get.mpr ⟨List.length_range, ?_⟩
    intro i _ within
    simpa using ShapeStore.shape_empty_add shapes i within
  points_eq := ShapeStore.points_add .empty shapes
  outside := ShapeStore.shape_outside _

theorem added_prefix {before ds : List Deed} (h : before <+: ds) : added before <+: added ds := by
  rcases h with ⟨more, rfl⟩
  rw [added, added, List.flatMap_append]
  exact List.prefix_append _ _

theorem passes_prefix {before ds : List Deed} (h : before <+: ds) :
    (Filling.after before).passes <+: (Filling.after ds).passes := by
  rcases h with ⟨more, rfl⟩
  induction more using List.reverseRecOn with
  | nil => simp
  | append_singleton more d ih =>
    rw [← List.append_assoc, Filling.after_concat]
    refine ih.trans ?_
    cases d with
    | append shapes => exact List.prefix_rfl
    | load source =>
      rcases source with ⟨records, _ | fault⟩
      · rw [Filling.step_loaded]
        exact List.prefix_append _ _
      · exact List.prefix_rfl

/-- Appends and loads leave a store that says what the list of all added shapes says, and passes
that know the gap tables of their own shapes. Later deeds change no answer of an earlier index. -/
theorem refines_after (ds : List Deed) :
    Refines (Filling.after ds).store (added ds) ∧
      (∀ p ∈ (Filling.after ds).passes, Tabled (added ds) p.1 p.2) ∧
      ∀ before, before <+: ds →
        (∀ i : Nat, i < (Filling.after before).store.size →
          (Filling.after ds).store.shape (some i) = (Filling.after before).store.shape (some i) ∧
          (Filling.after ds).store.shapeSize i = (Filling.after before).store.shapeSize i) ∧
        (Filling.after before).passes <+: (Filling.after ds).passes := by
  have refines : ∀ ds, Refines (Filling.after ds).store (added ds) := by
    intro ds
    rw [Filling.store_after]
    exact refines_empty_add (added ds)
  refine ⟨refines ds, tabled_after ds, ?_⟩
  intro before part
  refine ⟨?_, passes_prefix part⟩
  intro i within
  rw [(refines before).size_eq] at within
  rcases added_prefix part with ⟨later, grown⟩
  have early := List.getElem?_eq_getElem within
  have late : (added ds)[i]? = some (added before)[i] := by
    rw [← grown, List.getElem?_append_left within, early]
  rcases (refines before).shape_eq i _ early with ⟨shape, size⟩
  rcases (refines ds).shape_eq i _ late with ⟨shape', size'⟩
  exact ⟨shape'.trans shape.symm, size'.trans size.symm⟩

end StopAlign
