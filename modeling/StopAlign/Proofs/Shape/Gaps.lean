import StopAlign.Proofs.Number.Arithmetic
import StopAlign.Proofs.Shape.Filling

/-!
# Gaps — in which order a loaded gap table is

- `Steady`           : finite distances of which every second one is no lower
- `Steady.midpoints` : the gaps of steady distances ascend, rounded as they are
- `gaps_load`        : what the gap tables of a loaded pass are
- `descending_load`  : a stream that is loaded into a table that descends

The loader sorts the points of a shape and takes their distances as they come. The search for a
stop needs ascending gaps, and the table has them where the distances allow it.
-/

namespace StopAlign

open Number

/-- Finite distances of which every second one is no lower, so that the sums of neighbours
ascend. -/
structure Steady (ds : List Float) : Prop where
  finite : ∀ d ∈ ds, d.isFinite = true
  onward : ∀ k a c, ds[k]? = some a → ds[k + 2]? = some c → a ≤ c

theorem steady_of_ascending {ds : List Float} (finite : ∀ d ∈ ds, d.isFinite = true)
    (ascending : ds.Pairwise (· ≤ ·)) : Steady ds where
  finite := finite
  onward := by
    intro k a c first second
    rcases List.getElem?_eq_some_iff.mp first with ⟨_, rfl⟩
    rcases List.getElem?_eq_some_iff.mp second with ⟨within, rfl⟩
    exact List.pairwise_iff_getElem.mp ascending k (k + 2) _ within (by omega)

theorem Steady.midpoints {ds : List Float} (steady : Steady ds) :
    (midpoints ds).Pairwise (· ≤ ·) := by
  have : Trans (fun x y : Float => x ≤ y) (· ≤ ·) (· ≤ ·) := ⟨le_trans_of_le⟩
  refine List.IsChain.pairwise (List.isChain_iff_getElem.mpr fun k within => ?_)
  rw [length_midpoints] at within
  have member : ∀ i, (h : i < ds.length) → ds[i].isFinite = true :=
    fun i h => steady.finite _ (List.getElem_mem h)
  have order := steady.onward k ds[k] ds[k + 2] (List.getElem?_eq_getElem (by omega))
    (List.getElem?_eq_getElem (by omega))
  simp only [StopAlign.midpoints, List.getElem_zipWith, List.getElem_tail]
  exact half_le_half (add_le_add_next (member k _) (member (k + 1) _) (member (k + 2) _) order)

theorem gapTable_eq (ds : List Float) :
    gapTable ds = [] ∨ gapTable ds = midpoints ds ∧ ∃ gap ∈ gapTable ds, 0 < gap := by
  unfold gapTable
  by_cases positive : ((midpoints ds).any fun gap => decide (0 < gap)) = true
  · rw [if_pos positive]
    rcases List.any_eq_true.mp positive with ⟨gap, member, above⟩
    exact .inr ⟨rfl, gap, member, of_decide_eq_true above⟩
  · exact .inl (if_neg positive)

/-- A gap table that is not empty belongs to a shape of its pass. It holds the middles of the
shape's distances in the order of its points, one of them positive, and ascends if these distances
are steady. -/
theorem gaps_load (records : List ShapeRecord) (store : ShapeStore) :
    ∃ pass grown, (load ⟨records, none⟩ store).outcome = .ok (pass, grown) ∧
      ∀ index : Int, pass.gaps index = [] ∨
        ∃ id ∈ shapeIds records, (∃ i : Nat, pass.find? id = some i ∧ i = index) ∧
          pass.gaps index = midpoints ((inOrder id records).map (·.travelled)) ∧
          (∃ gap ∈ pass.gaps index, 0 < gap) ∧
          (Steady ((inOrder id records).map (·.travelled)) →
            (pass.gaps index).Pairwise (· ≤ ·)) := by
  refine ⟨_, _, load_outcome records store, fun index => ?_⟩
  have tabled := tabled_load (List.replicate store.size []) records
  rw [List.length_replicate] at tabled
  generalize (Loader.ofRecords records).pass store.size = pass at tabled
  by_cases outside : index < pass.offset ∨
      ((pass.offset + (shapeIds records).length : Nat) : Int) ≤ index
  · exact .inl (tabled.others index outside)
  · obtain ⟨k, rfl⟩ : ∃ k : Nat, index = ((pass.offset + k : Nat) : Int) :=
      ⟨(index - pass.offset).toNat, by omega⟩
    have within : k < (shapeIds records).length := by omega
    rcases tabled.own k _ (List.getElem?_eq_getElem within) with ⟨found, -, gaps⟩
    rw [gaps]
    refine (gapTable_eq _).imp_right fun ⟨table, positive⟩ => ?_
    refine ⟨_, List.getElem_mem within, ⟨_, found, rfl⟩, table, positive, fun steady => ?_⟩
    exact table ▸ steady.midpoints

/-- One shape of three points with the given distances. -/
def threePoints (a b c : Float) : List ShapeRecord :=
  [⟨.text "A", ⟨0, 0⟩, 0, a⟩, ⟨.text "A", ⟨0, 1⟩, 1, b⟩, ⟨.text "A", ⟨0, 2⟩, 2, c⟩]

/-- Distances that ascend give a table that does. -/
theorem gaps_load_ascending :
    ∃ pass grown, (load ⟨threePoints 0 1 3, none⟩ .empty).outcome = .ok (pass, grown) ∧
      pass.gaps 0 = [0.5, 2] ∧ (pass.gaps 0).Pairwise (· ≤ ·) := by
  rcases gaps_load (threePoints 0 1 3) .empty with ⟨pass, grown, loaded, tables⟩
  refine ⟨pass, grown, loaded, ?_⟩
  obtain ⟨rfl, rfl⟩ : pass = (Loader.ofRecords (threePoints 0 1 3)).pass 0 ∧ grown = _ := by
    have same := loaded.symm.trans (load_outcome (threePoints 0 1 3) .empty)
    exact Prod.mk.inj (Except.ok.inj same)
  have table : ((Loader.ofRecords (threePoints 0 1 3)).pass 0).gaps 0 = [0.5, 2] := by
    decide +kernel
  rcases tables 0 with none | ⟨id, member, -, -, -, steady⟩
  · rw [table] at none
    cases none
  · have ids : shapeIds (threePoints 0 1 3) = [.text "A"] := by decide +kernel
    rw [ids, List.mem_singleton] at member
    subst member
    have distances : (inOrder (.text "A") (threePoints 0 1 3)).map (·.travelled) = [0, 1, 3] := by
      decide +kernel
    refine ⟨table, steady ?_⟩
    rw [distances]
    exact steady_of_ascending (by decide +kernel) (by decide +kernel)

/-- Finite distances that descend are loaded into a table that descends, and the search for a stop
at the first gap passes it by. -/
theorem descending_load :
    (∀ r ∈ threePoints 10 0 0, r.travelled.isFinite = true) ∧
      ∃ pass grown, (load ⟨threePoints 10 0 0, none⟩ .empty).outcome = .ok (pass, grown) ∧
        pass.gaps 0 = [5, 0] ∧ ¬ (pass.gaps 0).Pairwise (· ≤ ·) ∧
        travelledOffsets [5] (pass.gaps 0) = [2] := by
  have table : ((Loader.ofRecords (threePoints 10 0 0)).pass 0).gaps 0 = [5, 0] := by
    decide +kernel
  refine ⟨by decide +kernel, _, _, load_outcome _ _, table, ?_, ?_⟩
  · exact fun ascending => absurd (table ▸ ascending) (by decide +kernel)
  · exact (congrArg (travelledOffsets [5]) table).trans (by decide +kernel)

end StopAlign
