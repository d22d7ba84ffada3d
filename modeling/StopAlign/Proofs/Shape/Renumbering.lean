import StopAlign.Export.Offsets
import StopAlign.Proofs.Shape.Filling

/-!
# Renumbering — shapes whose points come in another order

- `inOrder_perm`        : the records of a shape do not depend on the order of the stream
- `Renumbers`           : two passes with the same shapes under other indices
- `renumber`            : from the places of identifiers in a list to their places in another one
- `renumbers_load`      : streams with the same records bring the same shapes under other indices
-/

namespace StopAlign

/-- Records of one shape have different numbers. -/
def Sequenced (records : List ShapeRecord) : Prop :=
  (records.map fun r => (r.id, r.sequence)).Nodup

instance (records : List ShapeRecord) : Decidable (Sequenced records) :=
  inferInstanceAs (Decidable (List.Nodup _))

theorem inOrder_perm {records others : List ShapeRecord} (perm : others.Perm records)
    (sequenced : Sequenced records) (id : ShapeId) : inOrder id others = inOrder id records := by
  refine (stableSort_perm (·.sequence) (perm.symm.filter _) ?_).symm
  intro a ha b hb same
  rcases List.mem_filter.mp ha with ⟨among, hid⟩
  rcases List.mem_filter.mp hb with ⟨among', hid'⟩
  have ids : a.id = b.id := (of_decide_eq_true hid).trans (of_decide_eq_true hid').symm
  exact List.inj_on_of_nodup_map sequenced among among' (Prod.ext ids same)

theorem shapeIds_perm {records others : List ShapeRecord} (perm : others.Perm records) :
    (shapeIds others).Perm (shapeIds records) := by
  refine (List.perm_ext_iff_of_nodup (nodup_shapeIds others) (nodup_shapeIds records)).mpr ?_
  intro id
  simp only [mem_shapeIds, perm.mem_iff]

/-- What a pass and a store say of the shapes under the indices `σ i` another pass and store say of
those under the indices `i`. -/
structure Renumbers (σ : Int → Int) (pass other : Pass) (store grown : ShapeStore) : Prop where
  injective : Function.Injective σ
  found : ∀ id, (other.find? id).map Int.ofNat = ((pass.find? id).map Int.ofNat).map σ
  ident : ∀ i, other.id? (σ i) = pass.id? i
  gaps : ∀ i, other.gaps (σ i) = pass.gaps i
  shape : ∀ i, grown.shape (some (σ i)) = store.shape (some i)

/-- The place among `others` of the identifier that has a place among `ids`; any other number stays
what it is. -/
def renumber (ids others : List ShapeId) (i : Int) : Int :=
  if i < 0 then i else ((ids[i.toNat]?).map fun id => (others.idxOf id : Int)).getD i

section Renumber

variable {ids others : List ShapeId}

theorem renumber_outside {i : Int} (outside : i < 0 ∨ (ids.length : Int) ≤ i) :
    renumber ids others i = i := by
  unfold renumber
  by_cases negative : i < 0
  · rw [if_pos negative]
  · rw [if_neg negative, List.getElem?_eq_none (by omega)]
    rfl

theorem renumber_inside {k : Nat} {id : ShapeId} (here : ids[k]? = some id) :
    renumber ids others k = others.idxOf id := by
  rw [renumber, if_neg (by omega), Int.toNat_natCast, here]
  rfl

/-- An index is that of an identifier or of none. -/
theorem inside_or_outside (ids : List ShapeId) (i : Int) :
    (∃ (k : Nat) (id : ShapeId), i = k ∧ ids[k]? = some id) ∨ i < 0 ∨ (ids.length : Int) ≤ i := by
  by_cases outside : i < 0 ∨ (ids.length : Int) ≤ i
  · exact .inr outside
  · have within : i.toNat < ids.length := by omega
    exact .inl ⟨i.toNat, ids[i.toNat], by omega, List.getElem?_eq_getElem within⟩

theorem getElem?_idxOf_perm (perm : others.Perm ids) {k : Nat} {id : ShapeId}
    (here : ids[k]? = some id) : others[others.idxOf id]? = some id :=
  List.getElem?_idxOf (perm.mem_iff.mpr (List.mem_of_getElem? here))

theorem renumber_injective (perm : others.Perm ids) (distinct : ids.Nodup) :
    Function.Injective (renumber ids others) := by
  -- indices of identifiers stay among themselves, and all others stay where they are
  have inside : ∀ {k : Nat} {id : ShapeId}, ids[k]? = some id →
      0 ≤ renumber ids others k ∧ renumber ids others k < ids.length := by
    intro k id here
    rw [renumber_inside here, ← perm.length_eq]
    have bound := (List.getElem?_eq_some_iff.mp (getElem?_idxOf_perm perm here)).1
    omega
  intro i j same
  rcases inside_or_outside ids i with ⟨k, id, rfl, hid⟩ | outi
  · rcases inside_or_outside ids j with ⟨l, jd, rfl, hjd⟩ | outj
    · rw [renumber_inside hid, renumber_inside hjd] at same
      have twice := getElem?_idxOf_perm perm hid
      rw [Int.ofNat_inj.mp same, getElem?_idxOf_perm perm hjd] at twice
      have equal : ids[k]? = ids[l]? := by rw [hid, hjd, twice]
      rw [(List.getElem?_inj (List.getElem?_eq_some_iff.mp hid).1 distinct).mp equal]
    · have bounds := inside hid
      rw [same, renumber_outside outj] at bounds
      omega
  · rcases inside_or_outside ids j with ⟨l, jd, rfl, hjd⟩ | outj
    · have bounds := inside hjd
      rw [← same, renumber_outside outi] at bounds
      omega
    · rwa [renumber_outside outi, renumber_outside outj] at same

end Renumber

/-! ## Loads into the empty store -/

section Load

variable (records : List ShapeRecord)

/-- The pass of a stream. -/
def passOf : Pass := (Loader.ofRecords records).pass 0

/-- The store of a stream. -/
def storeOf : ShapeStore := .add .empty (shapesOf records)

theorem load_empty :
    (load ⟨records, none⟩ .empty).outcome = .ok (passOf records, storeOf records) :=
  load_outcome records .empty

/-- A load that returns has read a stream without a fault. -/
theorem load_empty_eq_ok {source : Source ShapeRecord} {pass : Pass} {store : ShapeStore}
    (h : (load source .empty).outcome = .ok (pass, store)) :
    ∃ records, source = ⟨records, none⟩ ∧ pass = passOf records ∧ store = storeOf records := by
  rcases source with ⟨records, _ | fault⟩
  · rw [load_empty] at h
    cases h
    exact ⟨records, rfl, rfl, rfl⟩
  · cases h

@[simp]
theorem offset_passOf : (passOf records).offset = 0 := rfl

theorem ids_passOf : (passOf records).ids = shapeIds records :=
  Loader.ids_pass records 0

theorem tabled_passOf : Tabled (shapesOf records) records (passOf records) :=
  tabled_load [] records

/-- What is said of a shape. -/
theorem load_inside {k : Nat} {id : ShapeId} (here : (shapeIds records)[k]? = some id) :
    (passOf records).find? id = some k ∧ (passOf records).id? k = some id ∧
      (passOf records).gaps k = gapTable ((inOrder id records).map (·.travelled)) ∧
      (storeOf records).shape (some (k : Int)) = .ok ((inOrder id records).map (·.place)) := by
  rcases (tabled_passOf records).own k id here with ⟨found, points, gaps⟩
  rw [offset_passOf, Nat.zero_add] at found points gaps
  refine ⟨found, ?_, gaps, ((refines_empty_add (shapesOf records)).shape_eq k _ points).1⟩
  rw [Pass.id?, offset_passOf, if_neg (by omega), ids_passOf, ← here]
  exact congrArg ((shapeIds records)[·]?) (by omega)

/-- What is said where no shape is. -/
theorem load_outside {i : Int} (outside : i < 0 ∨ ((shapeIds records).length : Int) ≤ i) :
    (passOf records).id? i = none ∧ (passOf records).gaps i = [] ∧
      (storeOf records).shape (some i) = .error (.shapeIndex i (shapeIds records).length) := by
  have size : (storeOf records).size = (shapeIds records).length := by
    rw [storeOf, ShapeStore.size_empty_add, shapesOf, List.length_map]
  refine ⟨?_, (tabled_passOf records).others i (by simpa using outside), ?_⟩
  · unfold Pass.id?
    rw [offset_passOf]
    by_cases negative : i < ((0 : Nat) : Int)
    · rw [if_pos negative]
    · rw [if_neg negative, ids_passOf, List.getElem?_eq_none (by omega)]
  · rw [← size]
    exact ShapeStore.shape_outside _ i (size ▸ outside)

end Load

section Reordered

variable {records others : List ShapeRecord} (perm : others.Perm records)

include perm

/-- An identifier is found under the new index in place of the old one. -/
theorem find?_renumber (id : ShapeId) :
    ((passOf others).find? id).map Int.ofNat =
      (((passOf records).find? id).map Int.ofNat).map
        (renumber (shapeIds records) (shapeIds others)) := by
  have ids := shapeIds_perm perm
  by_cases known : id ∈ shapeIds records
  · have here := List.getElem?_idxOf known
    have there := List.getElem?_idxOf (ids.mem_iff.mpr known)
    rw [(load_inside records here).1, (load_inside others there).1]
    exact congrArg some (renumber_inside here).symm
  · have unseen : ∀ {rs : List ShapeRecord}, id ∉ shapeIds rs → (passOf rs).find? id = none := by
      intro rs unknown
      apply Pass.find?_eq_none
      rw [ids_passOf]
      exact unknown
    rw [unseen known, unseen fun member => known (ids.mem_iff.mp member)]
    rfl

/-- What is said under an index, of a shape or of none, is said under the new one, too. -/
theorem shape_renumber (sequenced : Sequenced records) (i : Int) :
    let j := renumber (shapeIds records) (shapeIds others) i
    (passOf others).id? j = (passOf records).id? i ∧
      (passOf others).gaps j = (passOf records).gaps i ∧
      (storeOf others).shape (some j) = (storeOf records).shape (some i) := by
  have ids := shapeIds_perm perm
  have order := inOrder_perm perm sequenced
  intro j
  rcases inside_or_outside (shapeIds records) i with ⟨k, id, rfl, here⟩ | outside
  · rcases load_inside records here with ⟨-, ident, gaps, shape⟩
    rcases load_inside others (getElem?_idxOf_perm ids here) with ⟨-, ident', gaps', shape'⟩
    have moved : j = (shapeIds others).idxOf id := renumber_inside here
    rw [moved]
    refine ⟨ident'.trans ident.symm, ?_, ?_⟩
    · rw [gaps', gaps, order id]
    · rw [shape', shape, order id]
  · have size : (shapeIds others).length = (shapeIds records).length := ids.length_eq
    rcases load_outside records outside with ⟨ident, gaps, shape⟩
    rcases load_outside others (size ▸ outside) with ⟨ident', gaps', shape'⟩
    have still : j = i := renumber_outside outside
    rw [still]
    refine ⟨ident'.trans ident.symm, gaps'.trans gaps.symm, ?_⟩
    rw [shape', shape, size]

/-- Streams with the same records, whose shapes have different numbers each, bring the same shapes
under other indices. -/
theorem renumbers_load (sequenced : Sequenced records) :
    Renumbers (renumber (shapeIds records) (shapeIds others)) (passOf records) (passOf others)
      (storeOf records) (storeOf others) where
  injective := renumber_injective (shapeIds_perm perm) (nodup_shapeIds records)
  found := find?_renumber perm
  ident := fun i => (shape_renumber perm sequenced i).1
  gaps := fun i => (shape_renumber perm sequenced i).2.1
  shape := fun i => (shape_renumber perm sequenced i).2.2

end Reordered

end StopAlign
