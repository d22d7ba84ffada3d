import Mathlib.Algebra.BigOperators.Group.List.Lemmas
import Mathlib.Algebra.Ring.Nat
import StopAlign.Shape.Store

/-!
# Store — what a store holds after shapes were appended

- `points_add`, `starts_prefix_add` : appending keeps what is there
- `start_add`                       : the boundary in front of an appended shape
- `shape_add`                       : an appended shape reads back as it was given

Nothing is asked of the boundaries that the store had before: an appended shape lies between two
boundaries that were appended with it.
-/

namespace StopAlign
namespace ShapeStore

variable {α : Type}

/-! ## Growth -/

@[simp]
theorem add_nil (s : ShapeStore α) : s.add [] = s := rfl

@[simp]
theorem add_cons (s : ShapeStore α) (shape : List α) (shapes : List (List α)) :
    s.add (shape :: shapes) = (s.push shape).add shapes := rfl

theorem add_append (s : ShapeStore α) (shapes more : List (List α)) :
    s.add (shapes ++ more) = (s.add shapes).add more :=
  List.foldl_append

theorem starts_size_pos (s : ShapeStore α) : 0 < s.starts.size := by
  rcases Nat.eq_zero_or_pos s.starts.size with none | some
  · have last := s.back_starts
    rw [Array.eq_empty_of_size_eq_zero none] at last
    cases last
  · exact some

theorem size_push (s : ShapeStore α) (shape : List α) : (s.push shape).size = s.size + 1 := by
  have one := s.starts_size_pos
  simp only [Arrays.size, push, Arrays.push, Array.size_push]
  omega

theorem size_points_push (s : ShapeStore α) (shape : List α) :
    (s.push shape).points.size = s.points.size + shape.length := by
  simp [push, Arrays.push]

theorem size_add (s : ShapeStore α) (shapes : List (List α)) :
    (s.add shapes).size = s.size + shapes.length := by
  induction shapes generalizing s with
  | nil => rfl
  | cons shape shapes ih =>
    rw [add_cons, ih, size_push, List.length_cons]
    omega

/-- The new points stand behind the old ones, shape by shape. -/
theorem points_add (s : ShapeStore α) (shapes : List (List α)) :
    (s.add shapes).points.toList = s.points.toList ++ shapes.flatten := by
  induction shapes generalizing s with
  | nil => simp
  | cons shape shapes ih =>
    rw [add_cons, ih, points_push, List.flatten_cons, List.append_assoc]

theorem starts_prefix_add (s : ShapeStore α) (shapes : List (List α)) :
    s.starts.toList <+: (s.add shapes).starts.toList := by
  induction shapes generalizing s with
  | nil => exact List.prefix_refl _
  | cons shape shapes ih =>
    have one : s.starts.toList <+: (s.push shape).starts.toList := by
      rw [starts_push]
      exact List.prefix_append _ _
    exact one.trans (ih (s.push shape))

/-! ## Boundaries of appended shapes -/

/-- The last boundary of a store. -/
theorem start_size (s : ShapeStore α) : s.starts[s.size]? = some (s.points.size : Int) := by
  rw [← s.back_starts, Array.back?_eq_getElem?]
  rfl

theorem start_add_zero (s : ShapeStore α) (shapes : List (List α)) :
    (s.add shapes).starts[s.size]? = some (s.points.size : Int) := by
  rcases s.starts_prefix_add shapes with ⟨later, grown⟩
  have inside : s.size < s.starts.toList.length := by
    have one := s.starts_size_pos
    simp only [Arrays.size, Array.length_toList]
    omega
  have old := s.start_size
  rw [← Array.getElem?_toList] at old ⊢
  rw [← grown, List.getElem?_append_left inside]
  exact old

/-- In front of an appended shape are the old points and those of the appended shapes before it. -/
theorem start_add (s : ShapeStore α) (shapes : List (List α)) (k : Nat) (h : k ≤ shapes.length) :
    (s.add shapes).starts[s.size + k]? =
      some ((s.points.size + ((shapes.map List.length).take k).sum : Nat) : Int) := by
  induction k generalizing s shapes with
  | zero => simpa using s.start_add_zero shapes
  | succ k ih =>
    match shapes, h with
    | shape :: shapes, h =>
      have later := ih (s.push shape) shapes (Nat.le_of_succ_le_succ h)
      have index : s.size + (k + 1) = (s.push shape).size + k := by
        rw [size_push]
        omega
      rw [add_cons, index, later, size_points_push, List.map_cons, List.take_succ_cons,
        List.sum_cons, Nat.add_assoc]

/-! ## Reading -/

/-- Between two boundaries within the points lie just the points between them. -/
theorem shape_of_starts (s : ShapeStore α) (i low high : Nat)
    (start : s.starts[i]? = some (low : Int)) (finish : s.starts[i + 1]? = some (high : Int))
    (inside : low ≤ high) (h : high ≤ s.points.size) :
    s.shape (some (i : Int)) = .ok ((s.points.toList.take high).drop low) := by
  have low_eq : Span.bound s.points.size (low : Int) = low := by
    rw [Span.bound_natCast]
    omega
  have high_eq : Span.bound s.points.size (high : Int) = high := by
    rw [Span.bound_natCast]
    omega
  unfold Arrays.shape
  simp only [Int.toNat_natCast, start, finish]
  rw [if_neg (by omega), low_eq, high_eq, Array.toList_extract, List.extract_eq_take_drop,
    List.drop_take]
  rfl

/-- The appended shapes read back as they were given. -/
theorem shape_add (s : ShapeStore α) (shapes : List (List α)) (k : Nat) (h : k < shapes.length) :
    (s.add shapes).shape (some ((s.size + k : Nat) : Int)) = .ok shapes[k] := by
  have before := s.start_add shapes k (by omega)
  have behind := s.start_add shapes (k + 1) h
  have ascends : ((shapes.map List.length).take k).sum ≤
      ((shapes.map List.length).take (k + 1)).sum := by
    rw [List.take_succ_eq_append_getElem (by simpa using h), List.sum_append]
    exact Nat.le_add_right _ _
  have within : ((shapes.map List.length).take (k + 1)).sum ≤ shapes.flatten.length := by
    rw [List.length_flatten, ← List.sum_take_add_sum_drop (shapes.map List.length) (k + 1)]
    exact Nat.le_add_right _ _
  have all := s.points_add shapes
  have room : (s.add shapes).points.size = s.points.size + shapes.flatten.length := by
    rw [← Array.length_toList, all, List.length_append, Array.length_toList]
  rw [shape_of_starts (s.add shapes) (s.size + k) _ _ before behind (by omega) (by omega), all,
    ← Array.length_toList, List.take_length_add_append, List.drop_length_add_append,
    List.drop_take_succ_flatten_eq_getElem]

/-- No index but those of the shapes has points. -/
theorem shape_outside (s : ShapeStore α) (i : Int) (h : i < 0 ∨ (s.size : Int) ≤ i) :
    s.shape (some i) = .error (.shapeIndex i s.size) := by
  unfold Arrays.shape
  dsimp only
  by_cases low : i < 0
  · split
    · rw [if_pos low]
      rfl
    · rfl
  · have beyond : s.starts.size ≤ i.toNat + 1 := by
      have one := s.starts_size_pos
      simp only [Arrays.size] at h
      omega
    rw [Array.getElem?_eq_none beyond]
    split
    · contradiction
    · rfl

/-! ## Stores that grew from the empty one -/

/-- The number of points in front of a shape. -/
def pointsBefore (shapes : List (List α)) (k : Nat) : Nat := ((shapes.map List.length).take k).sum

theorem pointsBefore_succ (shapes : List (List α)) (k : Nat) (h : k < shapes.length) :
    pointsBefore shapes (k + 1) = pointsBefore shapes k + shapes[k].length := by
  unfold pointsBefore
  rw [List.take_succ_eq_append_getElem (by simpa using h), List.sum_append]
  simp

theorem size_empty_add (shapes : List (List α)) : (empty.add shapes).size = shapes.length := by
  rw [size_add]
  exact Nat.zero_add _

theorem start_empty_add (shapes : List (List α)) (k : Nat) (h : k ≤ shapes.length) :
    (empty.add shapes).starts[k]? = some (pointsBefore shapes k : Int) := by
  have here := start_add empty shapes k h
  have index : (empty : ShapeStore α).size + k = k := Nat.zero_add k
  have count : (empty : ShapeStore α).points.size + pointsBefore shapes k =
      pointsBefore shapes k := Nat.zero_add _
  rw [index] at here
  rw [here, ← count]
  rfl

/-- The boundaries are the numbers of points in front of the shapes, and that of all points. -/
theorem starts_empty_add (shapes : List (List α)) :
    (empty.add shapes).starts.toList =
      (List.range (shapes.length + 1)).map fun k => (pointsBefore shapes k : Int) := by
  have count : (empty.add shapes).starts.size = shapes.length + 1 := by
    have one := (empty.add shapes).starts_size_pos
    have shapesIn := size_empty_add shapes
    unfold Arrays.size at shapesIn
    omega
  refine List.ext_getElem? fun k => ?_
  rw [Array.getElem?_toList, List.getElem?_map]
  by_cases within : k ≤ shapes.length
  · rw [start_empty_add shapes k within, List.getElem?_range (by omega)]
    rfl
  · rw [Array.getElem?_eq_none (by omega), List.getElem?_eq_none (by simp; omega)]
    rfl

theorem pairwise_starts_empty_add (shapes : List (List α)) :
    (empty.add shapes).starts.toList.Pairwise (· ≤ ·) := by
  rw [starts_empty_add]
  refine List.pairwise_map.mpr (List.pairwise_lt_range.imp ?_)
  intro a b less
  have part : (shapes.map List.length).take a <+: (shapes.map List.length).take b :=
    List.take_prefix_take_left (Nat.le_of_lt less)
  rcases part with ⟨more, whole⟩
  have sums := congrArg List.sum whole
  rw [List.sum_append] at sums
  unfold pointsBefore
  omega

theorem shape_empty_add (shapes : List (List α)) (k : Nat) (h : k < shapes.length) :
    (empty.add shapes).shape (some (k : Int)) = .ok shapes[k] := by
  have here := shape_add empty shapes k h
  have index : (empty : ShapeStore α).size + k = k := Nat.zero_add k
  rwa [index] at here

theorem boundary_empty_add (shapes : List (List α)) (k : Nat) (h : k ≤ shapes.length) :
    (empty.add shapes).boundary k = .ok (pointsBefore shapes k : Int) := by
  have here := start_empty_add shapes k h
  rcases Array.getElem?_eq_some_iff.mp here with ⟨within, value⟩
  have found : Span.at? (empty.add shapes).starts k = some (pointsBefore shapes k : Int) := by
    simp [Span.at?, Span.index?, within, value]
  rw [Arrays.boundary, found]
  rfl

/-- Boundaries from zero on are as far apart as the shape between them has points. -/
theorem shapeSize_empty_add (shapes : List (List α)) (k : Nat) (h : k < shapes.length) :
    (empty.add shapes).shapeSize k = .ok (shapes[k].length : Int) := by
  have low := boundary_empty_add shapes k (by omega)
  have high := boundary_empty_add shapes (k + 1) h
  have next : ((k + 1 : Nat) : Int) = (k : Int) + 1 := by omega
  rw [next] at high
  have distance : apart (pointsBefore shapes k) (pointsBefore shapes (k + 1)) =
      (shapes[k].length : Int) := by
    rw [apart, if_pos (by omega), pointsBefore_succ shapes k h]
    omega
  unfold Arrays.shapeSize
  rw [high, low, ← distance]
  rfl

end ShapeStore
end StopAlign
