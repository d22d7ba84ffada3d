/-!
# Sort — stable merge sort

- `mergeOnto` : merge two lists behind a list in reverse order
- `stableSort` : a list in order, where equally placed members keep their order

The sort recurses on fuel, so that it computes on closed lists inside proofs as well. It agrees with
the merge sort of core, whose laws hold for it.
-/

namespace StopAlign

variable {α : Type}

/-- Merge two lists behind a list in reverse order; the first one goes first where both may. The
fuel bounds the number of members. -/
def mergeOnto (le : α → α → Bool) : Nat → List α → List α → List α → List α
  | 0, done, _, _ => done.reverse
  | _ + 1, done, [], ys => done.reverseAux ys
  | _ + 1, done, x :: xs, [] => done.reverseAux (x :: xs)
  | fuel + 1, done, x :: xs, y :: ys =>
    if le x y then mergeOnto le fuel (x :: done) xs (y :: ys)
    else mergeOnto le fuel (y :: done) (x :: xs) ys

/-- Sort a list by halves; the fuel bounds its length. -/
def sortWithin (le : α → α → Bool) : Nat → List α → List α
  | 0, xs => xs
  | _ + 1, [] => []
  | _ + 1, [x] => [x]
  | fuel + 1, x :: y :: xs =>
    let all := x :: y :: xs
    let half := (all.length + 1) / 2
    mergeOnto le (all.length + 1) [] (sortWithin le fuel (all.take half))
      (sortWithin le fuel (all.drop half))

def stableSort (le : α → α → Bool) (xs : List α) : List α :=
  sortWithin le xs.length xs

theorem mergeOnto_eq (le : α → α → Bool) (fuel : Nat) (done xs ys : List α)
    (h : xs.length + ys.length < fuel) :
    mergeOnto le fuel done xs ys = done.reverse ++ xs.merge ys le := by
  induction fuel generalizing done xs ys with
  | zero => omega
  | succ fuel ih =>
    cases xs with
    | nil => simp [mergeOnto, List.reverseAux_eq]
    | cons x xs =>
      cases ys with
      | nil => simp [mergeOnto, List.reverseAux_eq]
      | cons y ys =>
        simp only [List.length_cons] at h
        rw [mergeOnto, List.cons_merge_cons]
        split
        · rw [ih (x :: done) xs (y :: ys) (by simp only [List.length_cons]; omega)]
          simp
        · rw [ih (y :: done) (x :: xs) ys (by simp only [List.length_cons]; omega)]
          simp

theorem sortWithin_eq (le : α → α → Bool) (fuel : Nat) (xs : List α) (h : xs.length ≤ fuel) :
    sortWithin le fuel xs = xs.mergeSort le := by
  induction fuel generalizing xs with
  | zero =>
    have empty : xs = [] := List.length_eq_zero_iff.mp (Nat.le_zero.mp h)
    rw [empty]
    simp [sortWithin]
  | succ fuel ih =>
    match xs, h with
    | [], _ => simp [sortWithin]
    | [x], _ => simp [sortWithin]
    | x :: y :: xs, h =>
      simp only [List.length_cons] at h
      have left := ih ((x :: y :: xs).take (((x :: y :: xs).length + 1) / 2))
        (by simp only [List.length_take, List.length_cons]; omega)
      have right := ih ((x :: y :: xs).drop (((x :: y :: xs).length + 1) / 2))
        (by simp only [List.length_drop, List.length_cons]; omega)
      rw [sortWithin, left, right, mergeOnto_eq, List.mergeSort]
      · simp only [List.MergeSort.Internal.splitInTwo_fst,
          List.MergeSort.Internal.splitInTwo_snd, List.reverse_nil, List.nil_append]
      · simp only [List.length_mergeSort, List.length_take, List.length_drop, List.length_cons]
        omega

/-- The sort agrees with the merge sort of core. -/
theorem stableSort_eq (le : α → α → Bool) (xs : List α) : stableSort le xs = xs.mergeSort le :=
  sortWithin_eq le xs.length xs (Nat.le_refl _)

end StopAlign
