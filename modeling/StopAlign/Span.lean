import StopAlign.Number.Power

/-!
# Span — signed positions in a list

- `Span.bound`  : the position that a signed bound stands for
- `Span.slice`  : the members between two signed bounds
- `Span.index?` : the index that a signed position stands for
- `Span.at?`    : the member at a signed position
- `Span.isWord` : a signed number within a word of 64 bits

A negative number counts from the end. Bounds beyond the list are cut back to it; positions beyond
it have no member.
-/

namespace StopAlign
namespace Span

open Number

/-- The position that a signed bound stands for in a list of the given length. -/
def bound (length : Nat) (i : Int) : Nat :=
  if i < 0 then (length + i).toNat else min i.toNat length

def slice {α : Type} (xs : List α) (low high : Int) : List α :=
  (xs.take (bound xs.length high)).drop (bound xs.length low)

/-- The index that a signed position stands for in a list of the given length. -/
def index? (length : Nat) (i : Int) : Option Nat :=
  if 0 ≤ i then if i < length then some i.toNat else none
  else if 0 ≤ length + i then some (length + i).toNat
  else none

def at? {α : Type} (xs : Array α) (i : Int) : Option α :=
  (index? xs.size i).bind (xs[·]?)

def isWord (i : Int) : Bool :=
  -(unit63 : Int) ≤ i && i < unit63

theorem bound_natCast (length i : Nat) : bound length (i : Int) = min i length := by
  unfold bound
  rw [if_neg (by omega), Int.toNat_natCast]

/-- For bounds inside the list a slice is what lies between them. -/
theorem slice_natCast {α : Type} (xs : List α) {low high : Nat} (ascending : low ≤ high)
    (last : high ≤ xs.length) : slice xs (low : Int) (high : Int) = (xs.take high).drop low := by
  rw [slice, bound_natCast, bound_natCast, Nat.min_eq_left last,
    Nat.min_eq_left (Nat.le_trans ascending last)]

/-- For bounds inside the list a slice has as many members as the bounds are apart. -/
theorem length_slice {α : Type} (xs : List α) (low high : Nat) (h : high ≤ xs.length) :
    (slice xs low high).length = high - low := by
  simp only [slice, bound_natCast, List.length_drop, List.length_take]
  omega

/-- The same for signed bounds inside the list. -/
theorem length_slice_of_le {α : Type} (xs : List α) (low high : Int) (first : 0 ≤ low)
    (ascending : low ≤ high) (last : high ≤ xs.length) :
    ((slice xs low high).length : Int) = high - low := by
  rcases Int.eq_ofNat_of_zero_le first with ⟨a, rfl⟩
  rcases Int.eq_ofNat_of_zero_le (Int.le_trans first ascending) with ⟨b, rfl⟩
  rw [length_slice xs a b (by omega)]
  omega

end Span
end StopAlign
