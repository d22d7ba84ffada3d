import Mathlib.Data.Prod.Lex
import Mathlib.Order.Basic

/-!
# Order — doubles in a row

- `Standing`, `standing` : where a double stands among all doubles that are numbers
- `le_iff_of_lt`, `le_iff_of_gt` : doubles of different kinds compare as their kinds
- `le_iff_standing`, `lt_iff_standing` : doubles that are numbers compare as they stand
- `place`, `le_iff_place`, `lt_iff_place` : the same for doubles in their packed form

Both zeros stand at the same place. Within the positive doubles the exponent goes before the
mantissa, and the negative ones are their mirror image.
-/

namespace StopAlign
namespace Number

open Float.Model

/-- The kind of a double, from minus infinity to infinity, its exponent and its mantissa. -/
abbrev Standing := ℤ ×ₗ ℤ ×ₗ ℤ

def stand (kind exponent mantissa : ℤ) : Standing := toLex (kind, toLex (exponent, mantissa))

theorem stand_le {k e m k' e' m' : ℤ} :
    stand k e m ≤ stand k' e' m' ↔ k < k' ∨ k = k' ∧ (e < e' ∨ e = e' ∧ m ≤ m') := by
  simp only [stand, Prod.Lex.toLex_le_toLex]

theorem stand_eq {k e m k' e' m' : ℤ} :
    stand k e m = stand k' e' m' ↔ k = k' ∧ e = e' ∧ m = m' := by
  simp only [stand, EmbeddingLike.apply_eq_iff_eq, Prod.mk.injEq]

/-- Where a double stands, the value that is no number behind all others. -/
def standing : UnpackedFloat → Standing
  | .infinity .negative => stand (-2) 0 0
  | .finite .negative mantissa exponent _ => stand (-1) (-exponent) (-mantissa)
  | .zero _ => stand 0 0 0
  | .finite .positive mantissa exponent _ => stand 1 exponent mantissa
  | .infinity .positive => stand 2 0 0
  | .notANumber => stand 3 0 0

theorem isLE_then {e e' : ℤ} {m m' : ℕ} :
    ((compare e e').then (compare m m')).isLE = true ↔ e < e' ∨ e = e' ∧ m ≤ m' := by
  rw [Ordering.isLE_then_iff_or, Int.compare_eq_lt, Int.compare_eq_eq, Nat.isLE_compare]

theorem isGE_then {e e' : ℤ} {m m' : ℕ} :
    ((compare e e').then (compare m m')).isGE = true ↔ e' < e ∨ e = e' ∧ m' ≤ m := by
  rw [← Ordering.isLE_swap, Ordering.swap_then, Int.compare_swap, Nat.compare_swap, isLE_then,
    eq_comm]

section Kinds

variable {x y : UnpackedFloat} {k e m k' e' m' : ℤ}

theorem le_iff_of_lt (order : x.compare y = some .lt) (hx : standing x = stand k e m)
    (hy : standing y = stand k' e' m') (kind : k < k') :
    x.le y = true ↔ standing x ≤ standing y := by
  rw [hx, hy, stand_le, UnpackedFloat.le, order]
  exact iff_of_true rfl (.inl kind)

theorem le_iff_of_gt (order : x.compare y = some .gt) (hx : standing x = stand k e m)
    (hy : standing y = stand k' e' m') (kind : k' < k) :
    x.le y = true ↔ standing x ≤ standing y := by
  rw [hx, hy, stand_le, UnpackedFloat.le, order]
  refine iff_of_false (by decide) ?_
  omega

end Kinds

/-- Doubles that are numbers compare as they stand. -/
theorem le_iff_standing {x y : UnpackedFloat} (hx : x.isNaN = false) (hy : y.isNaN = false) :
    x.le y = true ↔ standing x ≤ standing y := by
  cases x with
  | notANumber => cases hx
  | infinity s =>
    cases y with
    | notANumber => cases hy
    | infinity s' => cases s <;> cases s' <;> decide
    | zero s' =>
      cases s with
      | positive => exact le_iff_of_gt rfl rfl rfl (by decide)
      | negative => exact le_iff_of_lt rfl rfl rfl (by decide)
    | finite s' m' e' _ =>
      cases s with
      | positive => cases s' <;> exact le_iff_of_gt rfl rfl rfl (by decide)
      | negative => cases s' <;> exact le_iff_of_lt rfl rfl rfl (by decide)
  | zero s =>
    cases y with
    | notANumber => cases hy
    | infinity s' =>
      cases s' with
      | positive => exact le_iff_of_lt rfl rfl rfl (by decide)
      | negative => exact le_iff_of_gt rfl rfl rfl (by decide)
    | zero s' => exact iff_of_true rfl le_rfl
    | finite s' m' e' _ =>
      cases s' with
      | positive => exact le_iff_of_lt rfl rfl rfl (by decide)
      | negative => exact le_iff_of_gt rfl rfl rfl (by decide)
  | finite s m e _ =>
    cases y with
    | notANumber => cases hy
    | infinity s' =>
      cases s' with
      | positive => cases s <;> exact le_iff_of_lt rfl rfl rfl (by decide)
      | negative => cases s <;> exact le_iff_of_gt rfl rfl rfl (by decide)
    | zero s' =>
      cases s with
      | positive => exact le_iff_of_gt rfl rfl rfl (by decide)
      | negative => exact le_iff_of_lt rfl rfl rfl (by decide)
    | finite s' m' e' _ =>
      -- only doubles of one sign are told apart by exponent and mantissa
      cases s with
      | positive =>
        cases s' with
        | positive =>
          refine isLE_then.trans (Iff.trans ?_ stand_le.symm)
          omega
        | negative => exact le_iff_of_gt rfl rfl rfl (by decide)
      | negative =>
        cases s' with
        | positive => exact le_iff_of_lt rfl rfl rfl (by decide)
        | negative =>
          refine (Bool.eq_iff_iff.mp Ordering.isLE_swap).trans ?_
          refine isGE_then.trans (Iff.trans ?_ stand_le.symm)
          omega

/-- The other way round two doubles compare the other way round. -/
theorem compare_swap (x y : UnpackedFloat) : y.compare x = (x.compare y).map Ordering.swap := by
  cases x with
  | notANumber => cases y <;> rfl
  | infinity s =>
    cases y with
    | notANumber => cases s <;> rfl
    | infinity s' => cases s <;> cases s' <;> rfl
    | zero s' => cases s <;> rfl
    | finite s' m' e' _ => cases s <;> cases s' <;> rfl
  | zero s =>
    cases y with
    | notANumber => rfl
    | infinity s' => cases s' <;> rfl
    | zero s' => rfl
    | finite s' m' e' _ => cases s' <;> rfl
  | finite s m e _ =>
    cases y with
    | notANumber => cases s <;> rfl
    | infinity s' => cases s <;> cases s' <;> rfl
    | zero s' => cases s <;> rfl
    | finite s' m' e' _ =>
      have mirror : (compare e' e).then (compare m' m) =
          ((compare e e').then (compare m m')).swap := by
        rw [Ordering.swap_then, Int.compare_swap, Nat.compare_swap]
      cases s with
      | positive =>
        cases s' with
        | positive => exact congrArg some mirror
        | negative => rfl
      | negative =>
        cases s' with
        | positive => rfl
        | negative => exact congrArg (fun o => some (Ordering.swap o)) mirror

theorem exists_compare {x y : UnpackedFloat} (hx : x.isNaN = false) (hy : y.isNaN = false) :
    ∃ o, x.compare y = some o := by
  -- one of the two is not behind the other, and so is compared with it
  rcases le_total (standing x) (standing y) with before | behind
  · exact Option.isSome_iff_exists.mp (Option.isSome_of_any ((le_iff_standing hx hy).mpr before))
  · have le := (le_iff_standing hy hx).mpr behind
    rw [UnpackedFloat.le, compare_swap x y, Option.any_map] at le
    exact Option.isSome_iff_exists.mp (Option.isSome_of_any le)

/-- Of two doubles that are numbers, one is below the other if it stands before it. -/
theorem lt_iff_standing {x y : UnpackedFloat} (hx : x.isNaN = false) (hy : y.isNaN = false) :
    x.lt y = true ↔ standing x < standing y := by
  rw [← not_le, ← le_iff_standing hy hx, UnpackedFloat.le, compare_swap x y, UnpackedFloat.lt]
  rcases exists_compare hx hy with ⟨o, order⟩
  rw [order]
  cases o <;> decide

/-! ## Packed doubles -/

/-- Where a packed double stands. -/
def place (x : Float) : Standing := standing x.toModel.unpack

theorem le_iff_place {x y : Float} (hx : x.isNaN = false) (hy : y.isNaN = false) :
    x ≤ y ↔ place x ≤ place y :=
  decide_eq_true_iff.trans (le_iff_standing hx hy)

theorem lt_iff_place {x y : Float} (hx : x.isNaN = false) (hy : y.isNaN = false) :
    x < y ↔ place x < place y :=
  decide_eq_true_iff.trans (lt_iff_standing hx hy)

end Number
end StopAlign
