import StopAlign.Geo.Distance
import StopAlign.Proofs.Number.Binary64

/-!
# Circle — the angle of a haversine root is a finite double

- `arctangent_le`        : halving an angle loses no more than its tangents do
- `root_nonneg`          : a root is not negative, unless it is no number
- `ofRatio_bounds`, `arcsine_bounds` : the double of a small ratio; the arcsine of one from 0 to 1
- `centralAngle_bounds`  : a central angle is never below zero and never infinite

The bounds are far from tight. They only have to keep rounding, and the product with the radius of
the earth, away from infinity.
-/

namespace StopAlign
namespace Number

open Float.Model Float.Model.UnpackedFloat

/-! ## Angles -/

theorem reciprocals_le (square k steps : ℕ) : reciprocals square k steps ≤ one / k := by
  cases steps with
  | zero => exact Nat.zero_le _
  | succ steps => exact Nat.sub_le _ _

theorem halfTangent_le (t : ℕ) : halfTangent t ≤ t := by
  have unit : 0 < one := by decide
  unfold halfTangent
  rw [Nat.div_le_iff_le_mul (by omega)]
  have more := Nat.mul_le_mul_left t (Nat.le_add_right one (squareRoot (one * one + t * t)))
  omega

/-- Each halving at most doubles what the last step finds, which is no more than the tangent. -/
theorem arctangent_le (fuel t : ℕ) : arctangent fuel t ≤ 2 ^ fuel * t := by
  have last (t : ℕ) : arctangent 0 t ≤ t := by
    have series := reciprocals_le (t * t / one) 1 (stepsFor (t * t / one))
    rw [Nat.div_one] at series
    unfold arctangent
    dsimp only
    exact Nat.div_le_of_le_mul (Nat.mul_comm one t ▸ Nat.mul_le_mul_left t series)
  induction fuel generalizing t with
  | zero =>
    rw [Nat.pow_zero, Nat.one_mul]
    exact last t
  | succ fuel ih =>
    unfold arctangent
    split_ifs
    · exact (last t).trans (Nat.le_mul_of_pos_left t (by positivity))
    · calc 2 * arctangent fuel (halfTangent t) ≤ 2 * (2 ^ fuel * halfTangent t) :=
            Nat.mul_le_mul_left 2 (ih _)
        _ ≤ 2 * (2 ^ fuel * t) :=
          Nat.mul_le_mul_left 2 (Nat.mul_le_mul_left _ (halfTangent_le t))
        _ = 2 ^ (fuel + 1) * t := by rw [Nat.pow_succ', Nat.mul_assoc]

theorem mantissa_lt (x : Float) : (parts x).mantissa < 2 ^ 53 := by
  have unit : unit52 = 2 ^ 52 := rfl
  have fraction : x.toBits.toNat % unit63 % unit52 < unit52 := Nat.mod_lt _ (by decide)
  unfold parts
  dsimp only
  split_ifs
  · dsimp only
    omega
  · dsimp only
    omega

/-! ## Signs -/

section Signs

variable {x : Float}

theorem place_zero : place 0 = stand 0 0 0 := rfl

theorem nonneg_iff (number : x.isNaN = false) : 0 ≤ x ↔ stand 0 0 0 ≤ place x :=
  le_iff_place (by decide +kernel) number

/-- A pattern with the sign bit is the one of no positive double. -/
theorem standing_signed {bits : BitVec 64} (high : 2 ^ 63 ≤ bits.toNat) :
    (UnpackedFloat.unpack Format.binary64 bits).isNaN = true ∨
      standing (UnpackedFloat.unpack Format.binary64 bits) ≤ stand 0 0 0 := by
  have sign : @unpackSign Format.binary64 bits = 1#1 := by
    refine BitVec.eq_of_toNat_eq ?_
    have below := bits.isLt
    show (bits.toNat >>> 63) % 2 ^ 1 = 1
    rw [Nat.shiftRight_eq_div_pow]
    omega
  have negative : Sign.ofBitVec (@unpackSign Format.binary64 bits) = .negative := by
    rw [sign]
    rfl
  rcases unpack_signed _ negative with none | infinite | zero | ⟨m, e, pos, finite⟩
  · rw [none]
    exact .inl rfl
  · rw [infinite]
    exact .inr (stand_le.mpr (by omega))
  · rw [zero]
    exact .inr (stand_le.mpr (by omega))
  · rw [finite]
    exact .inr (stand_le.mpr (by omega))

theorem isNegative_eq_false (above : 0 < x) : isNegative x = false := by
  have number := (isNaN_of_lt above).2
  rw [lt_iff_place (by decide +kernel) number, place_zero] at above
  unfold isNegative
  rw [decide_eq_false_iff_not]
  intro high
  have signed : 2 ^ 63 ≤ x.toBits.toBitVec.toNat := high
  rcases standing_signed signed with none | le
  · exact absurd (number.symm.trans none) (by decide)
  · exact absurd above (not_lt.mpr le)

/-- What is neither negative nor close to zero is positive. -/
theorem pos_of_abs (nonneg : 0 ≤ x) (far : ¬ x.abs < plainBelow) : 0 < x := by
  have number := (isNaN_of_le nonneg).2
  rw [nonneg_iff number] at nonneg
  rw [lt_iff_place (by decide +kernel) number, place_zero]
  refine lt_of_le_of_ne nonneg fun same => far ?_
  -- both zeros are close to zero
  have close : place x.abs = stand 0 0 0 := by
    show standing (repack x.toModel.unpack.abs) = _
    rw [place] at same
    cases unpacked : x.toModel.unpack with
    | zero s => cases s <;> rfl
    | infinity s =>
      rw [unpacked] at same
      cases s
      · exact absurd (stand_le.mp same.le) (by omega)
      · exact absurd (stand_le.mp same.symm.le) (by omega)
    | notANumber =>
      rw [unpacked] at same
      exact absurd (stand_le.mp same.symm.le) (by omega)
    | finite s m e pos =>
      rw [unpacked] at same
      cases s
      · exact absurd (stand_le.mp same.le) (by omega)
      · exact absurd (stand_le.mp same.symm.le) (by omega)
  have calm : x.abs.isNaN = false := isNaN_of_place (by rw [close, stand_le]; omega)
  rw [lt_iff_place calm (by decide +kernel), close]
  decide +kernel

theorem standing_unsigned (e : BitVec 11) (m : BitVec 52) :
    stand 0 0 0 ≤ standing (UnpackedFloat.unpack Format.binary64
      (packComponents Format.binary64 .positive e m)) := by
  rcases unpack_signed _ (sign_packComponents .positive e m) with
    none | infinite | zero | ⟨m, e, pos, finite⟩
  · rw [none]
    exact stand_le.mpr (by omega)
  · rw [infinite]
    exact stand_le.mpr (by omega)
  · rw [zero]
    exact stand_le.mpr (by omega)
  · rw [finite]
    exact stand_le.mpr (by omega)

/-- Rounding keeps the sign that it is given. -/
theorem standing_rounded (m : ℕ) (e : ℤ) (a : Accuracy) :
    stand 0 0 0 ≤ standing (repack (roundWithAccuracy Format.binary64 .positive m e a)) := by
  have either : ∀ (m : ℕ) (e : ℤ), stand 0 0 0 ≤ standing (repack
      (if h : m = 0 then .zero .positive else .finite .positive m e (Nat.pos_of_ne_zero h))) := by
    intro m e
    by_cases none : m = 0
    · rw [dif_pos none, standing_repack_zero]
    · rw [dif_neg none, repack, pack_finite]
      split_ifs <;> exact standing_unsigned _ _
  unfold roundWithAccuracy
  exact either _ _

/-- The root of what is not below zero is not below zero either, unless it is no number. -/
theorem root_nonneg (nonneg : ¬ x < 0) : stand 0 0 0 ≤ place x.sqrt := by
  have above : x.isNaN = false → stand 0 0 0 ≤ standing x.toModel.unpack := fun number => by
    rwa [lt_iff_place number (by decide +kernel), not_lt] at nonneg
  show stand 0 0 0 ≤ standing (repack (UnpackedFloat.sqrt Format.binary64 x.toModel.unpack))
  have known : x.isNaN = x.toModel.unpack.isNaN := rfl
  rw [known] at above
  cases unpacked : x.toModel.unpack with
  | notANumber => exact stand_le.mpr (by omega)
  | zero s => exact (standing_repack_zero s).ge
  | infinity s =>
    cases s with
    | positive => exact stand_le.mpr (by omega)
    | negative =>
      rw [unpacked] at above
      exact absurd (stand_le.mp (above rfl)) (by omega)
  | finite s m e pos =>
    cases s with
    | negative =>
      rw [unpacked] at above
      exact absurd (stand_le.mp (above rfl)) (by omega)
    | positive => exact standing_rounded _ _ _

end Signs

/-! ## The arcsine -/

/-- A double beyond all angles. -/
def angleBound : Float := ofInteger (2 ^ 59)

theorem angleBound_finite : angleBound.isFinite = true := by decide +kernel

/-- Rounding moves no ratio beyond what bounds it. -/
theorem ofRatio_bounds {num den : ℕ} (pos : 0 < den) (small : num ≤ 2 ^ 59 * den) :
    0 ≤ ofRatio false num den ∧ ofRatio false num den ≤ angleBound := by
  have here : Stands ((num : ℚ) / den) (place (ofRatio false num den)) :=
    stands_ofRatio false num pos
  have room : (0 : ℚ) < den := by exact_mod_cast pos
  have below : (num : ℚ) / den ≤ ((2 ^ 59 : ℤ) : ℚ) := by
    rw [div_le_iff₀ room]
    exact_mod_cast small
  have number : (ofRatio false num den).isNaN = false := here.isNaN
  rw [nonneg_iff number, le_iff_place number (isNaN_of_isFinite angleBound_finite)]
  exact ⟨(stands_zero .positive).mono here (by positivity), here.mono (stands_ofInteger _) below⟩

theorem arcsine_bounds {x : Float} (nonneg : 0 ≤ x) (most : x ≤ 1) :
    0 ≤ arcsine x ∧ arcsine x ≤ angleBound := by
  have number := (isNaN_of_le nonneg).2
  unfold arcsine
  rw [number, Bool.false_or]
  split_ifs with near within
  · exact ⟨nonneg, le_trans_of_le most (by decide +kernel)⟩
  · have positive : (parts x).negative = false := by
      have sign := isNegative_eq_false (pos_of_abs nonneg (by simpa using near))
      unfold parts
      dsimp only
      split_ifs <;> exact sign
    dsimp only
    rw [positive]
    generalize squareRoot _ = across
    have unit : 0 < one := by decide
    -- the value is below one; that it is below `2 ^ 53` will do
    have small : (parts x).mantissa * one / twoTo (-(parts x).exponent).toNat < 2 ^ 53 * one :=
      (Nat.div_le_self _ _).trans_lt (Nat.mul_lt_mul_of_pos_right (mantissa_lt x) unit)
    generalize (parts x).mantissa * one / twoTo (-(parts x).exponent).toNat = value at small ⊢
    have tangent : value * one / (one + across) ≤ value := by
      rw [Nat.div_le_iff_le_mul (by omega)]
      have more := Nat.mul_le_mul_left value (Nat.le_add_right one across)
      omega
    have angle := (arctangent_le 4 (value * one / (one + across))).trans
      (Nat.mul_le_mul_left _ tangent)
    exact ofRatio_bounds unit (by omega)
  · rw [isNegative_eq_false (pos_of_abs nonneg (by simpa using near))]
    constructor <;> decide +kernel

/-! ## The central angle -/

theorem place_mul (x y : Float) : place (x * y) =
    standing (repack (UnpackedFloat.mul Format.binary64 x.toModel.unpack y.toModel.unpack)) := rfl

/-- Between zero and a finite double there are finite ones only. -/
theorem isFinite_of_le {x y : Float} (finite : y.isFinite = true) (nonneg : 0 ≤ x) (le : x ≤ y) :
    x.isFinite = true := by
  rcases isNaN_of_le le with ⟨hx, hy⟩
  have above := (nonneg_iff hx).mp nonneg
  refine (isFinite_of_between hx hy ((le_iff_place hx hy).mp le) (fun low => ?_)
    fun high => ?_).1
  · rw [place, low] at above
    exact absurd (stand_le.mp above) (by omega)
  · have here : y.toModel.unpack.isFinite = true := finite
    rw [high] at here
    cases here

/-- Products with a finite factor that is not negative keep the order. -/
theorem mul_bounds {c x y : Float} (finite : c.isFinite = true) (finite' : y.isFinite = true)
    (factor : 0 ≤ c) (nonneg : 0 ≤ x) (le : x ≤ y) : 0 ≤ c * x ∧ c * x ≤ c * y := by
  rcases isNaN_of_le le with ⟨hx, hy⟩
  have fx := isFinite_of_le finite' nonneg le
  have first := stands_mul finite fx (canonical_float c) (canonical_float x)
  have second := stands_mul finite finite' (canonical_float c) (canonical_float y)
  have number : (c * x).isNaN = false := first.isNaN
  have number' : (c * y).isNaN = false := second.isNaN
  have worthC : 0 ≤ worth c.toModel.unpack := worth_le (x := .zero .positive) rfl finite trivial
    (canonical_float c) ((nonneg_iff (isNaN_of_isFinite finite)).mp factor)
  have worthX : 0 ≤ worth x.toModel.unpack := worth_le (x := .zero .positive) rfl fx trivial
    (canonical_float x) ((nonneg_iff hx).mp nonneg)
  have order := worth_le fx finite' (canonical_float x) (canonical_float y)
    ((le_iff_place hx hy).mp le)
  rw [nonneg_iff number, le_iff_place number number', place_mul, place_mul]
  exact ⟨(stands_zero .positive).mono first (mul_nonneg worthC worthX),
    first.mono second (mul_le_mul_of_nonneg_left order worthC)⟩

end Number

open Number

/-- A central angle is never below zero and never infinite. The root may be no number, since then it
counts as one. -/
theorem centralAngle_bounds {x root : Float} (h : rootOf x = .ok root) :
    0 ≤ centralAngle root ∧ centralAngle root < positiveInfinity := by
  unfold rootOf at h
  split_ifs at h with negative
  cases h
  have least : 0 ≤ (if x.sqrt < 1 then x.sqrt else 1) ∧ (if x.sqrt < 1 then x.sqrt else 1) ≤ 1 := by
    split_ifs with below
    · have number := (isNaN_of_lt below).1
      exact ⟨(nonneg_iff number).mpr (root_nonneg negative), le_of_lt_float below⟩
    · constructor <;> decide +kernel
  rcases arcsine_bounds least.1 least.2 with ⟨nonneg, most⟩
  have radius : (2 * earthRadius).isFinite = true := by decide +kernel
  rcases mul_bounds radius angleBound_finite (by decide +kernel) nonneg most with ⟨low, high⟩
  refine ⟨low, ?_⟩
  have top : 2 * earthRadius * angleBound < positiveInfinity := by decide +kernel
  rcases isNaN_of_le high with ⟨hx, hy⟩
  have hz : positiveInfinity.isNaN = false := by decide +kernel
  rw [lt_iff_place hy hz] at top
  rw [le_iff_place hx hy] at high
  exact (lt_iff_place hx hz).mpr (high.trans_lt top)

end StopAlign
