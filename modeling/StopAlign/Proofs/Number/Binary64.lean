import StopAlign.Number.Binary64
import StopAlign.Proofs.Number.Arithmetic

/-!
# Binary64 — the double nearest to a ratio

- `patternRank`, `place_ofPattern` : where the double of a bit pattern stands
- `patternRank_scaled` : exponent and integer of a number make its pattern
- `nearest_roundRatio` : rounding a ratio gives the whole number next to it
- `scale_exponentFor`  : the exponent at which a ratio has 53 binary digits
- `stands_ofRatio`, `stands_ofInteger` : the double of a ratio, or of an integer, stands where the
  exact number is rounded to

Patterns from infinity on mean infinity, so that rounding may carry beyond the largest double.
-/

namespace StopAlign
namespace Number

open Float.Model Float.Model.UnpackedFloat

/-! ## Bit patterns -/

/-- Packing a double does not move it. -/
theorem standing_repack {x : UnpackedFloat} (canonical : Canonical x) :
    standing (repack x) = standing x := by
  cases x with
  | notANumber => rw [repack_notANumber]
  | infinity s => rw [repack_infinity]
  | zero s => exact repack_worth rfl canonical
  | finite s m e pos => exact repack_worth rfl canonical

theorem place_ofBits (bits : UInt64) :
    place (Float.ofBits bits) = standing (UnpackedFloat.unpack Format.binary64 bits.toBitVec) :=
  standing_repack (canonical_unpack bits.toBitVec)

theorem isNaN_of_place {x : Float} (below : place x ≤ stand 2 0 0) : x.isNaN = false := by
  cases unpacked : x.toModel.unpack with
  | notANumber =>
    rw [place, unpacked] at below
    exact absurd (stand_le.mp below) (by omega)
  | _ =>
    show x.toModel.unpack.isNaN = false
    rw [unpacked]
    rfl

/-- The sign of a pattern. -/
def signOf : Bool → Sign
  | true => .negative
  | false => .positive

/-- Kind, exponent and mantissa of the double of a pattern without its sign. -/
def patternRank (n : ℕ) : ℤ × ℤ × ℤ :=
  if n = 0 then (0, 0, 0)
  else if n / 2 ^ 52 = 0 then (1, -1074, n)
  else if n < infinityBits then (1, (n / 2 ^ 52 : ℕ) - 1075, 2 ^ 52 + (n % 2 ^ 52 : ℕ))
  else (2, 0, 0)

/-- The rank of a pattern as its fields tell it. -/
theorem standing_fields (negative : Bool) {n : ℕ} (most : n ≤ infinityBits) {bits : BitVec 64}
    (whole : bits.toNat = if negative then n + 2 ^ 63 else n) :
    standing (UnpackedFloat.unpack Format.binary64 bits) =
      standAt (signOf negative) (patternRank n) := by
  have top : infinityBits = 2047 * 2 ^ 52 := rfl
  let m : BitVec 52 := @unpackMantissa Format.binary64 bits
  let e : BitVec 11 := @unpackExponent Format.binary64 bits
  have fraction : m.toNat = n % 2 ^ 52 := by
    show bits.toNat % 2 ^ 52 = _
    rw [whole]
    split_ifs <;> omega
  have exponent : e.toNat = n / 2 ^ 52 := by
    show (bits.toNat >>> 52) % 2 ^ 11 = _
    rw [whole, Nat.shiftRight_eq_div_pow]
    split_ifs <;> omega
  have sign : Sign.ofBitVec (@unpackSign Format.binary64 bits) = signOf negative := by
    have field : (@unpackSign Format.binary64 bits).toNat = if negative then 1 else 0 := by
      show (bits.toNat >>> 63) % 2 ^ 1 = _
      rw [whole, Nat.shiftRight_eq_div_pow]
      split_ifs <;> omega
    cases negative with
    | true => rw [BitVec.eq_of_toNat_eq (field.trans rfl : _ = (1#1).toNat)]; rfl
    | false => rw [BitVec.eq_of_toNat_eq (field.trans rfl : _ = (0#1).toNat)]; rfl
  have small : m.toNat < 2 ^ 52 := m.isLt
  unfold patternRank
  by_cases all : n = infinityBits
  · -- infinity has a full exponent field and no fraction
    have full : e = -1#11 := BitVec.eq_of_toNat_eq (exponent.trans (by rw [all, top]; rfl))
    have nothing : m = 0#52 := BitVec.eq_of_toNat_eq (fraction.trans (by rw [all, top]; rfl))
    rw [unpack_infinity full nothing, sign, if_neg (by omega), if_neg (by omega),
      if_neg (by omega)]
    cases negative <;> rfl
  have notAll : e ≠ -1#11 := fun full => by
    have last : e.toNat = 2047 := congrArg BitVec.toNat full
    omega
  by_cases lowest : n / 2 ^ 52 = 0
  · have none : e = 0#11 := BitVec.eq_of_toNat_eq (exponent.trans lowest)
    rw [if_pos lowest]
    by_cases zero : n = 0
    · have nothing : m = 0#52 := BitVec.eq_of_toNat_eq (by rw [fraction, zero]; rfl)
      rw [unpack_zero none nothing, if_pos zero]
      cases negative <;> rfl
    · have some : m ≠ 0#52 := fun none => by
        have none : m.toNat = 0 := congrArg BitVec.toNat none
        omega
      have least : (e.toNat : ℤ) - (1023 + 52) + 1 = -1074 := by omega
      have all : (m.toNat : ℤ) = n := by omega
      rcases unpack_subnormal none some with ⟨pos, unpacked⟩
      rw [unpacked, sign, if_neg zero, standing_finite, standAt]
      show stand _ (Sign.apply _ ((e.toNat : ℤ) - (1023 + 52) + 1)) (Sign.apply _ (m.toNat : ℤ)) = _
      rw [least, all]
  · have there : e ≠ 0#11 := fun zero => by
      have zero : e.toNat = 0 := congrArg BitVec.toNat zero
      omega
    have hidden : (1#1 ++ m).toNat = 2 ^ 52 + m.toNat := by
      rw [BitVec.toNat_append, ← Nat.shiftLeft_add_eq_or_of_lt small]
      rfl
    have scale : (e.toNat : ℤ) - (1023 + 52) = (n / 2 ^ 52 : ℕ) - 1075 := by omega
    have full : ((1#1 ++ m).toNat : ℤ) = 2 ^ 52 + (n % 2 ^ 52 : ℕ) := by omega
    rcases unpack_normal notAll there with ⟨pos, unpacked⟩
    rw [unpacked, sign, if_neg (by rintro rfl; exact lowest rfl), if_neg lowest, if_pos (by omega),
      standing_finite, standAt]
    show stand _ (Sign.apply _ ((e.toNat : ℤ) - (1023 + 52))) (Sign.apply _ ((1#1 ++ m).toNat : ℤ)) =
      _
    rw [scale, full]

theorem place_ofPattern (negative : Bool) (n : ℕ) :
    place (ofPattern negative n) = standAt (signOf negative) (patternRank n) := by
  have room : infinityBits + 2 ^ 63 < 2 ^ 64 := by decide
  have bounded : ∀ k ≤ infinityBits,
      place (Float.ofBits (UInt64.ofNat (if negative then k + unit63 else k))) =
        standAt (signOf negative) (patternRank k) := by
    intro k most
    refine (place_ofBits _).trans (standing_fields negative most ?_)
    show (if negative then k + 2 ^ 63 else k) % 2 ^ 64 = _
    split_ifs <;> omega
  unfold ofPattern
  dsimp only
  by_cases low : n < infinityBits
  · rw [if_pos low]
    exact bounded n low.le
  · rw [if_neg low, bounded infinityBits le_rfl]
    have top : infinityBits = 2047 * 2 ^ 52 := rfl
    have beyond : patternRank n = (2, 0, 0) := by
      rw [patternRank, if_neg (by omega), if_neg (by omega), if_neg low]
    rw [beyond]
    rfl

/-- A pattern is never the one of a value that is no number. -/
theorem isNaN_ofPattern (negative : Bool) (n : ℕ) : (ofPattern negative n).isNaN = false := by
  apply isNaN_of_place
  rw [place_ofPattern]
  have kind : patternRank n = (2, 0, 0) ∨ 0 ≤ (patternRank n).1 ∧ (patternRank n).1 < 2 := by
    unfold patternRank
    split_ifs <;> simp
  rcases kind with top | below
  · rw [top]
    cases negative <;> decide
  · cases negative with
    | true => exact stand_le.mpr (.inl (by show -(patternRank n).1 < 2; omega))
    | false => exact stand_le.mpr (.inl below.2)

/-- Exponent and integer of a number, put together, are its pattern. -/
theorem patternRank_scaled {e : ℤ} {n : ℕ} (least : -1074 ≤ e) (most : n ≤ 2 ^ 53)
    (full : 2 ^ 52 ≤ n ∨ e = -1074) :
    patternRank ((e - leastExponent).toNat * unit52 + n) = rank e n := by
  have top : infinityBits = 2047 * 2 ^ 52 := rfl
  obtain ⟨k, rfl⟩ : ∃ k : ℕ, e = (k : ℤ) - 1074 := ⟨(e + 1074).toNat, by omega⟩
  have scale : ((k : ℤ) - 1074 - leastExponent).toNat * unit52 = k * 2 ^ 52 := by
    unfold leastExponent unit52
    omega
  rw [scale]
  unfold patternRank rank
  split_ifs <;> simp only [Prod.mk.injEq, true_and] <;> omega

/-! ## Ratios -/

/-- A number below half of the least double is rounded to zero. -/
theorem stands_small (s : Sign) {w : ℚ} (nonneg : 0 ≤ w) (small : w < 2 ^ (-1075 : ℤ)) :
    Stands (signed s w) (standAt s (patternRank 0)) := by
  refine ⟨s, w, -1074, 0, nonneg, rfl, ⟨le_rfl, ?_, .inl rfl⟩, ?_, rfl⟩
  · exact small.trans_le (zpow_le_zpow_right₀ (by norm_num) (by norm_num))
  · refine nearest_of_between ?_ ?_
    · have above : 0 ≤ w / 2 ^ (-1074 : ℤ) := by positivity
      exact lt_of_lt_of_le (by norm_num) above
    · rw [div_lt_iff₀ (by positivity)]
      calc w < 2 ^ (-1075 : ℤ) := small
        _ = (((0 : ℕ) : ℚ) + 1 / 2) * 2 ^ (-1074 : ℤ) := by
          rw [show (-1075 : ℤ) = -1 + -1074 from rfl, zpow_add₀ (by norm_num), zpow_neg_one,
            Nat.cast_zero, zero_add, one_div]

theorem nearest_roundRatio (num : ℕ) {den : ℕ} (pos : 0 < den) :
    Nearest ((num : ℚ) / den) (roundRatio num den) := by
  have told := (tells_div num pos).nearest
  have rounds : roundRatio num den =
      (accuracyOfFraction (num % den) den).roundToNearestEven (num / den) := by
    unfold roundRatio accuracyOfFraction
    dsimp only
    by_cases none : num % den = 0
    · rw [if_pos none, none, if_pos pos]
      rfl
    · rw [if_neg none]
      rcases lt_trichotomy (2 * (num % den)) den with less | tie | more
      · rw [if_pos less, Nat.compare_eq_lt.mpr less]
        rfl
      · rw [if_neg (by omega), if_neg (by omega), Nat.compare_eq_eq.mpr tie]
        rfl
      · rw [if_neg (by omega), if_pos more, Nat.compare_eq_gt.mpr more]
        rfl
  rw [rounds]
  exact told

/-- The ratio that is left at an exponent. -/
theorem scaleDown_ratio (num : ℕ) {den : ℕ} (pos : 0 < den) (e : ℤ) :
    0 < (scaleDown num den e).2 ∧
      ((scaleDown num den e).1 : ℚ) / (scaleDown num den e).2 = (num : ℚ) / den / 2 ^ e := by
  unfold scaleDown
  by_cases up : 0 ≤ e
  · rw [if_pos up]
    obtain ⟨k, rfl⟩ := Int.eq_ofNat_of_zero_le up
    refine ⟨Nat.mul_pos pos (twoTo_pos _), ?_⟩
    simp only [Int.toNat_natCast, zpow_natCast, Nat.cast_mul]
    rw [show ((twoTo k : ℕ) : ℚ) = 2 ^ k by simp [twoTo], div_div]
  · rw [if_neg up]
    obtain ⟨k, rfl⟩ : ∃ k : ℕ, e = -(k : ℤ) := ⟨(-e).toNat, by omega⟩
    refine ⟨pos, ?_⟩
    simp only [neg_neg, Int.toNat_natCast, zpow_neg, zpow_natCast, Nat.cast_mul]
    rw [show ((twoTo k : ℕ) : ℚ) = 2 ^ k by simp [twoTo], div_inv_eq_mul, div_mul_eq_mul_div]

/-- The size of a ratio as the digits of its terms tell it. -/
theorem ratio_size {num den : ℕ} (some : 0 < num) (pos : 0 < den) :
    (2 : ℚ) ^ ((num.log2 : ℤ) - den.log2 - 1) < (num : ℚ) / den ∧
      (num : ℚ) / den < 2 ^ ((num.log2 : ℤ) - den.log2 + 1) := by
  have room : (0 : ℚ) < den := by exact_mod_cast pos
  have least : ((2 : ℚ) ^ (num.log2 : ℤ)) ≤ num := by
    exact_mod_cast Nat.log2_self_le some.ne'
  have least' : ((2 : ℚ) ^ (den.log2 : ℤ)) ≤ den := by
    exact_mod_cast Nat.log2_self_le pos.ne'
  have most : (num : ℚ) < 2 ^ ((num.log2 : ℤ) + 1) := by
    exact_mod_cast (Nat.lt_log2_self (n := num))
  have most' : (den : ℚ) < 2 ^ ((den.log2 : ℤ) + 1) := by
    exact_mod_cast (Nat.lt_log2_self (n := den))
  constructor
  · rw [lt_div_iff₀ room]
    calc (2 : ℚ) ^ ((num.log2 : ℤ) - den.log2 - 1) * den
        < 2 ^ ((num.log2 : ℤ) - den.log2 - 1) * 2 ^ ((den.log2 : ℤ) + 1) := by gcongr
      _ = 2 ^ (num.log2 : ℤ) := by
        rw [← zpow_add₀ (by norm_num)]
        congr 1
        omega
      _ ≤ num := least
  · rw [div_lt_iff₀ room]
    calc (num : ℚ) < 2 ^ ((num.log2 : ℤ) + 1) := most
      _ = 2 ^ ((num.log2 : ℤ) - den.log2 + 1) * 2 ^ (den.log2 : ℤ) := by
        rw [← zpow_add₀ (by norm_num)]
        congr 1
        omega
      _ ≤ 2 ^ ((num.log2 : ℤ) - den.log2 + 1) * den := by gcongr

theorem scale_exponentFor {num den : ℕ} (some : 0 < num) (pos : 0 < den) :
    Scale ((num : ℚ) / den) (exponentFor num den) := by
  have room : (0 : ℚ) < den := by exact_mod_cast pos
  rcases ratio_size some pos with ⟨above, below⟩
  have digits : ∀ high : ℤ, (scaleDown num den high).1 / (scaleDown num den high).2 < unit52 ↔
      (num : ℚ) / den < 2 ^ (high + 52) := by
    intro high
    rcases scaleDown_ratio num pos high with ⟨positive, ratio⟩
    have positive' : (0 : ℚ) < (scaleDown num den high).2 := by exact_mod_cast positive
    rw [Nat.div_lt_iff_lt_mul positive, add_comm high, zpow_add₀ (by norm_num),
      ← div_lt_iff₀ (zpow_pos (by norm_num) high), ← ratio, div_lt_iff₀ positive']
    unfold unit52
    exact_mod_cast Iff.rfl
  unfold exponentFor leastExponent
  dsimp only
  generalize high : max ((num.log2 : ℤ) - den.log2 - 52) (-1074) = e
  have fits : (num : ℚ) / den < 2 ^ (e + 53) :=
    below.trans_le (zpow_le_zpow_right₀ (by norm_num) (by omega))
  split_ifs with fewer
  · rcases fewer with ⟨fewer, more⟩
    have less := (digits e).mp fewer
    refine ⟨by omega, less.trans_le (zpow_le_zpow_right₀ (by norm_num) (by omega)), .inr ?_⟩
    exact (zpow_le_zpow_right₀ (by norm_num) (by omega)).trans above.le
  · refine ⟨by omega, fits, ?_⟩
    rcases not_and_or.mp fewer with full | least
    · exact .inr (not_lt.mp ((digits e).not.mp full))
    · exact .inl (by omega)

/-- A ratio has an exponent, and at this exponent an integer next to it; they make its pattern. -/
theorem rounding_ofRatio (negative : Bool) {num den : ℕ} (some : 0 < num) (pos : 0 < den) :
    ∃ e n, Scale ((num : ℚ) / den) e ∧ Nearest ((num : ℚ) / den / 2 ^ e) n ∧
      ofRatio negative num den = ofPattern negative ((e - leastExponent).toNat * unit52 + n) := by
  rcases scaleDown_ratio num pos (exponentFor num den) with ⟨below, ratio⟩
  have near := nearest_roundRatio (scaleDown num den (exponentFor num den)).1 below
  rw [ratio] at near
  refine ⟨_, _, scale_exponentFor some pos, near, ?_⟩
  rw [ofRatio, if_neg some.ne']

/-- The double of a ratio stands where the ratio is rounded to. -/
theorem stands_ofRatio (negative : Bool) (num : ℕ) {den : ℕ} (pos : 0 < den) :
    Stands (signed (signOf negative) ((num : ℚ) / den)) (place (ofRatio negative num den)) := by
  rcases Nat.eq_zero_or_pos num with none | some
  · rw [none, ofRatio, if_pos rfl, place_ofPattern, Nat.cast_zero, zero_div]
    exact stands_small _ le_rfl (by positivity)
  · rcases rounding_ofRatio negative some pos with ⟨e, n, scale, near, same⟩
    have full := scale.least.eq_or_lt.symm.imp (near.ge_of_scale scale) Eq.symm
    rw [same, place_ofPattern, patternRank_scaled scale.least (near.le_of_scale scale) full]
    exact ⟨_, _, e, n, by positivity, rfl, scale, near, rfl⟩

/-- A number beyond all doubles is rounded to infinity. -/
theorem stands_huge (s : Sign) {num : ℕ} (huge : (2 : ℚ) ^ (1025 : ℤ) ≤ num) :
    Stands (signed s num) (standAt s (2, 0, 0)) := by
  have some : 0 < num := by
    have positive : (0 : ℚ) < num := lt_of_lt_of_le (by positivity) huge
    exact_mod_cast positive
  rcases rounding_ofRatio false some Nat.one_pos with ⟨e, n, scale, near, -⟩
  rw [Nat.cast_one, div_one] at scale near
  have large : (1025 : ℤ) < e + 53 :=
    (zpow_lt_zpow_iff_right₀ (by norm_num : (1 : ℚ) < 2)).mp (huge.trans_lt scale.below)
  have full := near.ge_of_scale scale (by omega)
  refine ⟨s, num, e, n, by positivity, rfl, scale, near, ?_⟩
  rw [rank, if_neg (by omega)]
  split_ifs <;> first | rfl | omega

theorem stands_ofInteger (n : ℤ) : Stands (n : ℚ) (place (ofInteger n)) := by
  have stands := stands_ofRatio (n < 0) n.natAbs Nat.one_pos
  have same : signed (signOf (n < 0)) ((n.natAbs : ℚ) / (1 : ℕ)) = n := by
    rw [Nat.cast_one, div_one, Nat.cast_natAbs]
    by_cases below : n < 0
    · rw [decide_eq_true below, abs_of_neg below, Int.cast_neg]
      exact neg_neg (n : ℚ)
    · rw [decide_eq_false below, abs_of_nonneg (not_lt.mp below)]
      rfl
  exact same ▸ stands

end Number
end StopAlign
