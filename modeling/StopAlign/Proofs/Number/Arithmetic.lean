import StopAlign.Proofs.Number.Rounding

/-!
# Arithmetic — the order of sums, products and quotients of doubles

- `worth`, `Canonical`  : the number of a double, and the form of an unpacked one
- `stands_worth`, `worth_le` : a double is rounded to itself
- `stands_add`, `stands_sub`, `stands_mul`, `stands_div` : a result is rounded from the exact one
- `standing_add_mono`, `standing_div_mono`, `standing_mul_mono` : results keep an order, also
  where they leave the finite doubles
- `add_not_lt`, `add_le_add_next`, `half_le_half` : the same for packed doubles

Two results are ordered as their exact numbers, because both are rounded. What is left are the
infinities, which stand at the ends of the row.
-/

namespace StopAlign
namespace Number

open Float.Model Float.Model.UnpackedFloat

/-! ## The number of a double -/

/-- The number that a double is. Infinities and the value that is no number have none. -/
def worth : UnpackedFloat → ℚ
  | .finite s m e _ => signed s (m * 2 ^ e)
  | _ => 0

theorem worth_finite (s : Sign) {m : ℕ} (e : ℤ) (pos : 0 < m) :
    worth (.finite s m e pos) = signed s (m * 2 ^ e) := rfl

/-- The form of an unpacked double: an integer of 53 binary digits, or fewer at the least
exponent. -/
def Canonical : UnpackedFloat → Prop
  | .finite _ m e _ => m < 2 ^ 53 ∧ -1074 ≤ e ∧ e < 972 ∧ (2 ^ 52 ≤ m ∨ e = -1074)
  | _ => True

theorem canonical_unpack (bits : BitVec 64) :
    Canonical (UnpackedFloat.unpack Format.binary64 bits) := by
  let fraction : BitVec 52 := @unpackMantissa Format.binary64 bits
  let exponent : BitVec 11 := @unpackExponent Format.binary64 bits
  have small : fraction.toNat < 2 ^ 52 := fraction.isLt
  have narrow : exponent.toNat < 2 ^ 11 := exponent.isLt
  by_cases all : exponent = -1#11
  · by_cases none : fraction = 0#52
    · rw [unpack_infinity all none]
      trivial
    · rw [unpack_notANumber all none]
      trivial
  have notAll : exponent.toNat ≠ 2047 := fun h => all (BitVec.eq_of_toNat_eq h)
  by_cases lowest : exponent = 0#11
  · by_cases none : fraction = 0#52
    · rw [unpack_zero lowest none]
      trivial
    · have here : exponent.toNat = 0 := congrArg BitVec.toNat lowest
      rcases unpack_subnormal lowest none with ⟨pos, unpacked⟩
      rw [unpacked]
      exact ⟨show fraction.toNat < 2 ^ 53 by omega,
        show (-1074 : ℤ) ≤ exponent.toNat - (1023 + 52) + 1 by omega,
        show (exponent.toNat : ℤ) - (1023 + 52) + 1 < 972 by omega,
        .inr (show (exponent.toNat : ℤ) - (1023 + 52) + 1 = -1074 by omega)⟩
  · have notLowest : exponent.toNat ≠ 0 := fun h => lowest (BitVec.eq_of_toNat_eq h)
    have hidden : (1#1 ++ fraction).toNat = 2 ^ 52 + fraction.toNat := by
      rw [BitVec.toNat_append, ← Nat.shiftLeft_add_eq_or_of_lt small]
      rfl
    rcases unpack_normal all lowest with ⟨pos, unpacked⟩
    rw [unpacked]
    exact ⟨show (1#1 ++ fraction).toNat < 2 ^ 53 by omega,
      show (-1074 : ℤ) ≤ exponent.toNat - (1023 + 52) by omega,
      show (exponent.toNat : ℤ) - (1023 + 52) < 972 by omega,
      .inl (show 2 ^ 52 ≤ (1#1 ++ fraction).toNat by omega)⟩

section Worth

variable {x y : UnpackedFloat}

theorem signed_mul (s s' : Sign) (w w' : ℚ) :
    signed (s * s') (w * w') = signed s w * signed s' w' := by
  cases s with
  | negative =>
    cases s' with
    | negative => exact (neg_mul_neg w w').symm
    | positive => exact (neg_mul w w').symm
  | positive =>
    cases s' with
    | negative => exact (mul_neg w w').symm
    | positive => rfl

/-- A double is rounded to itself. -/
theorem stands_worth (finite : x.isFinite = true) (canonical : Canonical x) :
    Stands (worth x) (standing x) := by
  cases x with
  | notANumber => cases finite
  | infinity s => cases finite
  | zero s =>
    refine ⟨.positive, 0, -1074, 0, le_rfl, rfl, ⟨le_rfl, by positivity, .inl rfl⟩, ?_, rfl⟩
    rw [zero_div]
    exact_mod_cast nearest_natCast 0
  | finite s m e pos =>
    rcases canonical with ⟨small, least, most, full⟩
    have power : (0 : ℚ) < 2 ^ e := zpow_pos (by norm_num) e
    have below : (m : ℚ) < ((2 ^ 53 : ℕ) : ℚ) := by exact_mod_cast small
    push_cast at below
    refine ⟨s, m * 2 ^ e, e, m, by positivity, rfl, ⟨least, ?_, ?_⟩, ?_, ?_⟩
    · rw [add_comm, zpow_add₀ (by norm_num)]
      gcongr
      exact_mod_cast below
    · refine full.symm.imp id fun normal => ?_
      have above : ((2 ^ 52 : ℕ) : ℚ) ≤ m := by exact_mod_cast normal
      push_cast at above
      rw [add_comm, zpow_add₀ (by norm_num)]
      gcongr
      exact_mod_cast above
    · rw [mul_div_cancel_right₀ _ power.ne']
      exact nearest_natCast m
    · rw [standing_finite, standAt, rank_small e pos small, if_pos most]

theorem repack_worth (finite : x.isFinite = true) (canonical : Canonical x) :
    standing (repack x) = standing x := by
  cases x with
  | notANumber => cases finite
  | infinity s => cases finite
  | zero s => cases s <;> rfl
  | finite s m e pos =>
    rcases canonical with ⟨small, least, most, full⟩
    rw [repack_finite s pos small least full, if_pos most]

theorem stands_zero (s : Sign) : Stands 0 (standing (repack (.zero s))) :=
  repack_worth (x := .zero s) rfl trivial ▸ stands_worth (x := .zero s) rfl trivial

/-- Doubles that stand at one place are one number. -/
theorem worth_of_standing (finite : x.isFinite = true) (finite' : y.isFinite = true)
    (same : standing x = standing y) : worth x = worth y := by
  cases x with
  | notANumber => cases finite
  | infinity s => cases finite
  | zero s =>
    cases y with
    | notANumber => cases finite'
    | infinity s' => cases finite'
    | zero s' => rfl
    | finite s' m' e' pos' =>
      have kind : (0 : ℤ) = (ofLex (standing (.finite s' m' e' pos'))).1 :=
        congrArg (fun p : Standing => (ofLex p).1) same
      cases s' <;> cases kind
  | finite s m e pos =>
    cases y with
    | notANumber => cases finite'
    | infinity s' => cases finite'
    | zero s' =>
      have kind : (ofLex (standing (.finite s m e pos))).1 = (0 : ℤ) :=
        congrArg (fun p : Standing => (ofLex p).1) same
      cases s <;> cases kind
    | finite s' m' e' pos' =>
      -- sign, exponent and integer can be read off the place
      rw [standing_finite, standing_finite, stand_eq] at same
      rcases same with ⟨kind, exponent, mantissa⟩
      cases s <;> cases s' <;> simp only [Sign.apply] at kind exponent mantissa
      · obtain rfl : e = e' := by omega
        obtain rfl : m = m' := by omega
        rfl
      · omega
      · omega
      · obtain rfl : e = e' := by omega
        obtain rfl : m = m' := by omega
        rfl

theorem worth_le (finite : x.isFinite = true) (finite' : y.isFinite = true)
    (canonical : Canonical x) (canonical' : Canonical y) (le : standing x ≤ standing y) :
    worth x ≤ worth y := by
  by_contra more
  have back := (stands_worth finite' canonical').mono (stands_worth finite canonical)
    (not_le.mp more).le
  exact more (worth_of_standing finite finite' (le_antisymm le back)).le

end Worth

/-! ## Sums, products and quotients -/

/-- The exponent that a number is rounded at does not depend on how many of its binary digits are
zeros at the end. -/
theorem totalExponent_shiftLeft {m : ℕ} (pos : 0 < m) (e : ℤ) (k : ℕ) :
    totalExponent (m <<< k) (e - k) = totalExponent m e := by
  have digits : (m <<< k).log2 = m.log2 + k := by
    have low := Nat.log2_self_le pos.ne'
    have high := Nat.lt_log2_self (n := m)
    have power : 0 < 2 ^ k := by positivity
    rw [Nat.shiftLeft_eq, Nat.log2_eq_iff (by positivity), pow_add, add_right_comm, pow_add]
    exact ⟨Nat.mul_le_mul_right _ low, Nat.mul_lt_mul_of_pos_right high power⟩
  rw [totalExponent, totalExponent, digits]
  push_cast
  omega

theorem shiftLeft_worth (m : ℕ) (e : ℤ) (k : ℕ) :
    ((m <<< k : ℕ) : ℚ) * 2 ^ (e - k) = m * 2 ^ e := by
  rw [Nat.shiftLeft_eq, zpow_sub₀ (by norm_num), zpow_natCast]
  push_cast
  field_simp

theorem stands_round (s : Sign) {m : ℕ} (pos : 0 < m) (e : ℤ) :
    Stands (signed s (m * 2 ^ e))
      (standing (repack (UnpackedFloat.round Format.binary64 s m e))) := by
  unfold UnpackedFloat.round decreaseExponent
  simp only
  generalize target : Format.binary64.targetExponent (totalExponent m e) = t
  rw [← shiftLeft_worth m e (e - t).toNat]
  refine stands_roundWith s (show Tells _ .exact _ from rfl) ?_
  rw [totalExponent_shiftLeft pos, target]
  omega

theorem stands_normalize (k e : ℤ) (s : Sign) :
    Stands (k * 2 ^ e) (standing (repack (UnpackedFloat.normalize Format.binary64 k e s))) := by
  unfold UnpackedFloat.normalize
  rcases lt_trichotomy k 0 with negative | rfl | positive
  · rw [Int.compare_eq_lt.mpr negative]
    have size : (((-k).toNat : ℕ) : ℚ) = -k := by
      have whole : (((-k).toNat : ℕ) : ℤ) = -k := by omega
      exact_mod_cast congrArg (Int.cast (R := ℚ)) whole
    have stands := stands_round .negative (show 0 < (-k).toNat by omega) e
    rw [size, signed, neg_mul, neg_neg] at stands
    exact stands
  · rw [Int.cast_zero, zero_mul]
    exact stands_zero s
  · rw [Int.compare_eq_gt.mpr positive]
    have size : ((k.toNat : ℕ) : ℚ) = k := by
      have whole : ((k.toNat : ℕ) : ℤ) = k := by omega
      exact_mod_cast congrArg (Int.cast (R := ℚ)) whole
    have stands := stands_round .positive (show 0 < k.toNat by omega) e
    rw [size] at stands
    exact stands

/-- An integer moved to a smaller exponent is the same number. -/
theorem aligned_worth (s : Sign) (m : ℕ) {e least : ℤ} (below : least ≤ e) :
    (s.apply (m <<< (e - least).toNat : ℕ) : ℚ) * 2 ^ least = signed s (m * 2 ^ e) := by
  have shifted := shiftLeft_worth m e (e - least).toNat
  rw [show e - ((e - least).toNat : ℤ) = least by omega] at shifted
  cases s with
  | positive => exact shifted
  | negative =>
    simp only [Sign.apply, signed]
    rw [Int.cast_neg, Int.cast_natCast, neg_mul, shifted]

section Operations

variable {x y : UnpackedFloat}

/-- A sum is rounded from the sum of the two numbers. -/
theorem stands_add (finite : x.isFinite = true) (finite' : y.isFinite = true)
    (canonical : Canonical x) (canonical' : Canonical y) :
    Stands (worth x + worth y)
      (standing (repack (UnpackedFloat.add Format.binary64 x y))) := by
  cases x with
  | notANumber => cases finite
  | infinity s => cases finite
  | zero s =>
    cases y with
    | notANumber => cases finite'
    | infinity s' => cases finite'
    | zero s' =>
      obtain ⟨sign, sum⟩ : ∃ sign, UnpackedFloat.add Format.binary64 (.zero s) (.zero s') =
          .zero sign := by cases s <;> cases s' <;> exact ⟨_, rfl⟩
      rw [sum, show worth (.zero s) + worth (.zero s') = 0 from add_zero 0]
      exact stands_zero sign
    | finite s' m' e' pos' =>
      rw [show worth (.zero s) = 0 from rfl, zero_add]
      exact repack_worth finite' canonical' ▸ stands_worth finite' canonical'
  | finite s m e pos =>
    cases y with
    | notANumber => cases finite'
    | infinity s' => cases finite'
    | zero s' =>
      rw [show worth (.zero s') = 0 from rfl, add_zero]
      exact repack_worth finite canonical ▸ stands_worth finite canonical
    | finite s' m' e' pos' =>
      have stands := stands_normalize (s.apply (m <<< (e - min e e').toNat : ℕ) +
        s'.apply (m' <<< (e' - min e e').toNat : ℕ)) (min e e') .positive
      rw [Int.cast_add, add_mul, aligned_worth s m (min_le_left e e'),
        aligned_worth s' m' (min_le_right e e')] at stands
      exact stands

theorem signed_neg (s : Sign) (w : ℚ) : signed (-s) w = -signed s w := by
  cases s
  · exact (neg_neg w).symm
  · rfl

theorem sign_apply_neg (s : Sign) (k : ℤ) : (-s).apply k = -s.apply k := by
  cases s
  · exact (neg_neg k).symm
  · rfl

theorem isFinite_neg : x.neg.isFinite = x.isFinite := by
  cases x <;> rfl

theorem canonical_neg (canonical : Canonical x) : Canonical x.neg := by
  cases x with
  | finite s m e pos => exact canonical
  | _ => trivial

theorem worth_neg : worth x.neg = -worth x := by
  cases x with
  | finite s m e pos => exact signed_neg s _
  | _ => exact neg_zero.symm

/-- A difference is the sum with the opposite. -/
theorem sub_eq_add_opposite (f : Format) :
    UnpackedFloat.sub f x y = UnpackedFloat.add f x y.neg := by
  cases x with
  | notANumber => cases y <;> rfl
  | infinity s => cases y <;> rfl
  | zero s => cases y <;> rfl
  | finite s m e pos =>
    cases y with
    | finite s' m' e' pos' =>
      -- both normalize an integer, and these are equal
      refine congrArg (fun k => UnpackedFloat.normalize f k (min e e') .positive) ?_
      rw [sign_apply_neg, ← Int.sub_eq_add_neg]
    | _ => rfl

theorem stands_sub (finite : x.isFinite = true) (finite' : y.isFinite = true)
    (canonical : Canonical x) (canonical' : Canonical y) :
    Stands (worth x - worth y)
      (standing (repack (UnpackedFloat.sub Format.binary64 x y))) := by
  have stands := stands_add finite (isFinite_neg.trans finite') canonical (canonical_neg canonical')
  rwa [worth_neg, ← sub_eq_add_neg, ← sub_eq_add_opposite] at stands

/-- A product is rounded from the product of the two numbers. -/
theorem stands_mul (finite : x.isFinite = true) (finite' : y.isFinite = true)
    (canonical : Canonical x) (canonical' : Canonical y) :
    Stands (worth x * worth y)
      (standing (repack (UnpackedFloat.mul Format.binary64 x y))) := by
  cases x with
  | notANumber => cases finite
  | infinity s => cases finite
  | zero s =>
    rw [show worth (.zero s) = 0 from rfl, zero_mul]
    cases y with
    | notANumber => cases finite'
    | infinity s' => cases finite'
    | zero s' => exact stands_zero (s * s')
    | finite s' m' e' pos' => exact stands_zero (s * s')
  | finite s m e pos =>
    cases y with
    | notANumber => cases finite'
    | infinity s' => cases finite'
    | zero s' =>
      rw [show worth (.zero s') = 0 from rfl, mul_zero]
      exact stands_zero (s * s')
    | finite s' m' e' pos' =>
      rcases canonical with ⟨-, least, most, full⟩
      rcases canonical' with ⟨-, least', most', full'⟩
      have product : worth (.finite s m e pos) * worth (.finite s' m' e' pos') =
          signed (s * s') ((m * m' : ℕ) * 2 ^ (e + e')) := by
        rw [worth_finite, worth_finite, ← signed_mul, zpow_add₀ (by norm_num), mul_mul_mul_comm,
          Nat.cast_mul]
      rw [product]
      refine stands_roundWith (s * s') (show Tells _ .exact _ from rfl) ?_
      -- a product of 53 binary digits or more has no room for a larger exponent
      have digits : 52 ≤ (m * m').log2 ∨ e + e' ≤ -1074 := by
        have wide : 2 ^ 52 ≤ m * m' ∨ e + e' ≤ -1074 := by
          rcases full with normal | lowest
          · exact .inl (normal.trans (Nat.le_mul_of_pos_right m pos'))
          · rcases full' with normal' | lowest'
            · exact .inl (normal'.trans (Nat.le_mul_of_pos_left m' pos))
            · exact .inr (by omega)
        exact wide.imp_left (Nat.le_log2 (Nat.mul_pos pos pos').ne').mpr
      rw [targetExponent_eq, totalExponent]
      omega

/-- What is left of a division tells where the ratio lies. -/
theorem tells_div (m : ℕ) {d : ℕ} (pos : 0 < d) :
    Tells (m / d) (accuracyOfFraction (m % d) d) ((m : ℚ) / d) := by
  have positive : (0 : ℚ) < d := by exact_mod_cast pos
  have parts : (m : ℚ) = d * (m / d : ℕ) + (m % d : ℕ) := by
    exact_mod_cast (Nat.div_add_mod m d).symm
  have rest : ((m % d : ℕ) : ℚ) < d := by exact_mod_cast Nat.mod_lt m pos
  have ratio : (m : ℚ) / d = (m / d : ℕ) + (m % d : ℕ) / d := by
    rw [parts, add_div, mul_div_cancel_left₀ _ positive.ne']
  rw [ratio]
  generalize m / d = k
  generalize m % d = r at rest
  unfold accuracyOfFraction
  split_ifs with none
  · simp [Tells, none]
  · have some : (0 : ℚ) < r := by exact_mod_cast Nat.pos_of_ne_zero none
    rcases lt_trichotomy (2 * r) d with less | half | more
    · rw [Nat.compare_eq_lt.mpr less]
      have less : (2 : ℚ) * r < d := by exact_mod_cast less
      have below : (r : ℚ) / d < 1 / 2 := by
        rw [div_lt_iff₀ positive]
        linarith
      have above : 0 < (r : ℚ) / d := by positivity
      constructor <;> linarith
    · rw [Nat.compare_eq_eq.mpr half]
      have half : (2 : ℚ) * r = d := by exact_mod_cast half
      have same : (r : ℚ) / d = 1 / 2 := by
        rw [div_eq_iff positive.ne']
        linarith
      simp only [Tells, same]
    · rw [Nat.compare_eq_gt.mpr more]
      have more : (d : ℚ) < 2 * r := by exact_mod_cast more
      have above : 1 / 2 < (r : ℚ) / d := by
        rw [lt_div_iff₀ positive]
        linarith
      have below : (r : ℚ) / d < 1 := (div_lt_one positive).mpr rest
      constructor <;> linarith

/-- A quotient has as many binary digits as its two parts leave, or one less. -/
theorem log2_div_ge {m d : ℕ} (posM : 0 < m) (pos : 0 < d) :
    m.log2 ≤ (m / d).log2 + d.log2 + 1 := by
  by_contra less
  have high := Nat.lt_log2_self (n := d)
  have low := Nat.log2_self_le posM.ne'
  have ratio : 2 ^ (m.log2 - d.log2 - 1) ≤ m / d := by
    rw [Nat.le_div_iff_mul_le pos]
    calc 2 ^ (m.log2 - d.log2 - 1) * d
        ≤ 2 ^ (m.log2 - d.log2 - 1) * 2 ^ (d.log2 + 1) := Nat.mul_le_mul_left _ high.le
      _ = 2 ^ m.log2 := by rw [← pow_add]; congr 1; omega
      _ ≤ m := low
  have digits := (Nat.le_log2 (Nat.lt_of_lt_of_le (by positivity) ratio).ne').mpr ratio
  omega

theorem signed_div (s s' : Sign) (w w' : ℚ) :
    signed (s / s') (w / w') = signed s w / signed s' w' := by
  cases s with
  | negative =>
    cases s' with
    | negative => exact (neg_div_neg_eq w w').symm
    | positive => exact (neg_div w' w).symm
  | positive =>
    cases s' with
    | negative => exact (div_neg w).symm
    | positive => rfl

/-- A quotient is rounded from the quotient of the two numbers. -/
theorem stands_div {s' : Sign} {m' : ℕ} {e' : ℤ} {pos' : 0 < m'} (finite : x.isFinite = true) :
    Stands (worth x / worth (.finite s' m' e' pos'))
      (standing (repack (UnpackedFloat.div Format.binary64 x (.finite s' m' e' pos')))) := by
  cases x with
  | notANumber => cases finite
  | infinity s => cases finite
  | zero s =>
    rw [show worth (.zero s) = 0 from rfl, zero_div]
    exact stands_zero (s / s')
  | finite s m e pos =>
    rw [worth_finite, worth_finite, ← signed_div]
    show Stands _ (standing (repack (roundWithAccuracy Format.binary64 (s / s') _ _ _)))
    -- the dividend is shifted until the quotient has all the digits that are kept
    generalize target :
      Format.binary64.targetExponent (totalExponent m e - totalExponent m' e') = t
    generalize shift : (e - e' - min (e - e') t).toNat = k
    have exponent : min (e - e') t = e - e' - k := by omega
    have power : (0 : ℚ) < 2 ^ e' := zpow_pos (by norm_num) e'
    have ratio : (m : ℚ) * 2 ^ e / (m' * 2 ^ e') =
        ((m <<< k : ℕ) : ℚ) / m' * 2 ^ (e - e' - k) := by
      have moved := shiftLeft_worth m (e - e') k
      rw [div_mul_eq_mul_div, moved, zpow_sub₀ (by norm_num)]
      field_simp
    rw [exponent, ratio]
    refine stands_roundWith (s / s') (tells_div (m <<< k) pos') ?_
    have wide : 0 < m <<< k := by
      rw [Nat.shiftLeft_eq]
      positivity
    have digits := log2_div_ge wide pos'
    have total := totalExponent_shiftLeft pos (e - e') k
    rw [targetExponent_eq] at target ⊢
    unfold totalExponent at target total ⊢
    omega

end Operations

/-! ## Order of results -/

section Extremes

variable {x : UnpackedFloat}

theorem standing_le_top (number : x.isNaN = false) :
    standing x ≤ standing (.infinity .positive) := by
  cases x with
  | notANumber => cases number
  | infinity s => cases s <;> exact stand_le.mpr (by omega)
  | zero s => exact stand_le.mpr (by omega)
  | finite s m e pos => cases s <;> exact stand_le.mpr (by omega)

theorem standing_bottom_le (number : x.isNaN = false) :
    standing (.infinity .negative) ≤ standing x := by
  cases x with
  | notANumber => cases number
  | infinity s => cases s <;> exact stand_le.mpr (by omega)
  | zero s => exact stand_le.mpr (by omega)
  | finite s m e pos => cases s <;> exact stand_le.mpr (by omega)

theorem eq_infinity_of_ge (number : x.isNaN = false)
    (le : standing (.infinity .positive) ≤ standing x) : x = .infinity .positive := by
  cases x with
  | notANumber => cases number
  | infinity s =>
    cases s with
    | positive => rfl
    | negative => exact absurd (stand_le.mp le) (by omega)
  | zero s => exact absurd (stand_le.mp le) (by omega)
  | finite s m e pos => cases s <;> exact absurd (stand_le.mp le) (by omega)

theorem eq_infinity_of_le (number : x.isNaN = false)
    (le : standing x ≤ standing (.infinity .negative)) : x = .infinity .negative := by
  cases x with
  | notANumber => cases number
  | infinity s =>
    cases s with
    | negative => rfl
    | positive => exact absurd (stand_le.mp le) (by omega)
  | zero s => exact absurd (stand_le.mp le) (by omega)
  | finite s m e pos => cases s <;> exact absurd (stand_le.mp le) (by omega)

/-- Between two doubles that are not the infinities of their side there are finite ones only. -/
theorem isFinite_of_between {y : UnpackedFloat} (hx : x.isNaN = false) (hy : y.isNaN = false)
    (le : standing x ≤ standing y) (low : x ≠ .infinity .negative)
    (high : y ≠ .infinity .positive) : x.isFinite = true ∧ y.isFinite = true := by
  have highX : x ≠ .infinity .positive := fun h => high (eq_infinity_of_ge hy (h ▸ le))
  have lowY : y ≠ .infinity .negative := fun h => low (eq_infinity_of_le hx (h ▸ le))
  constructor
  · cases x with
    | notANumber => cases hx
    | infinity s => cases s <;> contradiction
    | _ => rfl
  · cases y with
    | notANumber => cases hy
    | infinity s => cases s <;> contradiction
    | _ => rfl

end Extremes

section Results

variable {x x' y y' : UnpackedFloat}

theorem repack_infinity (s : Sign) : repack (.infinity s) = .infinity s := by
  cases s <;> rfl

theorem repack_notANumber : repack .notANumber = .notANumber := rfl

theorem notANumber_add (f : Format) (x : UnpackedFloat) :
    UnpackedFloat.add f .notANumber x = .notANumber := rfl

theorem add_notANumber (f : Format) (x : UnpackedFloat) :
    UnpackedFloat.add f x .notANumber = .notANumber := by
  cases x <;> rfl

theorem isNaN_of_add (number : (repack (UnpackedFloat.add Format.binary64 x y)).isNaN = false) :
    x.isNaN = false ∧ y.isNaN = false := by
  cases x with
  | notANumber =>
    rw [notANumber_add, repack_notANumber] at number
    cases number
  | _ =>
    cases y with
    | notANumber =>
      rw [add_notANumber, repack_notANumber] at number
      cases number
    | _ => exact ⟨rfl, rfl⟩

/-- A sum with an infinity is that infinity, if it is a number at all. -/
theorem repack_add_infinity {s : Sign} (infinite : x = .infinity s ∨ y = .infinity s)
    (number : (repack (UnpackedFloat.add Format.binary64 x y)).isNaN = false) :
    repack (UnpackedFloat.add Format.binary64 x y) = .infinity s := by
  have opposite : (repack .notANumber).isNaN ≠ false := by
    rw [repack_notANumber]
    decide
  rcases isNaN_of_add number with ⟨hx, hy⟩
  rcases infinite with rfl | rfl
  · cases y with
    | notANumber => cases hy
    | infinity s' => cases s <;> cases s' <;> first | rfl | exact absurd number opposite
    | _ => exact repack_infinity s
  · cases x with
    | notANumber => cases hx
    | infinity s' => cases s <;> cases s' <;> first | rfl | exact absurd number opposite
    | _ => exact repack_infinity s

/-- Sums keep the order of what is added, as long as they are numbers. -/
theorem standing_add_mono (canonical : Canonical x ∧ Canonical x' ∧ Canonical y ∧ Canonical y')
    (number : (repack (UnpackedFloat.add Format.binary64 x y)).isNaN = false)
    (number' : (repack (UnpackedFloat.add Format.binary64 x' y')).isNaN = false)
    (le : standing x ≤ standing x') (le' : standing y ≤ standing y') :
    standing (repack (UnpackedFloat.add Format.binary64 x y)) ≤
      standing (repack (UnpackedFloat.add Format.binary64 x' y')) := by
  rcases canonical with ⟨cx, cx', cy, cy'⟩
  rcases isNaN_of_add number with ⟨hx, hy⟩
  rcases isNaN_of_add number' with ⟨hx', hy'⟩
  by_cases high : x' = .infinity .positive ∨ y' = .infinity .positive
  · rw [repack_add_infinity high number']
    exact standing_le_top number
  by_cases low : x = .infinity .negative ∨ y = .infinity .negative
  · rw [repack_add_infinity low number]
    exact standing_bottom_le number'
  rw [not_or] at high low
  rcases isFinite_of_between hx hx' le low.1 high.1 with ⟨fx, fx'⟩
  rcases isFinite_of_between hy hy' le' low.2 high.2 with ⟨fy, fy'⟩
  exact (stands_add fx fy cx cy).mono (stands_add fx' fy' cx' cy')
    (add_le_add (worth_le fx fx' cx cx' le) (worth_le fy fy' cy cy' le'))

/-- A value that is no number is not compared with any. -/
theorem compare_of_isNaN (none : x.isNaN = true ∨ y.isNaN = true) :
    x.compare y = Option.none := by
  cases x with
  | notANumber => cases y <;> rfl
  | infinity s =>
    cases y with
    | notANumber => cases s <;> rfl
    | _ => rcases none with none | none <;> cases none
  | zero s =>
    cases y with
    | notANumber => rfl
    | _ => rcases none with none | none <;> cases none
  | finite s m e pos =>
    cases y with
    | notANumber => cases s <;> rfl
    | _ => rcases none with none | none <;> cases none

section Quotients

variable {m : ℕ} {e : ℤ} {pos : 0 < m}

theorem repack_infinity_div (s : Sign) : repack (UnpackedFloat.div Format.binary64 (.infinity s)
    (.finite .positive m e pos)) = .infinity s := by
  have same : s / .positive = s := by cases s <;> rfl
  show repack (.infinity (s / .positive)) = .infinity s
  rw [same, repack_infinity]

theorem isNaN_div (number : x.isNaN = false) : (repack (UnpackedFloat.div Format.binary64 x
    (.finite .positive m e pos))).isNaN = false := by
  cases x with
  | notANumber => cases number
  | infinity s =>
    rw [repack_infinity_div]
    rfl
  | _ => exact (stands_div rfl).isNaN

/-- Quotients by a positive number keep the order of what is divided. -/
theorem standing_div_mono (canonical : Canonical x ∧ Canonical x') (number : x.isNaN = false)
    (number' : x'.isNaN = false) (le : standing x ≤ standing x') :
    standing (repack (UnpackedFloat.div Format.binary64 x (.finite .positive m e pos))) ≤
      standing (repack (UnpackedFloat.div Format.binary64 x' (.finite .positive m e pos))) := by
  by_cases high : x' = .infinity .positive
  · rw [high, repack_infinity_div]
    exact standing_le_top (isNaN_div number)
  by_cases low : x = .infinity .negative
  · rw [low, repack_infinity_div]
    exact standing_bottom_le (isNaN_div number')
  rcases isFinite_of_between number number' le low high with ⟨fx, fx'⟩
  have positive : 0 ≤ worth (.finite .positive m e pos) :=
    mul_nonneg (Nat.cast_nonneg m) (zpow_nonneg (by norm_num) e)
  exact (stands_div fx).mono (stands_div fx') (div_le_div_of_nonneg_right
    (worth_le fx fx' canonical.1 canonical.2 le) positive)

end Quotients

section Steps

variable {t t' : UnpackedFloat}

/-- Nothing is lost where zero is added. -/
theorem standing_add_zero (canonical : Canonical x) (number : x.isNaN = false) :
    (repack (UnpackedFloat.add Format.binary64 x (.zero .positive))).isNaN = false ∧
      standing (repack (UnpackedFloat.add Format.binary64 x (.zero .positive))) = standing x := by
  cases x with
  | notANumber => cases number
  | infinity s => cases s <;> exact ⟨rfl, rfl⟩
  | zero s => cases s <;> exact ⟨rfl, rfl⟩
  | finite s m e pos =>
    exact ⟨(stands_add (y := .zero .positive) rfl rfl canonical trivial).isNaN,
      repack_worth rfl canonical⟩

/-- What is not negative carries a double no lower. -/
theorem standing_le_add (canonical : Canonical x ∧ Canonical y)
    (number : (repack (UnpackedFloat.add Format.binary64 x y)).isNaN = false)
    (nonneg : stand 0 0 0 ≤ standing y) :
    standing x ≤ standing (repack (UnpackedFloat.add Format.binary64 x y)) := by
  rcases standing_add_zero canonical.1 (isNaN_of_add number).1 with ⟨number', same⟩
  rw [← same]
  exact standing_add_mono ⟨canonical.1, canonical.1, trivial, canonical.2⟩ number' number le_rfl
    nonneg

/-- What is not positive carries a double no higher. -/
theorem standing_add_le (canonical : Canonical x ∧ Canonical y)
    (number : (repack (UnpackedFloat.add Format.binary64 x y)).isNaN = false)
    (nonpos : standing y ≤ stand 0 0 0) :
    standing (repack (UnpackedFloat.add Format.binary64 x y)) ≤ standing x := by
  rcases standing_add_zero canonical.1 (isNaN_of_add number).1 with ⟨number', same⟩
  rw [← same]
  exact standing_add_mono ⟨canonical.1, canonical.1, canonical.2, trivial⟩ number number' le_rfl
    nonpos

/-- A difference is not negative where the lower double is taken from the higher one. -/
theorem standing_sub_nonneg (canonical : Canonical x ∧ Canonical y)
    (number : (repack (UnpackedFloat.sub Format.binary64 y x)).isNaN = false)
    (hx : x.isNaN = false) (hy : y.isNaN = false) (le : standing x ≤ standing y) :
    stand 0 0 0 ≤ standing (repack (UnpackedFloat.sub Format.binary64 y x)) := by
  by_cases high : y = .infinity .positive ∨ x.neg = .infinity .positive
  · rw [sub_eq_add_opposite] at number ⊢
    rw [repack_add_infinity high number]
    exact standing_le_top (x := .zero .positive) rfl
  rw [not_or] at high
  have low : x ≠ .infinity .negative := fun h => high.2 (h ▸ rfl)
  rcases isFinite_of_between hx hy le low high.1 with ⟨fx, fy⟩
  refine (stands_worth (x := .zero .positive) rfl trivial).mono
    (stands_sub fy fx canonical.2 canonical.1) ?_
  have order := worth_le fx fy canonical.1 canonical.2 le
  rw [show worth (.zero .positive) = 0 from rfl]
  linarith

/-- A difference is not positive where the higher double is taken from the lower one. -/
theorem standing_sub_nonpos (canonical : Canonical x ∧ Canonical y)
    (number : (repack (UnpackedFloat.sub Format.binary64 y x)).isNaN = false)
    (hx : x.isNaN = false) (hy : y.isNaN = false) (le : standing y ≤ standing x) :
    standing (repack (UnpackedFloat.sub Format.binary64 y x)) ≤ stand 0 0 0 := by
  by_cases low : y = .infinity .negative ∨ x.neg = .infinity .negative
  · rw [sub_eq_add_opposite] at number ⊢
    rw [repack_add_infinity low number]
    exact standing_bottom_le (x := .zero .positive) rfl
  rw [not_or] at low
  have high : x ≠ .infinity .positive := fun h => low.2 (h ▸ rfl)
  rcases isFinite_of_between hy hx le low.1 high with ⟨fy, fx⟩
  refine (stands_sub fy fx canonical.2 canonical.1).mono
    (stands_worth (x := .zero .positive) rfl trivial) ?_
  have order := worth_le fy fx canonical.2 canonical.1 le
  rw [show worth (.zero .positive) = 0 from rfl]
  linarith

theorem mul_notANumber (f : Format) (x : UnpackedFloat) :
    UnpackedFloat.mul f x .notANumber = .notANumber := by
  cases x <;> rfl

theorem isNaN_of_mul (number : (repack (UnpackedFloat.mul Format.binary64 x y)).isNaN = false) :
    y.isNaN = false := by
  cases y with
  | notANumber =>
    rw [mul_notANumber, repack_notANumber] at number
    cases number
  | _ => rfl

/-- A share of an infinity is that infinity, if it is a number at all. -/
theorem repack_mul_infinity {s : Sign} (finite : t.isFinite = true)
    (nonneg : stand 0 0 0 ≤ standing t)
    (number : (repack (UnpackedFloat.mul Format.binary64 t (.infinity s))).isNaN = false) :
    repack (UnpackedFloat.mul Format.binary64 t (.infinity s)) = .infinity s := by
  cases t with
  | notANumber => cases finite
  | infinity s' => cases finite
  | zero s' =>
    have none : repack (UnpackedFloat.mul Format.binary64 (.zero s') (.infinity s)) =
      .notANumber := repack_notANumber
    rw [none] at number
    cases number
  | finite s' m e pos =>
    cases s' with
    | negative => exact absurd (stand_le.mp nonneg) (by omega)
    | positive =>
      have same : .positive * s = s := by cases s <;> rfl
      show repack (.infinity (.positive * s)) = .infinity s
      rw [same, repack_infinity]

/-- A larger share of a step reaches no less far, upwards or downwards. -/
theorem standing_mul_mono (canonical : Canonical t ∧ Canonical t' ∧ Canonical y)
    (finite : t.isFinite = true ∧ t'.isFinite = true)
    (nonneg : stand 0 0 0 ≤ standing t) (le : standing t ≤ standing t')
    (number : (repack (UnpackedFloat.mul Format.binary64 t y)).isNaN = false)
    (number' : (repack (UnpackedFloat.mul Format.binary64 t' y)).isNaN = false) :
    (stand 0 0 0 ≤ standing y →
      standing (repack (UnpackedFloat.mul Format.binary64 t y)) ≤
        standing (repack (UnpackedFloat.mul Format.binary64 t' y))) ∧
    (standing y ≤ stand 0 0 0 →
      standing (repack (UnpackedFloat.mul Format.binary64 t' y)) ≤
        standing (repack (UnpackedFloat.mul Format.binary64 t y))) := by
  rcases canonical with ⟨ct, ct', cy⟩
  have number'' := isNaN_of_mul number
  by_cases fy : y.isFinite = true
  · have order := worth_le finite.1 finite.2 ct ct' le
    have stands := stands_mul finite.1 fy ct cy
    have stands' := stands_mul finite.2 fy ct' cy
    constructor
    · intro up
      have size : 0 ≤ worth y := worth_le (x := .zero .positive) rfl fy trivial cy up
      exact stands.mono stands' (mul_le_mul_of_nonneg_right order size)
    · intro down
      have size : worth y ≤ 0 := worth_le (y := .zero .positive) fy rfl cy trivial down
      exact stands'.mono stands (mul_le_mul_of_nonpos_right order size)
  · -- all shares of an infinity are the same
    cases y with
    | infinity s =>
      rw [repack_mul_infinity finite.1 nonneg number,
        repack_mul_infinity finite.2 (nonneg.trans le) number']
      exact ⟨fun _ => le_rfl, fun _ => le_rfl⟩
    | notANumber => cases number''
    | _ => exact absurd rfl fy

/-- A share of a step does not turn round. -/
theorem standing_mul_sign (canonical : Canonical t ∧ Canonical y) (finite : t.isFinite = true)
    (nonneg : stand 0 0 0 ≤ standing t)
    (number : (repack (UnpackedFloat.mul Format.binary64 t y)).isNaN = false) :
    (stand 0 0 0 ≤ standing y →
      stand 0 0 0 ≤ standing (repack (UnpackedFloat.mul Format.binary64 t y))) ∧
    (standing y ≤ stand 0 0 0 →
      standing (repack (UnpackedFloat.mul Format.binary64 t y)) ≤ stand 0 0 0) := by
  have number' := isNaN_of_mul number
  have zero := stands_worth (x := .zero .positive) rfl trivial
  by_cases fy : y.isFinite = true
  · have share : 0 ≤ worth t :=
      worth_le (x := .zero .positive) rfl finite trivial canonical.1 nonneg
    have stands := stands_mul finite fy canonical.1 canonical.2
    constructor
    · intro up
      have size : 0 ≤ worth y := worth_le (x := .zero .positive) rfl fy trivial canonical.2 up
      exact zero.mono stands (mul_nonneg share size)
    · intro down
      have size : worth y ≤ 0 := worth_le (y := .zero .positive) fy rfl canonical.2 trivial down
      exact stands.mono zero (mul_nonpos_of_nonneg_of_nonpos share size)
  · cases y with
    | infinity s =>
      rw [repack_mul_infinity finite nonneg number]
      exact ⟨id, id⟩
    | notANumber => cases number'
    | _ => exact absurd rfl fy

end Steps

end Results

/-! ## Packed doubles -/

section Packed

variable {x x' y y' : Float}

theorem canonical_float (x : Float) : Canonical x.toModel.unpack := canonical_unpack _

theorem place_add (x y : Float) : place (x + y) =
    standing (repack (UnpackedFloat.add Format.binary64 x.toModel.unpack y.toModel.unpack)) := rfl

theorem not_lt_of_isNaN (none : x.isNaN = true ∨ y.isNaN = true) : ¬ x < y := by
  intro less
  have holds : x.toModel.unpack.lt y.toModel.unpack = true := decide_eq_true_iff.mp less
  rw [UnpackedFloat.lt, compare_of_isNaN none] at holds
  cases holds

theorem isNaN_of_le (le : x ≤ y) : x.isNaN = false ∧ y.isNaN = false := by
  rw [← Bool.not_eq_true, ← Bool.not_eq_true, ← not_or]
  intro none
  have holds : x.toModel.unpack.le y.toModel.unpack = true := decide_eq_true_iff.mp le
  rw [UnpackedFloat.le, compare_of_isNaN none] at holds
  cases holds

theorem not_lt_iff_place (hx : x.isNaN = false) (hy : y.isNaN = false) :
    ¬ y < x ↔ place x ≤ place y := by
  rw [lt_iff_place hy hx, not_lt]

/-- What a result needs in order not to be below another one. -/
theorem not_lt_of_place (le : x.isNaN = false → y.isNaN = false → place x ≤ place y) :
    ¬ y < x := by
  by_cases hx : x.isNaN = true
  · exact not_lt_of_isNaN (.inr hx)
  by_cases hy : y.isNaN = true
  · exact not_lt_of_isNaN (.inl hy)
  rw [Bool.not_eq_true] at hx hy
  exact (not_lt_iff_place hx hy).mpr (le hx hy)

/-- Sums keep the order of what is added. -/
theorem add_not_lt (hx : ¬ x' < x) (hy : ¬ y' < y) : ¬ x' + y' < x + y := by
  refine not_lt_of_place fun number number' => ?_
  rcases isNaN_of_add number with ⟨nx, ny⟩
  rcases isNaN_of_add number' with ⟨nx', ny'⟩
  have canonical := And.intro (canonical_float x) (And.intro (canonical_float x')
    (And.intro (canonical_float y) (canonical_float y')))
  exact standing_add_mono canonical number number' ((not_lt_iff_place nx nx').mp hx)
    ((not_lt_iff_place ny ny').mp hy)

theorem le_trans_of_le {z : Float} (le : x ≤ y) (le' : y ≤ z) : x ≤ z := by
  rcases isNaN_of_le le with ⟨hx, hy⟩
  have hz := (isNaN_of_le le').2
  rw [le_iff_place hx hy] at le
  rw [le_iff_place hy hz] at le'
  exact (le_iff_place hx hz).mpr (le.trans le')

theorem isNaN_of_lt (less : x < y) : x.isNaN = false ∧ y.isNaN = false := by
  rw [← Bool.not_eq_true, ← Bool.not_eq_true, ← not_or]
  exact fun none => not_lt_of_isNaN none less

theorem lt_of_lt_le {z : Float} (less : x < y) (le : y ≤ z) : x < z := by
  rcases isNaN_of_lt less with ⟨hx, hy⟩
  have hz := (isNaN_of_le le).2
  rw [lt_iff_place hx hy] at less
  rw [le_iff_place hy hz] at le
  exact (lt_iff_place hx hz).mpr (less.trans_le le)

theorem le_of_lt_float (less : x < y) : x ≤ y := by
  rcases isNaN_of_lt less with ⟨hx, hy⟩
  rw [lt_iff_place hx hy] at less
  exact (le_iff_place hx hy).mpr less.le

/-- Of two numbers one is below the other, or it is not. -/
theorem le_of_not_below (hx : x.isNaN = false) (hy : y.isNaN = false) (h : ¬ y < x) : x ≤ y :=
  (le_iff_place hx hy).mpr ((not_lt_iff_place hx hy).mp h)

theorem not_lt_self (x : Float) : ¬ x < x := not_lt_of_place fun _ _ => le_rfl

theorem isNaN_of_isFinite (finite : x.isFinite = true) : x.isNaN = false := by
  have here : x.toModel.unpack.isFinite = true := finite
  show x.toModel.unpack.isNaN = false
  cases unpacked : x.toModel.unpack with
  | notANumber =>
    rw [unpacked] at here
    cases here
  | _ => rfl

/-- The sums of neighbours ascend where every second double is no lower. -/
theorem add_le_add_next {a b c : Float} (ha : a.isFinite = true) (hb : b.isFinite = true)
    (hc : c.isFinite = true) (le : a ≤ c) : a + b ≤ b + c := by
  have first := stands_add ha hb (canonical_float a) (canonical_float b)
  have second := stands_add hb hc (canonical_float b) (canonical_float c)
  have order := worth_le ha hc (canonical_float a) (canonical_float c)
    ((le_iff_place (isNaN_of_isFinite ha) (isNaN_of_isFinite hc)).mp le)
  have number : (a + b).isNaN = false := first.isNaN
  have number' : (b + c).isNaN = false := second.isNaN
  have sums : worth a.toModel.unpack + worth b.toModel.unpack ≤
      worth b.toModel.unpack + worth c.toModel.unpack := by
    rw [add_comm]
    exact add_le_add_right order _
  rw [le_iff_place number number', place_add, place_add]
  exact first.mono second sums

/-- Halves keep the order of what is halved. -/
theorem half_le_half (le : x ≤ y) : x / 2 ≤ y / 2 := by
  rcases isNaN_of_le le with ⟨hx, hy⟩
  have order := (le_iff_place hx hy).mp le
  have number {x : Float} (hx : x.isNaN = false) : (x / 2).isNaN = false := isNaN_div hx
  rw [le_iff_place (number hx) (number hy)]
  exact standing_div_mono ⟨canonical_float x, canonical_float y⟩ hx hy order

end Packed

end Number
end StopAlign
