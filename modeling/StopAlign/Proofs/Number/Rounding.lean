import Mathlib.Algebra.Order.Field.Power
import Mathlib.Algebra.Order.Field.Rat
import Mathlib.Tactic.FieldSimp
import Mathlib.Tactic.GCongr
import Mathlib.Tactic.Linarith
import Mathlib.Tactic.NormNum
import Mathlib.Tactic.Positivity
import StopAlign.Proofs.Number.Order

/-!
# Rounding — where a number goes among the doubles

- `Nearest`            : the whole number next to a ratio, the even one of two
- `Tells`              : what a mantissa and its accuracy tell of the exact number
- `Scale`              : the exponent of a double of a given size
- `rank`, `rank_mono`  : integer and exponent of a rounded number, which keep the order
- `Stands`, `Stands.mono` : where the double stands that a number is rounded to
- `unpack_normal`, `unpack_signed` : a pattern by its fields, and by its sign
- `repack_finite`      : packing a double and unpacking it
- `stands_roundWith`   : rounding leads there from every result

A result is rounded twice, with the digits that its exponent leaves and once more for a carry. The
second time nothing is lost, so that a result stands where its exact number is rounded to, and
rounding keeps the order of numbers.
-/

namespace StopAlign
namespace Number

open Float.Model Float.Model.UnpackedFloat

/-! ## The nearest whole number -/

/-- A whole number at most one half away from a ratio, the even one where there are two. -/
structure Nearest (q : ℚ) (n : ℕ) : Prop where
  low : (n : ℚ) - 1 / 2 ≤ q
  high : q ≤ n + 1 / 2
  tie : q = n - 1 / 2 ∨ q = n + 1 / 2 → n % 2 = 0

theorem Nearest.mono {q q' : ℚ} {n n' : ℕ} (h : Nearest q n) (h' : Nearest q' n') (le : q ≤ q') :
    n ≤ n' := by
  by_contra more
  have next : (n' : ℚ) + 1 ≤ n := by exact_mod_cast not_le.mp more
  have low := h.low
  have high := h'.high
  -- both ratios are the one tie between two neighbours, of which only one is even
  have even := h.tie (.inl (by linarith))
  have even' := h'.tie (.inr (by linarith))
  have same : (n : ℚ) = n' + 1 := by linarith
  have neighbours : n = n' + 1 := by exact_mod_cast same
  omega

/-- Without a tie. -/
theorem nearest_of_between {q : ℚ} {n : ℕ} (low : (n : ℚ) - 1 / 2 < q) (high : q < n + 1 / 2) :
    Nearest q n where
  low := low.le
  high := high.le
  tie := by
    rintro (below | above) <;> linarith

theorem nearest_natCast (n : ℕ) : Nearest n n :=
  nearest_of_between (by linarith) (by linarith)

/-! ## Mantissas with what is known of the rest -/

/-- What an accuracy says of the exact number from a mantissa to the next one. -/
def Tells (m : ℕ) : Accuracy → ℚ → Prop
  | .exact, q => q = m
  | .inexact .lt, q => (m : ℚ) < q ∧ q < m + 1 / 2
  | .inexact .eq, q => q = m + 1 / 2
  | .inexact .gt, q => m + 1 / 2 < q ∧ q < (m : ℚ) + 1

theorem Tells.bounds {m : ℕ} {a : Accuracy} {q : ℚ} (h : Tells m a q) : m ≤ q ∧ q < m + 1 := by
  cases a with
  | exact =>
    have same : q = m := h
    constructor <;> linarith
  | inexact o =>
    cases o with
    | lt => exact ⟨h.1.le, by linarith [h.2]⟩
    | eq =>
      have same : q = m + 1 / 2 := h
      constructor <;> linarith
    | gt => exact ⟨by linarith [h.1], h.2⟩

theorem Tells.nearest {m : ℕ} {a : Accuracy} {q : ℚ} (h : Tells m a q) :
    Nearest q (a.roundToNearestEven m) := by
  cases a with
  | exact =>
    have same : q = m := h
    exact same ▸ nearest_natCast m
  | inexact o =>
    cases o with
    | lt =>
      rcases h with ⟨above, below⟩
      exact nearest_of_between (by dsimp only [Accuracy.roundToNearestEven]; linarith) below
    | eq =>
      have same : q = m + 1 / 2 := h
      -- the tie goes to the neighbour that is even
      rcases Nat.mod_two_eq_zero_or_one m with even | odd
      · refine ⟨?_, ?_, fun _ => ?_⟩ <;> simp only [Accuracy.roundToNearestEven, even, Nat.add_zero]
        · linarith
        · linarith
      · refine ⟨?_, ?_, fun _ => ?_⟩ <;> simp only [Accuracy.roundToNearestEven, odd]
        · push_cast
          linarith
        · push_cast
          linarith
        · omega
    | gt =>
      rcases h with ⟨above, below⟩
      refine nearest_of_between ?_ ?_ <;> dsimp only [Accuracy.roundToNearestEven] <;> push_cast
      · linarith
      · linarith

/-- A digit that is shifted out is not forgotten. -/
theorem Tells.shiftRightOne {em : ExtendedMantissa} {q : ℚ}
    (h : Tells em.mantissa em.accuracy q) :
    Tells em.shiftRightOne.mantissa em.shiftRightOne.accuracy (q / 2) := by
  rcases em with ⟨m, round, sticky⟩
  -- the digit that is shifted out decides the half, the round and sticky digits the side of it
  obtain ⟨k, even | odd⟩ : ∃ k, m = 2 * k ∨ m = 2 * k + 1 := ⟨m / 2, by omega⟩
  · subst even
    have half : 2 * k / 2 = k := by omega
    have bit : (2 * k % 2 != 0) = false := by simp
    cases round <;> cases sticky <;>
      simp only [ExtendedMantissa.shiftRightOne, ExtendedMantissa.accuracy, half, bit, Tells,
        Bool.or_false, Bool.or_true] at h ⊢ <;>
      push_cast at h
    · linarith
    · constructor <;> linarith [h.1, h.2]
    · constructor <;> linarith
    · constructor <;> linarith [h.1, h.2]
  · subst odd
    have half : (2 * k + 1) / 2 = k := by omega
    have bit : ((2 * k + 1) % 2 != 0) = true := by simp [Nat.add_mod]
    cases round <;> cases sticky <;>
      simp only [ExtendedMantissa.shiftRightOne, ExtendedMantissa.accuracy, half, bit, Tells,
        Bool.or_false, Bool.or_true] at h ⊢ <;>
      push_cast at h
    · linarith
    · constructor <;> linarith [h.1, h.2]
    · constructor <;> linarith
    · constructor <;> linarith [h.1, h.2]

theorem Tells.shiftRight {em : ExtendedMantissa} {q : ℚ} (h : Tells em.mantissa em.accuracy q)
    (k : ℕ) : Tells (em >>> k).mantissa (em >>> k).accuracy (q / 2 ^ k) := by
  induction k with
  | zero =>
    rw [pow_zero, div_one]
    exact h
  | succ k ih =>
    have next := ih.shiftRightOne
    rw [div_div, ← pow_succ] at next
    exact next

theorem Tells.extended {m : ℕ} {a : Accuracy} {q : ℚ} (h : Tells m a q) :
    Tells (ExtendedMantissa.ofMantissaAndAccuracy m a).mantissa
      (ExtendedMantissa.ofMantissaAndAccuracy m a).accuracy q := by
  cases a with
  | exact => exact h
  | inexact o => cases o <;> exact h

/-! ## Exponents -/

/-- The exponent of a double of a given size: its integer has 53 binary digits, or fewer at the
least exponent. -/
structure Scale (v : ℚ) (e : ℤ) : Prop where
  least : -1074 ≤ e
  below : v < 2 ^ (e + 53)
  full : e = -1074 ∨ (2 : ℚ) ^ (e + 52) ≤ v

theorem Scale.mono {v v' : ℚ} {e e' : ℤ} (h : Scale v e) (h' : Scale v' e') (le : v ≤ v') :
    e ≤ e' := by
  have least := h'.least
  rcases h.full with here | low
  · omega
  · -- with all 53 digits a number is at least half of what its exponent has room for
    have powers : (2 : ℚ) ^ (e + 52) < 2 ^ (e' + 53) := lt_of_le_of_lt low (le.trans_lt h'.below)
    have order := (zpow_lt_zpow_iff_right₀ (by norm_num : (1 : ℚ) < 2)).mp powers
    omega

section Integers

variable {v : ℚ} {e : ℤ} {n : ℕ}

theorem Scale.div_lt (h : Scale v e) : v / 2 ^ e < 2 ^ 53 := by
  rw [div_lt_iff₀ (zpow_pos (by norm_num) e), ← zpow_natCast, ← zpow_add₀ (by norm_num)]
  rw [add_comm]
  exact_mod_cast h.below

theorem Scale.le_div (h : Scale v e) (more : -1074 < e) : 2 ^ 52 ≤ v / 2 ^ e := by
  rcases h.full with here | low
  · omega
  · rw [le_div_iff₀ (zpow_pos (by norm_num) e), ← zpow_natCast, ← zpow_add₀ (by norm_num)]
    rw [add_comm]
    exact_mod_cast low

theorem Nearest.le_of_scale (near : Nearest (v / 2 ^ e) n) (scale : Scale v e) : n ≤ 2 ^ 53 := by
  refine near.mono (nearest_natCast (2 ^ 53)) ?_
  exact_mod_cast scale.div_lt.le

theorem Nearest.ge_of_scale (near : Nearest (v / 2 ^ e) n) (scale : Scale v e)
    (more : -1074 < e) : 2 ^ 52 ≤ n := by
  refine (nearest_natCast (2 ^ 52)).mono near ?_
  exact_mod_cast scale.le_div more

end Integers

/-! ## Where a rounded number stands -/

/-- Kind, exponent and mantissa of the double `n · 2 ^ e`. Where rounding has made 54 binary digits
the next exponent has room for them, and beyond the largest one is infinity. -/
def rank (e : ℤ) (n : ℕ) : ℤ × ℤ × ℤ :=
  if n = 0 then (0, 0, 0)
  else if n < 2 ^ 53 then if e < 972 then (1, e, n) else (2, 0, 0)
  else if e < 971 then (1, e + 1, 2 ^ 52) else (2, 0, 0)

/-- The place of a rank on the positive side, or its mirror image on the negative one. -/
def standAt (s : Sign) (r : ℤ × ℤ × ℤ) : Standing :=
  stand (s.apply r.1) (s.apply r.2.1) (s.apply r.2.2)

theorem rank_zero (e : ℤ) : rank e 0 = (0, 0, 0) := rfl

theorem rank_small (e : ℤ) {n : ℕ} (pos : 0 < n) (small : n < 2 ^ 53) :
    rank e n = if e < 972 then (1, (e, (n : ℤ))) else (2, 0, 0) := by
  rw [rank, if_neg (by omega), if_pos small]

/-- The 54th binary digit moves to the next exponent. -/
theorem rank_carried (e : ℤ) : rank e (2 ^ 53) = rank (e + 1) (2 ^ 52) := by
  rw [rank_small (e + 1) (by norm_num) (by norm_num), rank, if_neg (by norm_num),
    if_neg (by norm_num)]
  by_cases large : e < 971
  · rw [if_pos large, if_pos (by omega)]
    norm_num
  · rw [if_neg large, if_neg (by omega)]

theorem rank_cases (e : ℤ) (n : ℕ) : rank e n = (0, 0, 0) ∨ 1 ≤ (rank e n).1 := by
  unfold rank
  split_ifs <;> simp

theorem rank_kind_le (e : ℤ) (n : ℕ) : 0 ≤ (rank e n).1 ∧ (rank e n).1 ≤ 2 := by
  unfold rank
  split_ifs <;> simp

theorem standAt_negative_le {r r' : ℤ × ℤ × ℤ} (h : standAt .positive r ≤ standAt .positive r') :
    standAt .negative r' ≤ standAt .negative r := by
  simp only [standAt, Sign.apply, stand_le] at h ⊢
  omega

/-- Larger numbers are not rounded to smaller ones. -/
theorem rank_mono {v v' : ℚ} {e e' : ℤ} {n n' : ℕ} (scale : Scale v e) (scale' : Scale v' e')
    (near : Nearest (v / 2 ^ e) n) (near' : Nearest (v' / 2 ^ e') n') (le : v ≤ v') :
    standAt .positive (rank e n) ≤ standAt .positive (rank e' n') := by
  have most := near.le_of_scale scale
  have most' := near'.le_of_scale scale'
  have least := scale.least
  -- a larger exponent comes with a full integer, so that the carry of the smaller one is no more
  have order : e < e' ∧ 2 ^ 52 ≤ n' ∨ e = e' ∧ n ≤ n' := by
    rcases (scale.mono scale' le).lt_or_eq with less | same
    · exact .inl ⟨less, near'.ge_of_scale scale' (by omega)⟩
    · subst same
      exact .inr ⟨rfl, near.mono near' (by gcongr)⟩
  simp only [standAt, Sign.apply, stand_le, rank]
  split_ifs <;> dsimp only <;> omega

/-- The number with a sign and a magnitude. -/
def signed : Sign → ℚ → ℚ
  | .positive, w => w
  | .negative, w => -w

/-- A place where a double stands that a number is rounded to. -/
structure Stands (v : ℚ) (place : Standing) : Prop where
  rounded : ∃ s w e n, 0 ≤ w ∧ v = signed s w ∧ Scale w e ∧ Nearest (w / 2 ^ e) n ∧
    place = standAt s (rank e n)

theorem Nearest.eq_zero {n : ℕ} (h : Nearest 0 n) : n = 0 := by
  have low := h.low
  have less : (n : ℚ) < 1 := by linarith
  have none : n < 1 := by exact_mod_cast less
  omega

/-- Rounding keeps the order of numbers. -/
theorem Stands.mono {v v' : ℚ} {p p' : Standing} (h : Stands v p) (h' : Stands v' p')
    (le : v ≤ v') : p ≤ p' := by
  rcases h.rounded with ⟨s, w, e, n, nonneg, rfl, scale, near, rfl⟩
  rcases h'.rounded with ⟨s', w', e', n', nonneg', rfl, scale', near', rfl⟩
  cases s with
  | positive =>
    cases s' with
    | positive => exact rank_mono scale scale' near near' le
    | negative =>
      -- between a number and one without a larger sign there is only zero
      have zero : w = 0 := le_antisymm (by simp only [signed] at le; linarith) nonneg
      have zero' : w' = 0 := le_antisymm (by simp only [signed] at le; linarith) nonneg'
      subst zero zero'
      rw [zero_div] at near near'
      rw [near.eq_zero, near'.eq_zero, rank_zero, rank_zero]
      exact le_rfl
  | negative =>
    cases s' with
    | positive =>
      -- zero stands between the two sides
      have kind := rank_kind_le e n
      have kind' := rank_kind_le e' n'
      have zero := rank_cases e n
      have zero' := rank_cases e' n'
      simp only [standAt, Sign.apply, stand_le]
      rcases zero with zero | less
      · rcases zero' with zero' | more
        · simp [zero, zero']
        · omega
      · omega
    | negative =>
      have le : w' ≤ w := by
        simp only [signed] at le
        linarith
      exact standAt_negative_le (rank_mono scale' scale near' near le)

/-- What a number is rounded to is a number. -/
theorem Stands.isNaN {v : ℚ} {x : UnpackedFloat} (h : Stands v (standing x)) : x.isNaN = false := by
  rcases h.rounded with ⟨s, w, e, n, -, -, -, -, same⟩
  have kind := rank_kind_le e n
  cases x with
  | notANumber =>
    have parts : (3 : ℤ) = s.apply (rank e n).1 := congrArg (fun p : Standing => (ofLex p).1) same
    cases s <;> simp only [Sign.apply] at parts <;> omega
  | infinity s => rfl
  | zero s => rfl
  | finite s m e pos => rfl

/-! ## Rounding -/

/-- Pack a double and unpack it. -/
def repack (x : UnpackedFloat) : UnpackedFloat :=
  UnpackedFloat.unpack Format.binary64 (UnpackedFloat.pack Format.binary64 x)

/-- The sign of a packed double is its first digit. -/
theorem sign_packComponents (s : Sign) (e : BitVec 11) (m : BitVec 52) :
    Sign.ofBitVec (unpackSign (packComponents Format.binary64 s e m)) = s := by
  have front : BitVec.extractLsb' 63 1 (s.toBitVec ++ e ++ m) = s.toBitVec := by
    rw [BitVec.append_assoc, BitVec.extractLsb'_cast]
    exact BitVec.extractLsb'_append_eq_left
  cases s <;> exact congrArg Sign.ofBitVec front

theorem targetExponent_eq (t : ℤ) : Format.binary64.targetExponent t = max (t - 53) (-1074) := rfl

theorem toNat_hidden {m : ℕ} (normal : 2 ^ 52 ≤ m) (small : m < 2 ^ 53) :
    (1#1 ++ BitVec.ofNat 52 m).toNat = m := by
  have rest : m % 2 ^ 52 < 2 ^ 52 := Nat.mod_lt _ (by norm_num)
  rw [BitVec.toNat_append, BitVec.toNat_ofNat, BitVec.toNat_ofNat,
    ← Nat.shiftLeft_add_eq_or_of_lt rest]
  norm_num [Nat.shiftLeft_eq]
  omega

section Fields

variable {b : BitVec Format.binary64.numBits}

/-- Digits whose exponent field is neither all ones nor all zeros leave out the leading one. -/
theorem unpack_normal (notAll : unpackExponent b ≠ -1#11) (notNone : unpackExponent b ≠ 0#11) :
    ∃ pos, UnpackedFloat.unpack Format.binary64 b = .finite (Sign.ofBitVec (unpackSign b))
      (1#1 ++ unpackMantissa b).toNat ((unpackExponent b).toNat - ((1023 : ℕ) + (52 : ℕ))) pos := by
  apply Exists.intro
  unfold UnpackedFloat.unpack
  rw [if_neg notAll, if_neg notNone]
  rfl

/-- At the least exponent field the fraction is the whole integer. -/
theorem unpack_subnormal (least : unpackExponent b = 0#11) (some : unpackMantissa b ≠ 0#52) :
    ∃ pos, UnpackedFloat.unpack Format.binary64 b = .finite (Sign.ofBitVec (unpackSign b))
      (unpackMantissa b).toNat ((unpackExponent b).toNat - ((1023 : ℕ) + (52 : ℕ)) + 1) pos := by
  apply Exists.intro
  unfold UnpackedFloat.unpack
  rw [if_neg (by rw [least]; decide), if_pos least, dif_neg some]
  rfl

/-- The highest exponent field stands for an infinity, if there is no fraction. -/
theorem unpack_infinity (all : unpackExponent b = -1#11) (none : unpackMantissa b = 0#52) :
    UnpackedFloat.unpack Format.binary64 b = .infinity (Sign.ofBitVec (unpackSign b)) := by
  unfold UnpackedFloat.unpack
  rw [if_pos all, if_pos none]

theorem unpack_notANumber (all : unpackExponent b = -1#11) (some : unpackMantissa b ≠ 0#52) :
    UnpackedFloat.unpack Format.binary64 b = .notANumber := by
  unfold UnpackedFloat.unpack
  rw [if_pos all, if_neg some]

theorem unpack_zero (least : unpackExponent b = 0#11) (none : unpackMantissa b = 0#52) :
    UnpackedFloat.unpack Format.binary64 b = .zero (Sign.ofBitVec (unpackSign b)) := by
  unfold UnpackedFloat.unpack
  rw [if_neg (by rw [least]; decide), if_pos least, dif_pos none]

/-- The sign of what can be unpacked is that of the first digit. -/
theorem unpack_signed (s : Sign) (sign : Sign.ofBitVec (unpackSign b) = s) :
    UnpackedFloat.unpack Format.binary64 b = .notANumber ∨
      UnpackedFloat.unpack Format.binary64 b = .infinity s ∨
      UnpackedFloat.unpack Format.binary64 b = .zero s ∨
      ∃ m e pos, UnpackedFloat.unpack Format.binary64 b = .finite s m e pos := by
  subst sign
  by_cases all : unpackExponent b = -1#11
  · by_cases none : unpackMantissa b = 0#52
    · exact .inr (.inl (unpack_infinity all none))
    · exact .inl (unpack_notANumber all none)
  by_cases least : unpackExponent b = 0#11
  · by_cases none : unpackMantissa b = 0#52
    · exact .inr (.inr (.inl (unpack_zero least none)))
    · exact .inr (.inr (.inr ⟨_, _, unpack_subnormal least none⟩))
  · exact .inr (.inr (.inr ⟨_, _, unpack_normal all least⟩))

end Fields

theorem pack_finite (s : Sign) {m : ℕ} {e : ℤ} (pos : 0 < m) :
    UnpackedFloat.pack Format.binary64 (.finite s m e pos) =
      if 2 ^ 11 ≤ (e + (1023 : ℕ) + (52 : ℕ)).toNat + 1 then packedInfinity Format.binary64 s
      else if m.log2 + 1 = 53 then
        packComponents Format.binary64 s (BitVec.ofNat 11 (e + (1023 : ℕ) + (52 : ℕ)).toNat)
          (BitVec.ofNat 52 m)
      else packComponents Format.binary64 s (0#11) (BitVec.ofNat 52 m) :=
  rfl

/-- A double keeps its integer and exponent, unless they are beyond the largest one. -/
theorem repack_finite (s : Sign) {m : ℕ} {e : ℤ} (pos : 0 < m) (small : m < 2 ^ 53)
    (least : -1074 ≤ e) (full : 2 ^ 52 ≤ m ∨ e = -1074) :
    repack (.finite s m e pos) = if e < 972 then .finite s m e pos else .infinity s := by
  rw [repack, pack_finite]
  by_cases large : e < 972
  · rw [if_pos large, if_neg (by omega)]
    by_cases normal : 2 ^ 52 ≤ m
    · -- the fraction leaves out the leading digit, the exponent field is neither all nor none
      have digits : m.log2 = 52 := (Nat.log2_eq_iff (by omega)).mpr ⟨normal, small⟩
      rw [if_pos (by rw [digits])]
      have field :
          (BitVec.ofNat 11 (e + (1023 : ℕ) + (52 : ℕ)).toNat).toNat = (e + 1075).toNat := by
        rw [BitVec.toNat_ofNat, Nat.mod_eq_of_lt (by omega)]
        omega
      have notAll : BitVec.ofNat 11 (e + (1023 : ℕ) + (52 : ℕ)).toNat ≠ -1#11 := by
        intro all
        have same : (e + 1075).toNat = 2047 := field.symm.trans (congrArg BitVec.toNat all)
        omega
      have notNone : BitVec.ofNat 11 (e + (1023 : ℕ) + (52 : ℕ)).toNat ≠ 0#11 := by
        intro none
        have same : (e + 1075).toNat = 0 := field.symm.trans (congrArg BitVec.toNat none)
        omega
      rcases unpack_normal (unpackExponent_packComponents.trans_ne notAll)
        (unpackExponent_packComponents.trans_ne notNone) with ⟨_, unpacked⟩
      rw [unpacked, finite.injEq, sign_packComponents, unpackExponent_packComponents,
        unpackMantissa_packComponents, field]
      exact ⟨rfl, toNat_hidden normal small, by omega⟩
    · -- at the least exponent the fraction is the whole integer and the exponent field is zero
      have digits : m.log2 < 52 := (Nat.log2_lt (by omega)).mpr (by omega)
      have lowest : e = -1074 := by omega
      have fraction : (BitVec.ofNat 52 m).toNat = m := by
        rw [BitVec.toNat_ofNat, Nat.mod_eq_of_lt (by omega)]
      have some : BitVec.ofNat 52 m ≠ 0#52 := by
        intro none
        have same : m = 0 := fraction.symm.trans (congrArg BitVec.toNat none)
        omega
      rw [if_neg (by omega)]
      rcases unpack_subnormal unpackExponent_packComponents
        (unpackMantissa_packComponents.trans_ne some) with ⟨_, unpacked⟩
      rw [unpacked, finite.injEq, sign_packComponents, unpackExponent_packComponents,
        unpackMantissa_packComponents, fraction, lowest]
      exact ⟨rfl, rfl, by decide⟩
  · rw [if_neg large, if_pos (by omega)]
    unfold packedInfinity
    exact (unpack_infinity unpackExponent_packComponents unpackMantissa_packComponents).trans
      (congrArg infinity (sign_packComponents s _ _))

theorem standing_finite (s : Sign) {m : ℕ} (e : ℤ) (pos : 0 < m) :
    standing (.finite s m e pos) = stand (s.apply 1) (s.apply e) (s.apply m) := by
  cases s <;> rfl

theorem standing_infinity (s : Sign) : standing (.infinity s) = stand (s.apply 2) 0 0 := by
  cases s <;> rfl

/-- A double stands where its integer and exponent put it. -/
theorem standing_repack_finite (s : Sign) {m : ℕ} {e : ℤ} (pos : 0 < m) (small : m < 2 ^ 53)
    (least : -1074 ≤ e) (full : 2 ^ 52 ≤ m ∨ e = -1074) :
    standing (repack (.finite s m e pos)) = standAt s (rank e m) := by
  rw [repack_finite s pos small least full, standAt, rank_small e pos small]
  by_cases within : e < 972
  · rw [if_pos within, if_pos within]
    exact standing_finite s e pos
  · rw [if_neg within, if_neg within, standing_infinity]
    cases s <;> rfl

theorem shiftToTarget_small {m : ℕ} {e : ℤ} (small : m < 2 ^ 53) (least : -1074 ≤ e) :
    shiftToTargetExponent Format.binary64 m e .exact = (⟨m, false, false⟩, e) := by
  have digits : m.log2 ≤ 52 := by
    rcases Nat.eq_zero_or_pos m with rfl | pos
    · decide
    · exact Nat.le_of_lt_succ ((Nat.log2_lt (by omega)).mpr small)
  have none : (Format.binary64.targetExponent (totalExponent m e) - e).toNat = 0 := by
    rw [targetExponent_eq, totalExponent]
    omega
  rw [shiftToTargetExponent, shiftToExponent, none]
  simp only [Nat.cast_zero, add_zero]
  rfl

theorem shiftToTarget_carried {e : ℤ} (least : -1074 ≤ e) :
    shiftToTargetExponent Format.binary64 (2 ^ 53) e .exact = (⟨2 ^ 52, false, false⟩, e + 1) := by
  have one : (Format.binary64.targetExponent (totalExponent (2 ^ 53) e) - e).toNat = 1 := by
    rw [targetExponent_eq, totalExponent, Nat.log2_two_pow]
    omega
  rw [shiftToTargetExponent, shiftToExponent, one]
  rfl

theorem standing_repack_zero (s : Sign) : standing (repack (.zero s)) = stand 0 0 0 := by
  cases s <;> rfl

/-- A rounded integer that may have 54 binary digits stands where its rank says. -/
theorem standing_carry (s : Sign) {n : ℕ} {e : ℤ} (most : n ≤ 2 ^ 53) (least : -1074 ≤ e)
    (full : 2 ^ 52 ≤ n ∨ e = -1074) {m : ℕ} {e' : ℤ}
    (shifted : ((shiftToTargetExponent Format.binary64 n e .exact).1.mantissa,
      (shiftToTargetExponent Format.binary64 n e .exact).2) = (m, e')) :
    standing (repack (if h : m = 0 then .zero s else .finite s m e' (Nat.pos_of_ne_zero h))) =
      standAt s (rank e n) := by
  rcases Nat.lt_or_ge n (2 ^ 53) with small | large
  · rw [shiftToTarget_small small least] at shifted
    cases shifted
    by_cases zero : n = 0
    · rw [dif_pos zero, standing_repack_zero, zero]
      cases s <;> rfl
    · rw [dif_neg zero]
      exact standing_repack_finite s (Nat.pos_of_ne_zero zero) small least full
  · have carried : n = 2 ^ 53 := by omega
    subst carried
    rw [shiftToTarget_carried least] at shifted
    cases shifted
    rw [dif_neg (by norm_num), standing_repack_finite s (by norm_num) (by norm_num) (by omega)
      (.inl le_rfl), rank_carried]

/-- The exponent that a number is rounded at. -/
theorem scale_target {m : ℕ} {e : ℤ} {q : ℚ} (low : (m : ℚ) ≤ q) (high : q < m + 1)
    (fits : e ≤ Format.binary64.targetExponent (totalExponent m e)) :
    Scale (q * 2 ^ e) (Format.binary64.targetExponent (totalExponent m e)) := by
  have power : (0 : ℚ) < 2 ^ e := zpow_pos (by norm_num) e
  rw [targetExponent_eq, totalExponent] at fits ⊢
  have below : q * 2 ^ e < 2 ^ ((m.log2 : ℤ) + 1 + e) := by
    have digits : ((m + 1 : ℕ) : ℚ) ≤ ((2 ^ (m.log2 + 1) : ℕ) : ℚ) := by
      exact_mod_cast Nat.lt_log2_self
    rw [zpow_add₀ (by norm_num)]
    gcongr
    push_cast at digits
    exact_mod_cast high.trans_le digits
  refine ⟨by omega, below.trans_le (zpow_le_zpow_right₀ (by norm_num) (by omega)), ?_⟩
  rcases Nat.eq_zero_or_pos m with rfl | pos
  · -- less than a unit is left at the least exponent only
    simp only [Nat.log2_zero] at fits ⊢
    omega
  · by_cases lowest : (m.log2 : ℤ) + 1 + e - 53 ≤ -1074
    · exact .inl (by omega)
    · refine .inr ?_
      have exponent : max ((m.log2 : ℤ) + 1 + e - 53) (-1074) + 52 = m.log2 + e := by omega
      have digits : ((2 ^ m.log2 : ℕ) : ℚ) ≤ m := by
        exact_mod_cast Nat.log2_self_le (Nat.ne_of_gt pos)
      rw [exponent, zpow_add₀ (by norm_num)]
      gcongr
      push_cast at digits
      exact_mod_cast digits.trans low

/-- A result is rounded from the number that its integer and accuracy tell of. -/
theorem stands_roundWith (s : Sign) {m : ℕ} {e : ℤ} {a : Accuracy} {q : ℚ} (tells : Tells m a q)
    (fits : e ≤ Format.binary64.targetExponent (totalExponent m e)) :
    Stands (signed s (q * 2 ^ e))
      (standing (repack (roundWithAccuracy Format.binary64 s m e a))) := by
  have power : (0 : ℚ) < 2 ^ e := zpow_pos (by norm_num) e
  have bounds := tells.bounds
  have nonneg : (0 : ℚ) ≤ q := le_trans (Nat.cast_nonneg m) bounds.1
  have scale := scale_target bounds.1 bounds.2 fits
  generalize target : Format.binary64.targetExponent (totalExponent m e) = t at fits scale
  -- the first shift brings the exponent to its target
  obtain ⟨k, rfl⟩ : ∃ k : ℕ, t = e + k := ⟨(t - e).toNat, by omega⟩
  have first : shiftToTargetExponent Format.binary64 m e a =
      (ExtendedMantissa.ofMantissaAndAccuracy m a >>> k, e + k) := by
    rw [shiftToTargetExponent, target, shiftToExponent, add_sub_cancel_left, Int.toNat_natCast]
  have near := (tells.extended.shiftRight k).nearest
  have ratio : q / 2 ^ k = q * 2 ^ e / 2 ^ (e + k) := by
    rw [zpow_add₀ (by norm_num), zpow_natCast]
    field_simp
  rw [ratio] at near
  refine ⟨s, q * 2 ^ e, e + k, _, by positivity, rfl, scale, near, ?_⟩
  have most := near.le_of_scale scale
  have full := scale.least.eq_or_lt.symm.imp (near.ge_of_scale scale) Eq.symm
  -- the second shift moves a carry
  unfold roundWithAccuracy
  rw [first]
  exact standing_carry s most scale.least full rfl

end Number
end StopAlign
