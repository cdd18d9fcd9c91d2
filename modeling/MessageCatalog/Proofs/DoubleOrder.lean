import MessageCatalog.Number.Basic
import Mathlib.Algebra.Order.Ring.Int
import Mathlib.Data.Int.Order.Basic
import Mathlib.Data.Prod.Lex
import Mathlib.Tactic.Positivity
import Mathlib.Tactic.Ring

/-!
# The order of doubles

Doubles other than not-a-number are compared like their ranks: first the sign, then the exponent,
then the significand, so the order is a linear one up to the two zeros. An integer of at most 53
binary digits is a double exactly, of the rank of every double that is this integer.

## Main statements

* `lt_iff_rank_lt`, `le_iff_rank_le`, `beq_iff_rank_eq` : doubles are compared like their ranks
* `unpack_ofInt` : a small integer as a double
* `rank_ofInt_of_integral?` : it compares like every double that is this integer
-/

namespace MessageCatalog.Double

open Float.Model (UnpackedFloat Format totalExponent)
open Float.Model.UnpackedFloat

/-! ## Section 1: Ranks -/

/-- What a double is compared by: sign, exponent and significand, in this order. -/
def rankOf : UnpackedFloat → ℤ ×ₗ ℤ ×ₗ ℤ
  | .notANumber | .zero _ => toLex (0, toLex (0, 0))
  | .infinity s => toLex (s.apply 2, toLex (0, 0))
  -- among negative numbers the higher exponent is the lower number
  | .finite s m e _ => toLex (s.apply 1, toLex (s.apply e, s.apply m))

/-- The rank of a double. -/
def rank (x : Float) : ℤ ×ₗ ℤ ×ₗ ℤ := rankOf x.toModel.unpack

theorem compare_neg_neg (a b : ℤ) : compare (-a) (-b) = (compare a b).swap := by
  rw [@Std.OrientedCmp.eq_swap ℤ compare _, Ordering.swap_inj]
  simp only [compare, compareOfLessAndEq]
  split_ifs <;> first | rfl | omega

theorem compare_natCast (m n : ℕ) : compare (m : ℤ) (n : ℤ) = compare m n := by
  simp only [compare, compareOfLessAndEq]
  split_ifs <;> first | rfl | omega

/-- **Doubles that are numbers are compared like their ranks.** -/
theorem compare_eq_compare_rankOf {u v : UnpackedFloat} (hu : u ≠ .notANumber)
    (hv : v ≠ .notANumber) : u.compare v = some (compare (rankOf u) (rankOf v)) := by
  rcases u with s | _ | s | ⟨s, m, e, hm⟩ <;> rcases v with t | _ | t | ⟨t, n, f, hn⟩
  all_goals try contradiction
  all_goals cases s <;> cases t
  -- the sign alone decides unless both numbers are finite and have the same one
  all_goals try rfl
  case finite.finite.negative.negative =>
    show some _ = some ((compare (-e) (-f)).then (compare (-(m : ℤ)) (-(n : ℤ))))
    rw [compare_neg_neg, compare_neg_neg, ← Ordering.swap_then, compare_natCast]
  case finite.finite.positive.positive =>
    show some _ = some ((compare e f).then (compare (m : ℤ) (n : ℤ)))
    rw [compare_natCast]

theorem unpack_ne_notANumber {x : Float} (h : x.isNaN = false) :
    x.toModel.unpack ≠ .notANumber := by
  intro hu
  have hnan : x.toModel.unpack.isNaN = false := h
  rw [hu] at hnan
  cases hnan

/-- What equals a double is a number. -/
theorem isNaN_of_beq {x y : Float} (h : (x == y) = true) : x.isNaN = false := by
  have hbeq : x.toModel.unpack.beq y.toModel.unpack = true := h
  show x.toModel.unpack.isNaN = false
  cases hu : x.toModel.unpack with
  | notANumber =>
    rw [hu] at hbeq
    cases hbeq
  | infinity s => rfl
  | zero s => rfl
  | finite s m e hpos => rfl

theorem unpack_eq_notANumber {x : Float} (h : x.isNaN = true) :
    x.toModel.unpack = .notANumber := by
  have hnan : x.toModel.unpack.isNaN = true := h
  cases hu : x.toModel.unpack with
  | notANumber => rfl
  | infinity s =>
    rw [hu] at hnan
    cases hnan
  | zero s =>
    rw [hu] at hnan
    cases hnan
  | finite s m e hpos =>
    rw [hu] at hnan
    cases hnan

theorem compare_notANumber (u : UnpackedFloat) : u.compare .notANumber = none := by
  cases u <;> rfl

/-- Nothing is below what is no number. -/
theorem not_lt_of_isNaN {x y : Float} (hy : y.isNaN = true) : ¬ x < y := by
  show ¬ decide ((x.toModel.unpack.compare y.toModel.unpack == some .lt) = true) = true
  rw [unpack_eq_notANumber hy, compare_notANumber]
  decide

/-- Nothing is at or below what is no number. -/
theorem not_le_of_isNaN {x y : Float} (hy : y.isNaN = true) : ¬ x ≤ y := by
  show ¬ decide ((x.toModel.unpack.compare y.toModel.unpack).any (·.isLE) = true) = true
  rw [unpack_eq_notANumber hy, compare_notANumber]
  decide

section Comparisons

variable {x y : Float} (hx : x.isNaN = false) (hy : y.isNaN = false)

include hx hy

theorem lt_iff_rank_lt : x < y ↔ rank x < rank y := by
  show decide ((x.toModel.unpack.compare y.toModel.unpack == some .lt) = true) = true ↔ _
  rw [decide_eq_true_iff,
    compare_eq_compare_rankOf (unpack_ne_notANumber hx) (unpack_ne_notANumber hy), beq_iff_eq,
    Option.some_inj]
  exact compare_lt_iff_lt

theorem le_iff_rank_le : x ≤ y ↔ rank x ≤ rank y := by
  show decide ((x.toModel.unpack.compare y.toModel.unpack).any (·.isLE) = true) = true ↔ _
  rw [decide_eq_true_iff,
    compare_eq_compare_rankOf (unpack_ne_notANumber hx) (unpack_ne_notANumber hy), Option.any_some,
    Ordering.isLE_iff_ne_gt]
  exact compare_le_iff_le

theorem beq_iff_rank_eq : (x == y) = true ↔ rank x = rank y := by
  show (x.toModel.unpack.compare y.toModel.unpack == some .eq) = true ↔ _
  rw [compare_eq_compare_rankOf (unpack_ne_notANumber hx) (unpack_ne_notANumber hy), beq_iff_eq,
    Option.some_inj]
  exact compare_eq_iff_eq

end Comparisons

/-! ## Section 2: The parts of a finite double -/

/-- Significand and exponent as a finite double has them: 53 digits, or fewer at the least
exponent. -/
def Canonical (m : ℕ) (e : ℤ) : Prop :=
  2 ^ 52 ≤ m ∧ m < 2 ^ 53 ∧ -1074 ≤ e ∨ m < 2 ^ 52 ∧ e = -1074

theorem finite_congr {s t : Sign} {m n : ℕ} {e f : ℤ} (hs : s = t) (hm : m = n) (he : e = f)
    (hpos : 0 < m) (hpos' : 0 < n) :
    UnpackedFloat.finite s m e hpos = .finite t n f hpos' := by
  subst hs hm he
  rfl

theorem exponentBias_binary64 : (Format.binary64.exponentBias : ℤ) = 1023 := by decide

theorem toNat_unpackExponent (x : Float) :
    (@unpackExponent .binary64 x.toModel.toBits.toBitVec).toNat =
      x.toBits.toNat / 2 ^ 52 % 2 ^ 11 := by
  show (BitVec.extractLsb' 52 11 x.toModel.toBits.toBitVec).toNat = _
  rw [BitVec.extractLsb'_toNat, Nat.shiftRight_eq_div_pow]
  rfl

theorem toNat_unpackMantissa (x : Float) :
    (@unpackMantissa .binary64 x.toModel.toBits.toBitVec).toNat =
      x.toBits.toNat % 2 ^ 52 := by
  show (BitVec.extractLsb' 0 52 x.toModel.toBits.toBitVec).toNat = _
  rw [BitVec.extractLsb'_toNat, Nat.shiftRight_zero]
  rfl

section Words

variable {b : BitVec 64}

/-- A word between the least and the greatest exponent leaves out a leading digit. -/
theorem unpack_of_normal (hmax : @unpackExponent .binary64 b ≠ -1#11)
    (hmin : @unpackExponent .binary64 b ≠ 0#11) :
    ∃ hpos, unpack .binary64 b = .finite (Sign.ofBitVec (@unpackSign .binary64 b))
      (2 ^ 52 + (@unpackMantissa .binary64 b).toNat)
      ((@unpackExponent .binary64 b).toNat - 1075) hpos := by
  have hleading : (1#1 ++ @unpackMantissa .binary64 b).toNat =
      2 ^ 52 + (@unpackMantissa .binary64 b).toNat := by
    rw [BitVec.toNat_append, ← Nat.shiftLeft_add_eq_or_of_lt (BitVec.isLt _)]
    rfl
  refine ⟨by positivity, ((if_neg hmax).trans (if_neg hmin)).trans ?_⟩
  apply finite_congr rfl hleading
  rw [exponentBias_binary64]
  rfl

/-- A word of the least exponent is a zero or has no other digits than its own. -/
theorem unpack_of_least (hmin : @unpackExponent .binary64 b = 0#11) :
    (@unpackMantissa .binary64 b).toNat = 0 ∧ (∃ s, unpack .binary64 b = .zero s) ∨
      ∃ s hpos, unpack .binary64 b =
        .finite s (@unpackMantissa .binary64 b).toNat (-1074) hpos := by
  have hmax : @unpackExponent .binary64 b ≠ -1#11 := by
    rw [hmin]
    decide
  by_cases hmantissa : @unpackMantissa .binary64 b = 0#52
  · left
    exact ⟨congrArg BitVec.toNat hmantissa, _,
      ((if_neg hmax).trans (if_pos hmin)).trans (dif_pos hmantissa)⟩
  · right
    have hpos : 0 < (@unpackMantissa .binary64 b).toNat :=
      Nat.pos_of_ne_zero fun hzero => hmantissa (BitVec.eq_of_toNat_eq hzero)
    refine ⟨_, hpos, ((if_neg hmax).trans (if_pos hmin)).trans
      ((dif_neg hmantissa).trans (finite_congr rfl rfl ?_ _ _))⟩
    rw [hmin]
    rfl

/-- A finite word is a zero, a number of the least exponent, or one with a leading digit that the
word leaves out. -/
theorem unpack_of_isFinite (h : (unpack .binary64 b).isFinite = true) :
    (@unpackExponent .binary64 b).toNat = 0 ∧
        ((@unpackMantissa .binary64 b).toNat = 0 ∧ (∃ s, unpack .binary64 b = .zero s) ∨
          ∃ s hpos, unpack .binary64 b =
            .finite s (@unpackMantissa .binary64 b).toNat (-1074) hpos) ∨
      (@unpackExponent .binary64 b).toNat ≠ 0 ∧
        ∃ s hpos, unpack .binary64 b =
          .finite s (2 ^ 52 + (@unpackMantissa .binary64 b).toNat)
            ((@unpackExponent .binary64 b).toNat - 1075) hpos := by
  by_cases hmin : @unpackExponent .binary64 b = 0#11
  · exact .inl ⟨congrArg BitVec.toNat hmin, unpack_of_least hmin⟩
  · have hmax : @unpackExponent .binary64 b ≠ -1#11 := by
      intro hmax
      -- the greatest exponent is that of infinity and of what is no number
      have hu : unpack .binary64 b = if @unpackMantissa .binary64 b = 0#52 then
          .infinity (Sign.ofBitVec (@unpackSign .binary64 b)) else .notANumber := if_pos hmax
      rw [hu] at h
      split at h <;> cases h
    obtain ⟨hpos, hu⟩ := unpack_of_normal hmax hmin
    exact .inr ⟨fun hzero => hmin (BitVec.eq_of_toNat_eq hzero), _, hpos, hu⟩

end Words

/-- The magnitude read from the parts of the word. -/
theorem magnitude_eq (x : Float) :
    magnitude x =
      if (@unpackExponent .binary64 x.toModel.toBits.toBitVec).toNat = 0 then
        ⟨(@unpackMantissa .binary64 x.toModel.toBits.toBitVec).toNat, -1074⟩
      else
        ⟨2 ^ 52 + (@unpackMantissa .binary64 x.toModel.toBits.toBitVec).toNat,
          ((@unpackExponent .binary64 x.toModel.toBits.toBitVec).toNat : ℤ) - 1075⟩ := by
  rw [toNat_unpackExponent, toNat_unpackMantissa]
  rfl

/-- **The magnitude of a finite double holds the significand and the exponent that it is compared
by.** -/
theorem magnitude_of_isFinite {x : Float} (h : x.isFinite = true) :
    (∃ s, x.toModel.unpack = .zero s ∧ magnitude x = ⟨0, -1074⟩) ∨
      ∃ s m e hpos,
        x.toModel.unpack = .finite s m e hpos ∧ magnitude x = ⟨m, e⟩ ∧ Canonical m e := by
  have hlt := (@unpackMantissa .binary64 x.toModel.toBits.toBitVec).isLt
  change _ < 2 ^ 52 at hlt
  rw [magnitude_eq]
  obtain ⟨hexponent, ⟨hzero, s, hu⟩ | ⟨s, hpos, hu⟩⟩ | ⟨hexponent, s, hpos, hu⟩ :=
    unpack_of_isFinite h
  · exact .inl ⟨s, hu, by rw [if_pos hexponent, hzero]⟩
  · exact .inr ⟨s, _, _, hpos, hu, by rw [if_pos hexponent], .inr ⟨hlt, rfl⟩⟩
  · refine .inr ⟨s, _, _, hpos, hu, by rw [if_neg hexponent], .inl ⟨?_, ?_, ?_⟩⟩ <;> omega

/-! ## Section 3: Small integers -/

/-- A natural number filled up to 53 binary digits. -/
def fill (n : ℕ) : ℕ := n * 2 ^ (52 - n.log2)

theorem fill_pos {n : ℕ} (h : 0 < n) : 0 < fill n := by
  unfold fill
  positivity

theorem log2_mul_two_pow {n : ℕ} (h : 0 < n) (k : ℕ) : (n * 2 ^ k).log2 = n.log2 + k := by
  rw [Nat.log2_eq_iff (by positivity), pow_add, add_right_comm, pow_add]
  constructor
  · exact Nat.mul_le_mul_right _ (Nat.log2_self_le h.ne')
  · exact Nat.mul_lt_mul_of_pos_right Nat.lt_log2_self (by positivity)

theorem log2_le {n : ℕ} (h : 0 < n) (hn : n < 2 ^ 53) : n.log2 ≤ 52 :=
  Nat.le_of_lt_succ ((Nat.log2_lt h.ne').mpr hn)

theorem log2_eq_of_normal {m : ℕ} (hm : 2 ^ 52 ≤ m ∧ m < 2 ^ 53) : m.log2 = 52 :=
  (Nat.log2_eq_iff (by omega)).mpr hm

theorem fill_normal {n : ℕ} (h : 0 < n) (hn : n < 2 ^ 53) : 2 ^ 52 ≤ fill n ∧ fill n < 2 ^ 53 := by
  have hlog := log2_le h hn
  apply (Nat.log2_eq_iff (fill_pos h).ne').mp
  rw [fill, log2_mul_two_pow h]
  omega

theorem sign_packComponents (s : Sign) (a : BitVec 11) (b : BitVec 52) :
    Sign.ofBitVec (unpackSign (packComponents .binary64 s a b)) = s := by
  have hbit : unpackSign (packComponents .binary64 s a b) = s.toBitVec := by
    show (s.toBitVec ++ a ++ b).extractLsb' 63 1 = _
    rw [BitVec.extractLsb'_append_eq_of_le (by decide),
      BitVec.extractLsb'_append_eq_of_le (by decide)]
    exact BitVec.extractLsb'_eq_self
  rw [hbit]
  cases s <;> rfl

/-- **Packing a number of 53 digits keeps it.** -/
theorem unpack_pack {s : Sign} {m : ℕ} {e : ℤ} (hpos : 0 < m) (hm : 2 ^ 52 ≤ m ∧ m < 2 ^ 53)
    (he : -1074 ≤ e ∧ e ≤ 971) :
    (Float.Model.pack (.finite s m e hpos)).unpack = .finite s m e hpos := by
  have hpack : pack .binary64 (.finite s m e hpos) =
      packComponents .binary64 s (BitVec.ofNat 11 (e + 1075).toNat) (BitVec.ofNat 52 m) := by
    have hbiased : (e + (Format.binary64.exponentBias : ℤ) +
        (Format.binary64.mantissaBitsWithoutImplicit : ℤ)).toNat = (e + 1075).toNat := by
      rw [exponentBias_binary64]
      show (e + 1023 + 52).toNat = _
      congr 1
      omega
    unfold pack
    simp only [hbiased, log2_eq_of_normal hm]
    rw [if_neg]
    · rfl
    · show ¬ 2 ^ 11 ≤ _
      omega
  have hexponent : (BitVec.ofNat 11 (e + 1075).toNat).toNat = (e + 1075).toNat := by
    rw [BitVec.toNat_ofNat]
    omega
  -- neither the exponent of infinity nor that of numbers without a leading digit
  have hmax : BitVec.ofNat 11 (e + 1075).toNat ≠ -1#11 := by
    intro h
    rw [h] at hexponent
    change 2047 = _ at hexponent
    omega
  have hmin : BitVec.ofNat 11 (e + 1075).toNat ≠ 0#11 := by
    intro h
    rw [h] at hexponent
    change 0 = _ at hexponent
    omega
  show unpack .binary64 (pack .binary64 (.finite s m e hpos)) = _
  rw [hpack]
  obtain ⟨hpos', hu⟩ := unpack_of_normal
    (b := packComponents .binary64 s (BitVec.ofNat 11 (e + 1075).toNat) (BitVec.ofNat 52 m))
    (by rwa [unpackExponent_packComponents]) (by rwa [unpackExponent_packComponents])
  rw [hu]
  apply finite_congr (sign_packComponents ..)
  · rw [unpackMantissa_packComponents, BitVec.toNat_ofNat]
    show 2 ^ 52 + m % 2 ^ 52 = m
    omega
  · rw [unpackExponent_packComponents, hexponent]
    omega

theorem shiftRight_exact (m k : ℕ) :
    ExtendedMantissa.ofMantissaAndAccuracy (m * 2 ^ k) .exact >>> k = ⟨m, false, false⟩ := by
  induction k generalizing m with
  | zero => simp [ExtendedMantissa.ofMantissaAndAccuracy, HShiftRight.hShiftRight, Nat.repeat]
  | succ k ih =>
    show ExtendedMantissa.shiftRightOne
      (ExtendedMantissa.ofMantissaAndAccuracy (m * 2 ^ (k + 1)) .exact >>> k) = _
    rw [pow_succ', ← mul_assoc, ih]
    simp [ExtendedMantissa.shiftRightOne]

section Rounding

variable {s : Sign} {m : ℕ} {e : ℤ} (hpos : 0 < m) (hm : 2 ^ 52 ≤ m ∧ m < 2 ^ 53) (he : -1074 ≤ e)

include hpos hm he

theorem shiftToTargetExponent_exact (k : ℕ) :
    shiftToTargetExponent .binary64 (m * 2 ^ k) (e - k) .exact = (⟨m, false, false⟩, e) := by
  have htarget : Format.binary64.targetExponent (totalExponent (m * 2 ^ k) (e - k)) = e := by
    unfold Format.targetExponent totalExponent
    rw [log2_mul_two_pow hpos, log2_eq_of_normal hm]
    show max (((52 + k : ℕ) : ℤ) + 1 + (e - k) - 53) (-1074) = e
    omega
  have hshift : (e - (e - k)).toNat = k := by omega
  unfold shiftToTargetExponent shiftToExponent
  simp only [htarget, hshift, shiftRight_exact]
  simp

/-- Zeros past the 53 digits are rounded away. -/
theorem roundWithAccuracy_exact (k : ℕ) :
    roundWithAccuracy .binary64 s (m * 2 ^ k) (e - k) .exact = .finite s m e hpos := by
  -- the first shift leaves no digits to round, so the second one has nothing to do
  have hkept : shiftToTargetExponent .binary64 (ExtendedMantissa.roundedMantissa ⟨m, false, false⟩)
      e .exact = (⟨m, false, false⟩, e) := by
    show shiftToTargetExponent .binary64 m e .exact = _
    simpa only [pow_zero, mul_one, Nat.cast_zero, sub_zero] using
      shiftToTargetExponent_exact hpos hm he 0
  unfold roundWithAccuracy
  rw [shiftToTargetExponent_exact hpos hm he k]
  dsimp only
  rw [hkept]
  exact dif_neg hpos.ne'

end Rounding

section SmallNumbers

variable {n : ℕ} (hpos : 0 < n) (hn : n < 2 ^ 53)

include hn

/-- Rounding a small natural number fills up its digits. -/
theorem round_natCast :
    UnpackedFloat.round .binary64 .positive n 0 =
      .finite .positive (fill n) (n.log2 - 52) (fill_pos hpos) := by
  have hlog := log2_le hpos hn
  have htarget : Format.binary64.targetExponent (totalExponent n 0) = n.log2 - 52 := by
    show max ((n.log2 : ℤ) + 1 + 0 - 53) (-1074) = _
    omega
  have hfilled : decreaseExponent n 0 (n.log2 - 52) = (fill n, (n.log2 : ℤ) - 52) := by
    have hshift : (0 - ((n.log2 : ℤ) - 52)).toNat = 52 - n.log2 := by omega
    unfold decreaseExponent
    rw [hshift]
    refine Prod.ext (Nat.shiftLeft_eq ..) ?_
    show (0 : ℤ) - (52 - n.log2 : ℕ) = _
    omega
  have hround := roundWithAccuracy_exact (s := .positive) (e := n.log2 - 52) (fill_pos hpos)
    (fill_normal hpos hn) (by omega) 0
  rw [pow_zero, mul_one, Nat.cast_zero, sub_zero] at hround
  unfold UnpackedFloat.round
  rw [htarget]
  dsimp only
  rw [hfilled]
  exact hround

/-- A small natural number unpacked. -/
theorem ofUInt64_toUInt64 :
    ofUInt64 .binary64 n.toUInt64 = .finite .positive (fill n) (n.log2 - 52) (fill_pos hpos) := by
  have hword : n.toUInt64.toNat = n := by
    rw [Nat.toUInt64_eq, UInt64.toNat_ofNat']
    omega
  have hsign : compare (n : ℤ) 0 = .gt := by
    rw [Std.compare_eq_gt]
    omega
  show UnpackedFloat.normalize .binary64 (n.toUInt64.toNat : ℤ) 0 .positive = _
  rw [hword]
  unfold UnpackedFloat.normalize
  rw [hsign]
  exact round_natCast hpos hn

/-- A small natural number as a double. -/
theorem unpack_ofNat :
    (Float.ofNat n).toModel.unpack =
      .finite .positive (fill n) (n.log2 - 52) (fill_pos hpos) := by
  have hlog := log2_le hpos hn
  have hnormal := fill_normal hpos hn
  have hword : n.toUInt64.toFloat.toModel.unpack =
      .finite .positive (fill n) (n.log2 - 52) (fill_pos hpos) := by
    show (Float.Model.pack (ofUInt64 .binary64 n.toUInt64)).unpack = _
    rw [ofUInt64_toUInt64 hpos hn]
    exact unpack_pack _ hnormal (by omega)
  have hone : (Float.ofBits 4607182418800017408).toModel.unpack =
      .finite .positive (2 ^ 52) (-52) (by decide) := rfl
  -- a natural number is read as a decimal without an exponent: the number times one
  show (Float.ofScientific n false 0).toModel.unpack = _
  unfold Float.ofScientific
  rw [dif_pos ⟨hn, by decide⟩]
  show (Float.Model.pack (UnpackedFloat.mul .binary64 n.toUInt64.toFloat.toModel.unpack
    (Float.ofBits 4607182418800017408).toModel.unpack)).unpack = _
  rw [hword, hone]
  show (Float.Model.pack (roundWithAccuracy .binary64 .positive (fill n * 2 ^ 52)
    ((n.log2 - 52) + -52) .exact)).unpack = _
  rw [show (n.log2 - 52 : ℤ) + -52 = n.log2 - 52 - (52 : ℕ) by omega,
    roundWithAccuracy_exact (fill_pos hpos) hnormal (by omega)]
  exact unpack_pack _ hnormal (by omega)

end SmallNumbers

/-- **A small integer as a double: 53 digits with the sign of the integer.** -/
theorem unpack_ofInt {i : ℤ} (hne : i ≠ 0) (hi : i.natAbs < 2 ^ 53) :
    ∃ s, (Float.ofInt i).toModel.unpack =
        .finite s (fill i.natAbs) (i.natAbs.log2 - 52) (fill_pos (by omega)) ∧
      (s = .negative ↔ i < 0) := by
  have hpos : 0 < i.natAbs := by omega
  cases i with
  | ofNat n =>
    exact ⟨.positive, unpack_ofNat hpos hi, by simp⟩
  | negSucc n =>
    have hlog := log2_le hpos hi
    refine ⟨.negative, ?_, by simp⟩
    show (Float.Model.pack (Float.ofNat (Int.negSucc n).natAbs).toModel.unpack.neg).unpack = _
    rw [unpack_ofNat hpos hi]
    exact unpack_pack _ (fill_normal hpos hi) (by omega)

theorem isNaN_ofInt {i : ℤ} (hi : i.natAbs < 2 ^ 53) : (Float.ofInt i).isNaN = false := by
  obtain rfl | hne := eq_or_ne i 0
  · rfl
  · obtain ⟨s, hu, -⟩ := unpack_ofInt hne hi
    show (Float.ofInt i).toModel.unpack.isNaN = false
    rw [hu]
    rfl

/-! ## Section 4: Doubles that are integers -/

/-- A finite double that is a small integer has the significand of this integer. -/
theorem normal_of_integer {m n : ℕ} {e : ℤ} (hc : Canonical m e) (hpos : 0 < m) (hn : n < 2 ^ 53)
    (h : 0 ≤ e ∧ n = m * 2 ^ e.toNat ∨ e < 0 ∧ m = n * 2 ^ (-e).toNat) :
    0 < n ∧ m = fill n ∧ e = (n.log2 : ℤ) - 52 := by
  obtain ⟨he, rfl⟩ | ⟨he, rfl⟩ := h
  · -- 53 digits already, so only the exponent zero keeps the number small
    obtain ⟨hm, hm', -⟩ | ⟨-, rfl⟩ := hc
    swap
    · omega
    have hlog := log2_le (by positivity) hn
    rw [log2_mul_two_pow hpos, log2_eq_of_normal ⟨hm, hm'⟩] at hlog
    have hzero : e.toNat = 0 := by omega
    rw [fill, hzero, pow_zero, mul_one, log2_eq_of_normal ⟨hm, hm'⟩]
    refine ⟨hpos, ?_, ?_⟩ <;> omega
  · have hn0 : 0 < n := Nat.pos_of_mul_pos_right hpos
    have hlog := log2_mul_two_pow hn0 (-e).toNat
    obtain hm | ⟨hm, hleast⟩ := hc
    · rw [log2_eq_of_normal ⟨hm.1, hm.2.1⟩] at hlog
      refine ⟨hn0, ?_, by omega⟩
      rw [fill]
      congr 2
      omega
    · -- the least exponent leaves no integer but zero
      have hsmall := (Nat.log2_lt hpos.ne').mpr hm
      rw [hlog, hleast] at hsmall
      exact absurd hsmall (Nat.not_lt.mpr (le_add_left (by decide)))

theorem lt_zero_iff {x : Float} {s : Sign} {m : ℕ} {e : ℤ} {hpos : 0 < m}
    (h : x.toModel.unpack = .finite s m e hpos) : x < 0 ↔ s = .negative := by
  have hnan : x.isNaN = false := by
    show x.toModel.unpack.isNaN = false
    rw [h]
    rfl
  rw [lt_iff_rank_lt hnan rfl, rank, h]
  cases s with
  | negative => exact ⟨fun _ => rfl, fun _ => Prod.Lex.left _ _ (by decide)⟩
  | positive =>
    refine ⟨fun hlt => ?_, fun h => by cases h⟩
    exact absurd (Prod.Lex.left _ _ (by decide)) hlt.not_gt

theorem natAbs_ite_mul (p : Prop) [Decidable p] (n : ℕ) :
    ((if p then -1 else 1 : ℤ) * (n : ℤ)).natAbs = n := by
  split <;> simp

/-- The magnitude of a double that is an integer is that of the integer. -/
theorem exists_natAbs_of_integral? {x : Float} {i : ℤ} {m : ℕ} {e : ℤ}
    (h : integral? x = some i) (hmagnitude : magnitude x = ⟨m, e⟩) :
    ∃ n : ℕ, i = (if x < 0 then -1 else 1) * (n : ℤ) ∧
      (0 ≤ e ∧ n = m * 2 ^ e.toNat ∨ e < 0 ∧ m = n * 2 ^ (-e).toNat) := by
  unfold integral? at h
  rw [hmagnitude] at h
  simp only at h
  split at h
  · cases h
  by_cases he : 0 ≤ e
  · rw [if_pos he] at h
    exact ⟨_, (Option.some.inj h).symm, .inl ⟨he, rfl⟩⟩
  · rw [if_neg he] at h
    split at h
    · rename_i hmod
      exact ⟨_, (Option.some.inj h).symm,
        .inr ⟨not_le.mp he, (Nat.div_mul_cancel (Nat.dvd_of_mod_eq_zero hmod)).symm⟩⟩
    · cases h

theorem isFinite_of_integral? {x : Float} {i : ℤ} (h : integral? x = some i) :
    x.isFinite = true := by
  unfold integral? at h
  split at h
  · cases h
  · rename_i hfinite
    rwa [Bool.not_eq_true', Bool.not_eq_false] at hfinite

/-- **A small integer compares like every double that is this integer.** -/
theorem rank_ofInt_of_integral? {x : Float} {i : ℤ} (h : integral? x = some i)
    (hi : i.natAbs < 2 ^ 53) : rank (Float.ofInt i) = rank x := by
  obtain ⟨s, hu, hmagnitude⟩ | ⟨s, m, e, hpos, hu, hmagnitude, hc⟩ :=
    magnitude_of_isFinite (isFinite_of_integral? h)
  · -- both zeros are the integer zero
    obtain ⟨n, rfl, ⟨he, -⟩ | ⟨-, hn⟩⟩ := exists_natAbs_of_integral? h hmagnitude
    · cases he
    · obtain rfl : n = 0 :=
        (Nat.mul_eq_zero.mp hn.symm).resolve_right (Nat.two_pow_pos _).ne'
      rw [Nat.cast_zero, mul_zero, rank, rank, hu]
      rfl
  · obtain ⟨n, rfl, hvalue⟩ := exists_natAbs_of_integral? h hmagnitude
    rw [natAbs_ite_mul] at hi
    obtain ⟨hn, rfl, rfl⟩ := normal_of_integer hc hpos hi hvalue
    have hne : (if x < 0 then -1 else 1 : ℤ) * (n : ℤ) ≠ 0 := by
      split <;> omega
    obtain ⟨t, ht, hsign⟩ := unpack_ofInt hne (by rwa [natAbs_ite_mul])
    have hst : t = s := by
      have hx := lt_zero_iff hu
      by_cases hlt : x < 0
      · rw [hx.mp hlt, hsign, if_pos hlt]
        omega
      · have ht : t ≠ .negative := by
          rw [Ne, hsign, if_neg hlt]
          omega
        have hs : s ≠ .negative := fun h => hlt (hx.mpr h)
        cases s <;> cases t <;> first | rfl | contradiction
    rw [rank, rank, ht, hu, hst]
    exact congrArg rankOf (finite_congr rfl (by rw [natAbs_ite_mul]) (by rw [natAbs_ite_mul]) _ _)

end MessageCatalog.Double
