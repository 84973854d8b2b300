import Mathlib.Algebra.Order.Field.Power
import Mathlib.Algebra.Order.Floor.Ring
import Mathlib.Data.Nat.Log
import Mathlib.Data.Rat.Floor
import Mathlib.Tactic.FieldSimp
import Mathlib.Tactic.Linarith
import Mathlib.Tactic.Positivity
import Mathlib.Tactic.Ring
import MonascaNotification.Python.Binary64

/-!
# Float arithmetic on times

How long an engine waits is computed on floats. What this arithmetic has to do with the times
that the clock gives is said by two hypotheses on a platform:

* `Platform.Measures` — it does not overflow, and neither does `time.sleep`
* `Platform.Exact` — it rounds nothing away

Both hold of `cpython` for the times of our age: `measures_cpython` and `exact_cpython`.
-/

namespace MonascaNotification

/-! ## The hypotheses -/

/--
A wait of `bound` seconds between two readings of the clock is computed without overflow, and
`time.sleep` takes it.
-/
def Platform.Measures (P : Platform) (Reading : Rat → Prop) (bound : Int) : Prop :=
  ∀ now stamp, Reading now → Reading stamp → ∃ b d q,
    P.round bound = .fin b ∧ P.round (now - stamp) = .fin d ∧ P.round (b - d) = .fin q ∧
      (0 < q → ∃ seconds, P.sleepDuration (.fin q) = .ok seconds)

/-- A wait of `bound` seconds from an earlier reading of the clock on is computed exactly. -/
structure Platform.Exact (P : Platform) (Reading : Rat → Prop) (bound : Int) : Prop where
  bound_eq : P.round bound = .fin bound
  elapsed_eq : ∀ {now stamp}, Reading now → Reading stamp → stamp ≤ now →
    P.round (now - stamp) = .fin (now - stamp)
  left_eq : ∀ {now stamp}, Reading now → Reading stamp → stamp ≤ now →
    P.round (bound - (now - stamp)) = .fin (bound - (now - stamp))

/-! ## Rounding to an integer -/

theorem roundHalfEven_intCast (n : Int) : roundHalfEven n = n := by
  have hzero : (n : Rat) - n < 1 / 2 := by norm_num
  rw [roundHalfEven, Rat.floor_intCast, if_pos hzero]

theorem abs_roundHalfEven_sub_le (q : Rat) : |(roundHalfEven q : Rat) - q| ≤ 1 / 2 := by
  have hfloor : (q.floor : Rat) ≤ q := Rat.floor_le q
  have hnext : q < q.floor + 1 := by exact_mod_cast Rat.lt_floor_add_one q
  unfold roundHalfEven
  dsimp only
  rw [abs_le]
  split
  · constructor <;> linarith
  · next hlow =>
    have hlow := not_lt.mp hlow
    split
    · push_cast
      constructor <;> linarith
    · next hhigh =>
      have hhigh := not_lt.mp hhigh
      split
      · constructor <;> linarith
      · push_cast
        constructor <;> linarith

/-! ## The exponent -/

theorem pow2_eq (e : Int) : pow2 e = 2 ^ e := by
  unfold pow2
  split
  · next h =>
    obtain ⟨n, rfl⟩ := Int.eq_ofNat_of_zero_le h
    simp
  · next h =>
    obtain ⟨n, hn⟩ := Int.eq_ofNat_of_zero_le (show 0 ≤ -e by omega)
    obtain rfl : e = -n := by omega
    simp

/-- The power at the exponent of a number is not greater than the number. -/
theorem pow2_exponent_le {q : Rat} (hq : q ≠ 0) : pow2 (exponent q) ≤ |q| := by
  unfold exponent
  dsimp only
  split
  · assumption
  · have hnum : q.num.natAbs ≠ 0 := Int.natAbs_ne_zero.mpr (Rat.num_ne_zero.mpr hq)
    have hlow : (2 : Rat) ^ Nat.log2 q.num.natAbs ≤ q.num.natAbs := by
      exact_mod_cast Nat.log2_self_le hnum
    have hhigh : (q.den : Rat) ≤ 2 ^ (Nat.log2 q.den + 1) := by
      exact_mod_cast Nat.lt_log2_self.le
    have hden : (0 : Rat) < q.den := by exact_mod_cast q.den_pos
    have habs : |q| = q.num.natAbs / q.den := by
      rw [Rat.abs_def, Rat.divInt_eq_div]
      simp
    have hsplit : (2 : Rat) ^ ((Nat.log2 q.num.natAbs : Int) - Nat.log2 q.den - 1) =
        2 ^ Nat.log2 q.num.natAbs / 2 ^ (Nat.log2 q.den + 1) := by
      rw [sub_sub, zpow_sub₀ two_ne_zero, zpow_natCast]
      norm_cast
    rw [pow2_eq, habs, hsplit]
    exact div_le_div₀ (by positivity) hlow hden hhigh

/-! ## Rounding to a float -/

theorem pow_lt_max : (2 : Rat) ^ 250 < 2 ^ 1024 :=
  pow_lt_pow_right₀ one_lt_two (by omega)

/-- What has at most 53 significant bits is not rounded. -/
theorem binary64_eq {q : Rat} {k e : Int} (hq : q = k * 2 ^ e) (hk : |k| < 2 ^ 53)
    (he : -1074 ≤ e) (hmax : |q| ≤ 2 ^ 250) : binary64 q = .fin q := by
  by_cases hzero : q = 0
  · rw [binary64, if_pos hzero, hzero]
  · have hexp : exponent q - 52 ≤ e := by
      have hle := pow2_exponent_le hzero
      have hlt : |q| < 2 ^ (53 + e) := by
        rw [hq, abs_mul, zpow_add₀ two_ne_zero, abs_of_pos (show (0 : Rat) < 2 ^ e by positivity)]
        refine mul_lt_mul_of_pos_right ?_ (by positivity)
        exact_mod_cast hk
      rw [pow2_eq] at hle
      have hpow := (zpow_lt_zpow_iff_right₀ (one_lt_two : (1 : Rat) < 2)).mp
        (lt_of_le_of_lt hle hlt)
      omega
    obtain ⟨n, hn⟩ := Int.eq_ofNat_of_zero_le
      (show 0 ≤ e - max (exponent q - 52) (-1074) by omega)
    -- in its unit the number is an integer
    have hunit : q / pow2 (max (exponent q - 52) (-1074)) = ((k * 2 ^ n : Int) : Rat) := by
      have hsplit : (2 : Rat) ^ e = 2 ^ max (exponent q - 52) (-1074) * 2 ^ n := by
        rw [← zpow_natCast (2 : Rat) n, ← zpow_add₀ two_ne_zero]
        congr 1
        omega
      have hpos : (2 : Rat) ^ max (exponent q - 52) (-1074) ≠ 0 := by positivity
      rw [pow2_eq, div_eq_iff hpos]
      calc q = k * (2 ^ max (exponent q - 52) (-1074) * 2 ^ n) := by rw [← hsplit, ← hq]
        _ = ((k * 2 ^ n : Int) : Rat) * 2 ^ max (exponent q - 52) (-1074) := by
          push_cast
          ring
    have hvalue : (roundHalfEven (q / pow2 (max (exponent q - 52) (-1074))) : Rat) *
        pow2 (max (exponent q - 52) (-1074)) = q := by
      have hpos : pow2 (max (exponent q - 52) (-1074)) ≠ 0 := by
        rw [pow2_eq]
        positivity
      rw [hunit, roundHalfEven_intCast, ← hunit, div_mul_cancel₀ _ hpos]
    rw [binary64, if_neg hzero]
    dsimp only
    rw [hvalue, if_neg (not_le.mpr (lt_of_le_of_lt hmax pow_lt_max))]

/-- What is far from the greatest float is rounded to a float of its size, up to the last bits. -/
theorem binary64_finite {q : Rat} (hmax : |q| ≤ 2 ^ 240) :
    ∃ v, binary64 q = .fin v ∧ |v| ≤ |q| + |q| / 2 ^ 52 + 1 := by
  by_cases hzero : q = 0
  · exact ⟨0, by rw [binary64, if_pos hzero], by rw [hzero]; norm_num⟩
  · have hunit : pow2 (max (exponent q - 52) (-1074)) ≤ |q| / 2 ^ 52 + 1 := by
      have hpow : ∀ {a b : Int}, a ≤ b → (2 : Rat) ^ a ≤ 2 ^ b :=
        fun h => zpow_le_zpow_right₀ one_le_two h
      have hexp := pow2_exponent_le hzero
      have hnonneg := abs_nonneg q
      rw [pow2_eq] at hexp ⊢
      rcases max_choice (exponent q - 52) (-1074) with h | h
      · have hsplit : (2 : Rat) ^ (exponent q - 52) = 2 ^ exponent q / 2 ^ 52 := by
          rw [zpow_sub₀ two_ne_zero]
          norm_cast
        rw [h, hsplit]
        have := div_le_div_of_nonneg_right hexp (show (0 : Rat) ≤ 2 ^ 52 by norm_num)
        linarith
      · rw [h]
        have := hpow (show (-1074 : Int) ≤ 0 by omega)
        rw [zpow_zero] at this
        have := div_nonneg hnonneg (show (0 : Rat) ≤ 2 ^ 52 by norm_num)
        linarith
    generalize hu : pow2 (max (exponent q - 52) (-1074)) = unit at hunit
    have hpos : 0 < unit := by
      rw [← hu, pow2_eq]
      positivity
    have hvalue : |(roundHalfEven (q / unit) : Rat) * unit| ≤ |q| + |q| / 2 ^ 52 + 1 := by
      have hround := abs_roundHalfEven_sub_le (q / unit)
      have herror : |(roundHalfEven (q / unit) : Rat) * unit - q| ≤ 1 / 2 * unit := by
        have hfactor : (roundHalfEven (q / unit) : Rat) * unit - q =
            ((roundHalfEven (q / unit) : Rat) - q / unit) * unit := by
          field_simp
        rw [hfactor, abs_mul, abs_of_pos hpos]
        exact mul_le_mul_of_nonneg_right hround hpos.le
      have htri := abs_sub_abs_le_abs_sub ((roundHalfEven (q / unit) : Rat) * unit) q
      have hnonneg := abs_nonneg q
      linarith
    refine ⟨roundHalfEven (q / unit) * unit, ?_, hvalue⟩
    rw [binary64, if_neg hzero]
    dsimp only
    have hlt : |(roundHalfEven (q / unit) : Rat) * unit| < 2 ^ 1024 := by
      have hsmall := div_le_self (abs_nonneg q) (show (1 : Rat) ≤ 2 ^ 52 by norm_num)
      refine lt_of_le_of_lt ?_ pow_lt_max
      linarith
    rw [hu, if_neg (not_le.mpr hlt)]

/-! ## `cpython` -/

/-- A duration of less than some 292 years can be slept. -/
theorem sleepDuration_cpython {q : Rat} (hq : |q| ≤ 2 ^ 33 + 2 ^ 4) :
    cpython.sleepDuration (.fin q) = .ok q := by
  have habs : |q * 10 ^ 9| = |q| * 10 ^ 9 := by rw [abs_mul]; norm_num
  obtain ⟨v, hv, hle⟩ := binary64_finite (q := q * 10 ^ 9) (by rw [habs]; linarith)
  rw [habs] at hle
  have hceil : v.ceil ≤ 2 ^ 63 - 1 := by
    rw [Rat.ceil_le_iff]
    push_cast
    have := le_abs_self v
    linarith
  exact cpython.sleepDuration_of_ceil_lt hv (by omega)

/-- A clock reading up to the year 2106. -/
abbrev InRange (t : Rat) : Prop := 0 ≤ t ∧ t ≤ 2 ^ 32

theorem inRange_zero : InRange 0 := ⟨le_refl 0, by norm_num⟩

/-- Between such readings, no wait of less than some 136 years overflows. -/
theorem measures_cpython {bound : Int} (hbound : |bound| ≤ 2 ^ 32) :
    cpython.Measures InRange bound := by
  rintro now stamp ⟨hnow, hnow'⟩ ⟨hstamp, hstamp'⟩
  have hcast : |(bound : Rat)| ≤ 2 ^ 32 := by exact_mod_cast hbound
  obtain ⟨b, hb, hble⟩ := binary64_finite (q := (bound : Rat)) (by linarith)
  have helapsed : |now - stamp| ≤ 2 ^ 32 := abs_le.mpr ⟨by linarith, by linarith⟩
  obtain ⟨d, hd, hdle⟩ := binary64_finite (q := now - stamp) (by linarith)
  have hleft := abs_sub b d
  obtain ⟨q, hq, hqle⟩ := binary64_finite (q := b - d) (by linarith)
  exact ⟨b, d, q, hb, hd, hq, fun _ => ⟨q, sleepDuration_cpython (by linarith)⟩⟩

/-- The readings of a clock up to the year 2038 whose last bit is worth `2 ^ -22` seconds. -/
def Reading64 (t : Rat) : Prop := ∃ k : Int, 0 ≤ k ∧ k < 2 ^ 53 ∧ t = k * 2 ^ (-22 : Int)

theorem exact_cpython {bound : Int} (hzero : 0 ≤ bound) (hbound : bound < 2 ^ 31) :
    cpython.Exact Reading64 bound := by
  have hsmall : ∀ {k : Int}, |k| < 2 ^ 53 → |(k : Rat) * 2 ^ (-22 : Int)| ≤ 2 ^ 250 := by
    intro k hk
    have hcast : |(k : Rat)| < 2 ^ 53 := by exact_mod_cast hk
    have hone : (2 : Rat) ^ (-22 : Int) ≤ 1 := by norm_num
    rw [abs_mul, abs_of_pos (show (0 : Rat) < 2 ^ (-22 : Int) by positivity)]
    have hmul := mul_le_mul_of_nonneg_left hone (abs_nonneg (k : Rat))
    linarith
  refine ⟨?_, ?_, ?_⟩
  · refine binary64_eq (k := bound) (e := 0) (by simp) ?_ (by omega) ?_
    · rw [abs_of_nonneg hzero]
      omega
    · have hcast : |(bound : Rat)| < 2 ^ 31 := by
        rw [abs_of_nonneg (by exact_mod_cast hzero)]
        exact_mod_cast hbound
      linarith
  · rintro now stamp ⟨k, hk, hk', rfl⟩ ⟨l, hl, hl', rfl⟩ -
    have hkl : |k - l| < 2 ^ 53 := by
      rw [abs_lt]
      omega
    have heq : (k : Rat) * 2 ^ (-22 : Int) - l * 2 ^ (-22 : Int) =
        ((k - l : Int) : Rat) * 2 ^ (-22 : Int) := by
      push_cast
      ring
    rw [heq]
    exact binary64_eq rfl hkl (by omega) (hsmall hkl)
  · rintro now stamp ⟨k, hk, hk', rfl⟩ ⟨l, hl, hl', rfl⟩ hle
    have hlk : l ≤ k := by
      have hpos : (0 : Rat) < 2 ^ (-22 : Int) := by positivity
      exact_mod_cast le_of_mul_le_mul_right hle hpos
    have hkl : |bound * 2 ^ 22 - (k - l)| < 2 ^ 53 := by
      rw [abs_lt]
      omega
    have heq : (bound : Rat) - (k * 2 ^ (-22 : Int) - l * 2 ^ (-22 : Int)) =
        ((bound * 2 ^ 22 - (k - l) : Int) : Rat) * 2 ^ (-22 : Int) := by
      push_cast
      ring
    rw [heq]
    exact binary64_eq rfl hkl (by omega) (hsmall hkl)

end MonascaNotification
