import DomainDesign.Json.Number
import Mathlib.Algebra.Order.Field.Power
import Mathlib.Data.Nat.Digits.Defs
import Mathlib.Data.Rat.Cast.Order
import Mathlib.Tactic.Linarith
import Mathlib.Tactic.Positivity

/-!
# The numbers that JSON can hold

A number of a JSON value is a whole number of sixty-four bits, signed or unsigned, or a finite
double: `Json.Number.InRange`.

**Rounding.**  `nearestMagnitude_le` and `one_le_nearestMagnitude` compare the nearest double to a
rational number with powers of two.  So a whole number of sixty-four bits is never rounded to an
infinity (`isFinite_ofInt`).

**Literals.**  `Number.inRange_ofLiteral?`: what a literal is read as is in range.  A product is
checked when it is read.  A quotient is not, but it starts from a whole number of sixty-four bits
and is divided by nothing below one, so it stays below `2 ^ 64`: `Binary64.Small`.
-/

namespace DomainDesign

namespace Binary64

/-! ## Powers of two -/

/-- A power with an exponent of either sign, as a quotient of powers. -/
lemma pow_toNat_eq {b : ℕ} (hb : 0 < b) (e : ℤ) :
    ((b ^ e.toNat : ℕ) : ℚ) = (b : ℚ) ^ e * ((b ^ (-e).toNat : ℕ) : ℚ) := by
  have hb' : (b : ℚ) ≠ 0 := by exact_mod_cast hb.ne'
  rw [Nat.cast_pow, Nat.cast_pow, ← zpow_natCast, ← zpow_natCast, ← zpow_add₀ hb']
  congr 1
  omega

lemma zpow_eq_natCast {e : ℤ} (h : 0 ≤ e) : (2 : ℚ) ^ e = ((2 ^ e.toNat : ℕ) : ℚ) := by
  rw [pow_toNat_eq two_pos, show (-e).toNat = 0 by omega]
  simp

lemma zpow_mul_natCast {e : ℤ} (h : e ≤ 0) : (2 : ℚ) ^ e * ((2 ^ (-e).toNat : ℕ) : ℚ) = 1 := by
  have hpow := pow_toNat_eq two_pos e
  rw [show e.toNat = 0 by omega, pow_zero, Nat.cast_one] at hpow
  exact_mod_cast hpow.symm

/-- The quotient lies between the power of two that is found and the next one. -/
lemma floorLog2_spec {num den : ℕ} (hnum : 0 < num) (hden : 0 < den) :
    (2 : ℚ) ^ floorLog2 num den * den ≤ num ∧ (num : ℚ) < 2 ^ (floorLog2 num den + 1) * den := by
  set guess : ℤ := (num.log2 : ℤ) - den.log2 with hguess
  have hnumLow : (2 : ℚ) ^ (num.log2 : ℤ) ≤ num := by
    exact_mod_cast Nat.log2_self_le hnum.ne'
  have hnumHigh : (num : ℚ) < 2 ^ ((num.log2 : ℤ) + 1) := by
    exact_mod_cast @Nat.lt_log2_self num
  have hdenLow : (2 : ℚ) ^ (den.log2 : ℤ) ≤ den := by
    exact_mod_cast Nat.log2_self_le hden.ne'
  have hdenHigh : (den : ℚ) < 2 ^ ((den.log2 : ℤ) + 1) := by
    exact_mod_cast @Nat.lt_log2_self den
  have hhigh : (num : ℚ) < 2 ^ (guess + 1) * den :=
    calc (num : ℚ) < 2 ^ ((num.log2 : ℤ) + 1) := hnumHigh
      _ = 2 ^ (guess + 1) * 2 ^ (den.log2 : ℤ) := by
          rw [← zpow_add₀ two_ne_zero]; congr 1; omega
      _ ≤ 2 ^ (guess + 1) * den := by gcongr
  have hlow : (2 : ℚ) ^ (guess - 1) * den ≤ num :=
    calc (2 : ℚ) ^ (guess - 1) * den ≤ 2 ^ (guess - 1) * 2 ^ ((den.log2 : ℤ) + 1) := by gcongr
      _ = 2 ^ (num.log2 : ℤ) := by rw [← zpow_add₀ two_ne_zero]; congr 1; omega
      _ ≤ num := hnumLow
  have hreached : (if 0 ≤ guess then den * 2 ^ guess.toNat ≤ num
      else den ≤ num * 2 ^ (-guess).toNat) ↔ (2 : ℚ) ^ guess * den ≤ num := by
    split
    next h => rw [zpow_eq_natCast h, mul_comm]; exact_mod_cast Iff.rfl
    next h =>
      have hpos : (0 : ℚ) < ((2 ^ (-guess).toNat : ℕ) : ℚ) := by positivity
      rw [← mul_le_mul_iff_left₀ hpos, mul_right_comm, zpow_mul_natCast (by omega), one_mul]
      exact_mod_cast Iff.rfl
  rw [floorLog2, ← hguess]
  simp only [hreached]
  split
  next h => exact ⟨h, hhigh⟩
  next h => exact ⟨hlow, by rw [sub_add_cancel]; exact not_le.mp h⟩

/-! ## Rounding -/

lemma roundHalfEven_le {num den bound : ℕ} (hden : 0 < den) (h : num ≤ den * bound) :
    roundHalfEven num den ≤ bound := by
  have hquotient : num / den ≤ bound := Nat.div_le_of_le_mul h
  have hsplit : den * (num / den) + num % den = num := Nat.div_add_mod num den
  -- the quotient is the bound only where there is nothing left to round
  have hrest : num / den = bound → num % den = 0 := by
    intro heq
    rw [heq] at hsplit
    omega
  rw [roundHalfEven]
  split
  · exact hquotient
  · split <;> omega

lemma le_roundHalfEven {num den bound : ℕ} (hden : 0 < den) (h : den * bound ≤ num) :
    bound ≤ roundHalfEven num den := by
  have hquotient : bound ≤ num / den := (Nat.le_div_iff_mul_le hden).mpr (by rwa [mul_comm])
  rw [roundHalfEven]
  split
  · exact hquotient
  · split <;> omega

/-- What is rounded is the quotient, counted in the power of two. -/
lemma exists_roundHalfEven {num den : ℕ} (hden : 0 < den) (shift : ℤ) :
    ∃ n d : ℕ, 0 < d ∧ (n : ℚ) * 2 ^ shift * den = num * d
      ∧ (if 0 ≤ shift then roundHalfEven num (den * 2 ^ shift.toNat)
          else roundHalfEven (num * 2 ^ (-shift).toNat) den) = roundHalfEven n d := by
  split
  next h =>
    refine ⟨num, den * 2 ^ shift.toNat, by positivity, ?_, rfl⟩
    rw [zpow_eq_natCast h, Nat.cast_mul]
    ring
  next h =>
    refine ⟨num * 2 ^ (-shift).toNat, den, hden, ?_, rfl⟩
    rw [Nat.cast_mul, mul_assoc (num : ℚ), mul_comm _ ((2 : ℚ) ^ shift),
      zpow_mul_natCast (by omega), mul_one]

section

variable {num den : ℕ} {shift : ℤ} {e : ℕ}

lemma scaledRound_le (hden : 0 < den) (h : (num : ℚ) ≤ 2 ^ (shift + e) * den) :
    (if 0 ≤ shift then roundHalfEven num (den * 2 ^ shift.toNat)
      else roundHalfEven (num * 2 ^ (-shift).toNat) den) ≤ 2 ^ e := by
  obtain ⟨n, d, hd, hscaled, hround⟩ := @exists_roundHalfEven num den hden shift
  rw [hround]
  refine roundHalfEven_le hd ?_
  have hunit : (0 : ℚ) < 2 ^ shift * den := by positivity
  have hle : (n : ℚ) ≤ d * 2 ^ e := by
    refine le_of_mul_le_mul_right ?_ hunit
    calc (n : ℚ) * (2 ^ shift * den) = num * d := by rw [← mul_assoc, hscaled]
      _ ≤ 2 ^ (shift + e) * den * d := by gcongr
      _ = d * 2 ^ e * (2 ^ shift * den) := by
          rw [zpow_add₀ two_ne_zero, zpow_natCast]
          ring
  exact_mod_cast hle

lemma le_scaledRound (hden : 0 < den) (h : 2 ^ (shift + e) * den ≤ (num : ℚ)) :
    2 ^ e ≤ if 0 ≤ shift then roundHalfEven num (den * 2 ^ shift.toNat)
      else roundHalfEven (num * 2 ^ (-shift).toNat) den := by
  obtain ⟨n, d, hd, hscaled, hround⟩ := @exists_roundHalfEven num den hden shift
  rw [hround]
  refine le_roundHalfEven hd ?_
  have hunit : (0 : ℚ) < 2 ^ shift * den := by positivity
  have hle : d * 2 ^ e ≤ (n : ℚ) := by
    refine le_of_mul_le_mul_right ?_ hunit
    calc (d : ℚ) * 2 ^ e * (2 ^ shift * den) = 2 ^ (shift + e) * den * d := by
          rw [zpow_add₀ two_ne_zero, zpow_natCast]
          ring
      _ ≤ num * d := by gcongr
      _ = (n : ℚ) * (2 ^ shift * den) := by rw [← mul_assoc, hscaled]
  exact_mod_cast hle

end

/-- A quotient of at most `2 ^ k` is rounded to no more than that. -/
lemma nearestMagnitude_le {num den k : ℕ} (hden : 0 < den) (h : num ≤ den * 2 ^ k) :
    nearestMagnitude num den ≤ (k + 1023) * 2 ^ 52 := by
  rw [nearestMagnitude]
  split
  · omega
  next hnum =>
    obtain ⟨hlow, hhigh⟩ := floorLog2_spec (Nat.pos_of_ne_zero hnum) hden
    set f := floorLog2 num den
    have hden' : (0 : ℚ) < den := by exact_mod_cast hden
    have hle : (num : ℚ) ≤ 2 ^ (k : ℤ) * den := by
      rw [zpow_natCast, mul_comm]
      exact_mod_cast h
    have hf : f ≤ k :=
      (zpow_le_zpow_iff_right₀ one_lt_two).mp (le_of_mul_le_mul_right (hlow.trans hle) hden')
    refine (Nat.min_le_left _ _).trans ?_
    -- at the power of two itself the significand is not rounded up
    rcases hf.lt_or_eq with hlt | heq
    · have hpow : (2 : ℚ) ^ (f + 1) ≤ 2 ^ (max (f - 52) (-1074) + (53 : ℕ)) :=
        zpow_le_zpow_right₀ one_le_two (by omega)
      have hround := scaledRound_le hden
        (hhigh.le.trans (mul_le_mul_of_nonneg_right hpow hden'.le))
      omega
    · have hpow : (2 : ℚ) ^ (k : ℤ) ≤ 2 ^ (max (f - 52) (-1074) + (52 : ℕ)) :=
        zpow_le_zpow_right₀ one_le_two (by omega)
      have hround := scaledRound_le hden (hle.trans (mul_le_mul_of_nonneg_right hpow hden'.le))
      omega

/-- A quotient of at least one is rounded to no less than that. -/
lemma one_le_nearestMagnitude {num den : ℕ} (hden : 0 < den) (h : den ≤ num) :
    1023 * 2 ^ 52 ≤ nearestMagnitude num den := by
  have hnum : 0 < num := hden.trans_le h
  obtain ⟨hlow, hhigh⟩ := floorLog2_spec hnum hden
  rw [nearestMagnitude, if_neg hnum.ne']
  set f := floorLog2 num den
  have hden' : (0 : ℚ) < den := by exact_mod_cast hden
  have hf : 0 < f + 1 := by
    have hone : (1 : ℚ) * den < 2 ^ (f + 1) * den := by
      rw [one_mul]
      exact lt_of_le_of_lt (by exact_mod_cast h) hhigh
    exact (one_lt_zpow_iff_right₀ one_lt_two).mp (lt_of_mul_lt_mul_right hone hden'.le)
  have hpow : (2 : ℚ) ^ (max (f - 52) (-1074) + (52 : ℕ)) ≤ 2 ^ f :=
    zpow_le_zpow_right₀ one_le_two (by omega)
  have hround := le_scaledRound hden ((mul_le_mul_of_nonneg_right hpow hden'.le).trans hlow)
  refine le_min ?_ (by decide)
  omega

/-! ## Finite numbers -/

lemma magnitude_ofMagnitude (negative : Bool) {m : ℕ} (h : m < 2 ^ 63) :
    (ofMagnitude negative m).magnitude = m := by
  cases negative <;>
    simp only [ofMagnitude, magnitude, UInt64.toNat_ofNat', if_true, Bool.false_eq_true,
      if_false] <;>
    omega

lemma field_eq (x : Binary64) : x.field = x.magnitude / 2 ^ 52 := by
  have hword := x.word.toNat_lt
  rw [field, magnitude]
  omega

lemma fraction_eq (x : Binary64) : x.fraction = x.magnitude % 2 ^ 52 := by
  rw [fraction, magnitude]
  omega

lemma isFinite_iff {x : Binary64} : x.isFinite = true ↔ x.magnitude < infinityWord := by
  have hmagnitude : x.magnitude < 2 ^ 63 := Nat.mod_lt _ (by decide)
  rw [isFinite, field_eq, bne_iff_ne, infinityWord]
  omega

lemma isFinite_ofMagnitude (negative : Bool) {m : ℕ} (h : m < infinityWord) :
    (ofMagnitude negative m).isFinite = true := by
  rw [isFinite_iff, magnitude_ofMagnitude negative (h.trans (by decide))]
  exact h

lemma isFinite_negate {x : Binary64} (h : x.isFinite = true) : x.negate.isFinite = true :=
  isFinite_ofMagnitude _ (isFinite_iff.mp h)

/-- At most `2 ^ 64`, without the sign. -/
def Small (x : Binary64) : Prop :=
  x.magnitude ≤ 1087 * 2 ^ 52

lemma Small.isFinite {x : Binary64} (h : x.Small) : x.isFinite = true :=
  isFinite_iff.mpr (lt_of_le_of_lt h (by decide))

lemma small_ofMagnitude (negative : Bool) {m : ℕ} (h : m ≤ 1087 * 2 ^ 52) :
    (ofMagnitude negative m).Small := by
  rw [Small, magnitude_ofMagnitude negative (lt_of_le_of_lt h (by decide))]
  exact h

/-- A whole number of sixty-four bits stays below `2 ^ 64` when it is rounded. -/
lemma small_ofDecimal (negative : Bool) {n : ℕ} (h : n < 2 ^ 64) :
    (ofDecimal negative n 0).Small := by
  have hcount : digitCount n ≤ 20 := Nat.toDigits_length 10 n 20 (by decide) (by omega)
  rw [ofDecimal]
  refine small_ofMagnitude negative ?_
  split
  · decide
  · rw [if_neg (by omega), if_neg (by omega), if_pos le_rfl]
    have hle : n * 10 ^ (0 : ℤ).toNat ≤ 1 * 2 ^ 64 := by simp; omega
    exact nearestMagnitude_le one_pos hle

lemma isFinite_ofInt {i : ℤ} (hlow : -2 ^ 63 ≤ i) (hhigh : i < 2 ^ 64) :
    (ofInt i).isFinite = true :=
  (small_ofDecimal _ (by omega)).isFinite

/-! ## Quotients -/

/-- The value of a number without its sign. -/
def value (x : Binary64) : ℚ :=
  x.significand * 2 ^ x.exponent

lemma Small.value_le {x : Binary64} (h : x.Small) : x.value ≤ 2 ^ 64 := by
  have hfield : x.field ≤ 1087 := by
    rw [field_eq]
    rw [Small] at h
    omega
  have hfraction : x.fraction < 2 ^ 52 := Nat.mod_lt _ (by decide)
  -- at the bound itself the fraction is zero
  rcases hfield.lt_or_eq with hlt | heq
  · have hsignificand : (x.significand : ℚ) ≤ 2 ^ (53 : ℤ) := by
      have : x.significand ≤ 2 ^ 53 := by rw [significand]; split <;> omega
      exact_mod_cast this
    have hexponent : x.exponent ≤ 11 := by rw [exponent]; omega
    calc x.value ≤ 2 ^ (53 : ℤ) * 2 ^ (11 : ℤ) := by
          rw [value]
          gcongr
          exact one_le_two
      _ = 2 ^ 64 := by norm_num
  · have hzero : x.fraction = 0 := by
      rw [field_eq] at heq
      rw [fraction_eq]
      rw [Small] at h
      omega
    have hsignificand : x.significand = 2 ^ 52 := by rw [significand, heq, hzero]; rfl
    have hexponent : x.exponent = 12 := by rw [exponent, heq]; rfl
    rw [value, hsignificand, hexponent]
    norm_num

lemma one_le_value {x : Binary64} (h : 1023 * 2 ^ 52 ≤ x.magnitude) : 1 ≤ x.value := by
  have hfield : 1023 ≤ x.field := by
    rw [field_eq]
    omega
  have hsignificand : (2 : ℚ) ^ (52 : ℤ) ≤ x.significand := by
    have : 2 ^ 52 ≤ x.significand := by rw [significand]; split <;> omega
    exact_mod_cast this
  have hexponent : -52 ≤ x.exponent := by rw [exponent]; omega
  calc (1 : ℚ) = 2 ^ (52 : ℤ) * 2 ^ (-52 : ℤ) := by norm_num
    _ ≤ x.value := by
        rw [value]
        gcongr
        exact one_le_two

lemma magnitude_ofDecimal_pow {k : ℕ} (hk : k ≤ 308) :
    1023 * 2 ^ 52 ≤ (ofDecimal false (10 ^ k) 0).magnitude := by
  have hcount : digitCount (10 ^ k) ≤ k + 1 :=
    Nat.toDigits_length 10 (10 ^ k) (k + 1) k.succ_pos
      (Nat.pow_lt_pow_right (by decide) k.lt_succ_self)
  have hpos : 0 < 10 ^ k := by positivity
  rw [ofDecimal, if_neg hpos.ne', if_neg (by omega), if_neg (by omega), if_pos le_rfl]
  have hle : 1 ≤ 10 ^ k * 10 ^ (0 : ℤ).toNat := by simp; omega
  have hbound : nearestMagnitude (10 ^ k * 10 ^ (0 : ℤ).toNat) 1 ≤ infinityWord := by
    rw [nearestMagnitude]
    split
    · exact Nat.zero_le _
    · exact Nat.min_le_right _ _
  rw [magnitude_ofMagnitude false (lt_of_le_of_lt hbound (by decide))]
  exact one_le_nearestMagnitude one_pos hle

/-- A number that is divided by one or more does not grow beyond the bound. -/
lemma Small.over {x y : Binary64} (hx : x.Small) (hy : 1023 * 2 ^ 52 ≤ y.magnitude) :
    (x.over y).Small := by
  have hle := hx.value_le
  have hone := one_le_value hy
  have hsignificand : 0 < y.significand := by
    rw [Nat.pos_iff_ne_zero]
    intro hzero
    rw [value, hzero, Nat.cast_zero, zero_mul] at hone
    exact absurd hone (by norm_num)
  rw [Binary64.over]
  refine small_ofMagnitude _ (nearestMagnitude_le (k := 64) (by positivity) ?_)
  set q := x.exponent - y.exponent with hq
  have hexponent : (2 : ℚ) ^ x.exponent = 2 ^ y.exponent * 2 ^ q := by
    rw [← zpow_add₀ two_ne_zero, hq, add_sub_cancel]
  have hratio : x.significand * 2 ^ q ≤ (y.significand * 2 ^ 64 : ℚ) := by
    have hunit : (0 : ℚ) < 2 ^ y.exponent := by positivity
    refine le_of_mul_le_mul_left ?_ hunit
    calc 2 ^ y.exponent * (x.significand * 2 ^ q) = x.value := by
          rw [value, hexponent]
          ring
      _ ≤ y.value * 2 ^ 64 := by nlinarith
      _ = 2 ^ y.exponent * (y.significand * 2 ^ 64) := by
          rw [value]
          ring
  have hscaled : (x.significand * (2 ^ q.toNat : ℕ) : ℚ)
      ≤ y.significand * (2 ^ (-q).toNat : ℕ) * 2 ^ 64 :=
    calc (x.significand * (2 ^ q.toNat : ℕ) : ℚ)
        = x.significand * 2 ^ q * (2 ^ (-q).toNat : ℕ) := by
          rw [pow_toNat_eq two_pos, Nat.cast_two, mul_assoc]
      _ ≤ y.significand * 2 ^ 64 * (2 ^ (-q).toNat : ℕ) := by gcongr
      _ = y.significand * (2 ^ (-q).toNat : ℕ) * 2 ^ 64 := by ring
  exact_mod_cast hscaled

end Binary64

namespace Json.Number

/-! ## Literals -/

/-- A whole number of sixty-four bits, signed or unsigned, or a finite double. -/
def InRange : Number → Prop
  | .int i => -2 ^ 63 ≤ i ∧ i < 2 ^ 64
  | .float x => x.isFinite = true

instance : DecidablePred InRange
  | .int i => inferInstanceAs (Decidable (-2 ^ 63 ≤ i ∧ i < 2 ^ 64))
  | .float x => inferInstanceAs (Decidable (x.isFinite = true))

lemma InRange.isFinite_toFloat {n : Number} (h : n.InRange) : n.toFloat.isFinite = true := by
  cases n with
  | int i => exact Binary64.isFinite_ofInt h.1 h.2
  | float x => exact h

lemma takeDigits_le {significand taken : ℕ} (h : significand ≤ wordMax) (digits : List Char) :
    (takeDigits significand taken digits).1 ≤ wordMax := by
  induction digits generalizing significand taken with
  | nil => exact h
  | cons c rest ih =>
      rw [takeDigits]
      split
      next hlonger => exact ih hlonger
      next => exact h

lemma small_scaleDown (steps : ℕ) {x : Binary64} (h : x.Small) (down : ℕ) :
    (scaleDown steps x down).Small := by
  induction steps generalizing x down with
  | zero => exact h
  | succ steps ih =>
      rw [scaleDown]
      split
      next hdown => exact h.over (Binary64.magnitude_ofDecimal_pow hdown)
      next =>
        split
        next => exact h
        next => exact ih (h.over (Binary64.magnitude_ofDecimal_pow le_rfl)) _

lemma isFinite_scaleUp? {x y : Binary64} (hx : x.isFinite = true) {up : ℕ}
    (h : scaleUp? x up = some y) : y.isFinite = true := by
  simp only [scaleUp?] at h
  split at h
  · split at h
    next hproduct => cases h; exact hproduct
    next => cases h
  · split at h
    next => cases h; exact hx
    next => cases h

lemma isFinite_scaled? {negative : Bool} {significand : ℕ} {exponent : ℤ} {y : Binary64}
    (hsignificand : significand ≤ wordMax) (h : scaled? negative significand exponent = some y) :
    y.isFinite = true := by
  have hsmall : (Binary64.ofDecimal false significand 0).Small :=
    Binary64.small_ofDecimal false (by rw [wordMax] at hsignificand; omega)
  rw [scaled?] at h
  obtain ⟨x, hx, rfl⟩ := Option.map_eq_some_iff.mp h
  have hfinite : x.isFinite = true := by
    split at hx
    · exact isFinite_scaleUp? hsmall.isFinite hx
    · cases hx
      exact (small_scaleDown 5 hsmall _).isFinite
  split
  · exact Binary64.isFinite_negate hfinite
  · exact hfinite

/-- **A literal is read as a number in range.** -/
lemma inRange_ofLiteral? {l : Literal} {n : Number} (h : ofLiteral? l = some n) : n.InRange := by
  rw [ofLiteral?] at h
  split at h
  next hplain =>
    cases h
    have hle : natOfDigits l.whole ≤ wordMax := of_decide_eq_true (Bool.and_eq_true_iff.mp hplain).2
    rw [wordMax] at hle
    exact ⟨by omega, by omega⟩
  next =>
    split at h
    next hplain =>
      cases h
      have hle : natOfDigits l.whole ≤ 2 ^ 63 :=
        of_decide_eq_true (Bool.and_eq_true_iff.mp hplain).2
      exact ⟨by omega, by omega⟩
    next =>
      obtain ⟨x, hx, rfl⟩ := Option.map_eq_some_iff.mp h
      exact isFinite_scaled? (takeDigits_le (takeDigits_le (Nat.zero_le _) _) _) hx

end Json.Number

end DomainDesign
