import DomainDesign.Decimal.Shortest
import DomainDesign.Proofs.NumberRange
import Mathlib.Order.Monotone.Basic

/-!
# The shortest decimal determines the number

`Binary64.shortest` writes a number as one of the decimals that round to it.  So two numbers that
are written with the same decimal are the same.

**Rounding.**  The magnitude words are numbers one after the other, and `wordValue` is strictly
monotone on them.  `RoundsTo w v` says that a value lies between the middles to either side of a
word, and on one of the two only if the word is even.  Of two neighbours one is odd, so a value
rounds to one word only: `RoundsTo.unique`.

**The search.**  A grid on which something is found gives a value that rounds to the number
(`roundsTo_of_onGrid?`).  With seventeen digits something is found: the grid is then finer than the
spacing of the numbers (`zpow_lt_spacing`), so one of the two neighbours on it is near enough
(`exists_onGrid?_of_lt`).  `eq_of_written` concludes.
-/

namespace DomainDesign

/-- The value of a decimal. -/
def Decimal.value (d : Decimal) : ℚ :=
  d.coefficient * 10 ^ d.exponent

namespace Binary64

/-! ## Words in order -/

/-- The distance from a magnitude word to the next one. -/
def spacing (w : ℕ) : ℚ :=
  2 ^ ((max (w / 2 ^ 52) 1 : ℕ) - 1075 : ℤ)

/-- The value of a magnitude word. -/
def wordValue (w : ℕ) : ℚ :=
  (if w / 2 ^ 52 = 0 then w % 2 ^ 52 else 2 ^ 52 + w % 2 ^ 52 : ℕ) * spacing w

/-- The middle between a magnitude word and the next one. -/
def middle (w : ℕ) : ℚ :=
  wordValue w + spacing w / 2

lemma spacing_pos (w : ℕ) : 0 < spacing w := by
  rw [spacing]
  positivity

lemma wordValue_succ (w : ℕ) : wordValue (w + 1) = wordValue w + spacing w := by
  by_cases hcarry : w % 2 ^ 52 = 2 ^ 52 - 1
  · -- the significand is full and carries into the exponent
    have hfield : (w + 1) / 2 ^ 52 = w / 2 ^ 52 + 1 := by omega
    have hfraction : (w + 1) % 2 ^ 52 = 0 := by omega
    by_cases hzero : w / 2 ^ 52 = 0
    · have hspacing : spacing (w + 1) = spacing w := by
        rw [spacing, spacing, hfield, hzero]
        rfl
      rw [wordValue, wordValue, hspacing, hfield, hfraction, hcarry, hzero,
        if_neg (Nat.succ_ne_zero _), if_pos rfl]
      push_cast
      ring
    · have hmax : (max (w / 2 ^ 52 + 1) 1 : ℕ) - 1075
          = ((max (w / 2 ^ 52) 1 : ℕ) - 1075 : ℤ) + 1 := by omega
      rw [wordValue, wordValue, spacing, spacing, hfield, hfraction, hcarry, hmax,
        zpow_add_one₀ two_ne_zero, if_neg (Nat.succ_ne_zero _), if_neg hzero]
      push_cast
      ring
  · have hfield : (w + 1) / 2 ^ 52 = w / 2 ^ 52 := by omega
    have hfraction : (w + 1) % 2 ^ 52 = w % 2 ^ 52 + 1 := by omega
    rw [wordValue, wordValue, spacing, spacing, hfield, hfraction]
    split <;> push_cast <;> ring

lemma middle_eq (w : ℕ) : middle w = wordValue (w + 1) - spacing w / 2 := by
  rw [middle, wordValue_succ]
  ring

lemma strictMono_middle : StrictMono middle := by
  refine strictMono_nat_of_lt_succ fun w => ?_
  rw [middle_eq, middle]
  linarith [spacing_pos w, spacing_pos (w + 1)]

/-- A value is rounded to a magnitude word that is not zero. -/
structure RoundsTo (w : ℕ) (v : ℚ) : Prop where
  pos : 0 < w
  low : middle (w - 1) ≤ v
  high : v ≤ middle w
  low_of_odd : w % 2 = 1 → middle (w - 1) < v
  high_of_odd : w % 2 = 1 → v < middle w

lemma RoundsTo.le {w w' : ℕ} {v : ℚ} (h : RoundsTo w v) (h' : RoundsTo w' v) : w' ≤ w := by
  by_contra hlt
  rw [not_le] at hlt
  have hle : middle w ≤ middle (w' - 1) := strictMono_middle.monotone (by omega)
  -- the value is the middle of two neighbours, one of which is odd
  have hmiddle : middle w = middle (w' - 1) := le_antisymm hle (h'.low.trans h.high)
  have hnext : w = w' - 1 := strictMono_middle.injective hmiddle
  rcases Nat.mod_two_eq_zero_or_one w with heven | hodd
  · exact absurd h.high (not_le.mpr (hmiddle ▸ h'.low_of_odd (by omega)))
  · exact absurd h'.low (not_le.mpr (hmiddle ▸ h.high_of_odd hodd))

/-- **A value rounds to one word only.** -/
lemma RoundsTo.unique {w w' : ℕ} {v : ℚ} (h : RoundsTo w v) (h' : RoundsTo w' v) : w = w' :=
  le_antisymm (h'.le h) (h.le h')

/-! ## Numbers as words -/

lemma significand_lt (x : Binary64) : x.significand < 2 ^ 53 := by
  have hfraction : x.fraction < 2 ^ 52 := Nat.mod_lt _ (by decide)
  rw [significand]
  split <;> omega

lemma magnitude_pos {x : Binary64} (hx : x.significand ≠ 0) : 0 < x.magnitude := by
  rw [Nat.pos_iff_ne_zero]
  intro hzero
  rw [significand, field_eq, fraction_eq, hzero] at hx
  exact hx rfl

lemma spacing_magnitude (x : Binary64) : spacing x.magnitude = 2 ^ x.exponent := by
  rw [spacing, exponent, field_eq]

lemma wordValue_magnitude (x : Binary64) : wordValue x.magnitude = x.value := by
  rw [wordValue, value, spacing_magnitude, significand, field_eq, fraction_eq]

/-- The middle above a number, in quarters of its spacing. -/
lemma middle_magnitude (x : Binary64) :
    middle x.magnitude = (4 * x.significand + 2 : ℕ) * 2 ^ (x.exponent - 2) := by
  rw [middle, wordValue_magnitude, spacing_magnitude, value, zpow_sub₀ two_ne_zero]
  push_cast
  ring

/-- Below a power of two the spacing is only half as large. -/
lemma spacing_pred_magnitude {x : Binary64} (hx : x.significand ≠ 0) :
    spacing (x.magnitude - 1)
      = if x.significand = 2 ^ 52 ∧ -1074 < x.exponent then 2 ^ (x.exponent - 1)
        else 2 ^ x.exponent := by
  have hpos := magnitude_pos hx
  have hpower : x.significand = 2 ^ 52 ∧ -1074 < x.exponent
      ↔ x.magnitude % 2 ^ 52 = 0 ∧ 2 ≤ x.magnitude / 2 ^ 52 := by
    rw [significand, exponent, field_eq, fraction_eq]
    split <;> omega
  simp only [hpower]
  rw [spacing, exponent, field_eq]
  split
  all_goals
    congr 1
    omega

lemma middle_pred_eq {x : Binary64} (hx : x.significand ≠ 0) :
    middle (x.magnitude - 1) = x.value - spacing (x.magnitude - 1) / 2 := by
  rw [middle_eq, Nat.sub_add_cancel (magnitude_pos hx), wordValue_magnitude]

/-- The middle below a number, in quarters of its spacing. -/
lemma middle_pred_magnitude {x : Binary64} (hx : x.significand ≠ 0) :
    middle (x.magnitude - 1)
      = (if x.significand = 2 ^ 52 ∧ -1074 < x.exponent then 4 * x.significand - 1
          else 4 * x.significand - 2 : ℕ) * 2 ^ (x.exponent - 2) := by
  rw [middle_pred_eq hx, spacing_pred_magnitude hx, value]
  split
  all_goals
    rw [Nat.cast_sub (by omega)]
    simp only [zpow_sub₀ (two_ne_zero (α := ℚ))]
    push_cast
    ring

/-! ## The grids -/

section

variable (a : ℕ) (g q : ℤ)

lemma natCast_scaleTen : ((a * 10 ^ g.toNat * 2 ^ (-q).toNat : ℕ) : ℚ)
    = a * 10 ^ g * ((10 ^ (-g).toNat : ℕ) * (2 ^ (-q).toNat : ℕ)) := by
  have hten := pow_toNat_eq (b := 10) (by decide) g
  rw [Nat.cast_mul, Nat.cast_mul, hten]
  push_cast
  ring

lemma natCast_scaleTwo : ((a * 2 ^ q.toNat * 10 ^ (-g).toNat : ℕ) : ℚ)
    = a * 2 ^ q * ((10 ^ (-g).toNat : ℕ) * (2 ^ (-q).toNat : ℕ)) := by
  rw [Nat.cast_mul, Nat.cast_mul, pow_toNat_eq two_pos]
  push_cast
  ring

lemma scale_pos : (0 : ℚ) < (10 ^ (-g).toNat : ℕ) * (2 ^ (-q).toNat : ℕ) := by
  positivity

lemma compareScaled_eq (b : ℕ) :
    Decimal.compareScaled a g b q = cmp ((a : ℚ) * 10 ^ g) (b * 2 ^ q) := by
  rw [Decimal.compareScaled, ← cmp_eq_compare, ← (Nat.strictMono_cast (α := ℚ)).cmp_map_eq,
    natCast_scaleTen, natCast_scaleTwo, cmp_mul_pos_right (scale_pos g q)]

end

lemma significand_mod_two (x : Binary64) : x.significand % 2 = x.magnitude % 2 := by
  rw [significand, field_eq, fraction_eq]
  split <;> omega

/-- The test of `onGrid?`: which multiples of a power of ten round to the number. -/
lemma inside_iff {x : Binary64} (hx : x.significand ≠ 0) (c : ℕ) (g : ℤ) :
    (((Decimal.compareScaled c g (if x.significand = 2 ^ 52 ∧ -1074 < x.exponent
            then 4 * x.significand - 1 else 4 * x.significand - 2) (x.exponent - 2) == .gt
          && Decimal.compareScaled c g (4 * x.significand + 2) (x.exponent - 2) == .lt)
        || (decide (x.significand % 2 = 0)
          && (Decimal.compareScaled c g (if x.significand = 2 ^ 52 ∧ -1074 < x.exponent
                then 4 * x.significand - 1 else 4 * x.significand - 2) (x.exponent - 2) == .eq
            || Decimal.compareScaled c g (4 * x.significand + 2) (x.exponent - 2) == .eq))) = true)
      ↔ RoundsTo x.magnitude (c * 10 ^ g) := by
  have hpos := magnitude_pos hx
  have hmiddles : middle (x.magnitude - 1) < middle x.magnitude := strictMono_middle (by omega)
  simp only [Bool.or_eq_true, Bool.and_eq_true, beq_iff_eq, decide_eq_true_eq]
  rw [compareScaled_eq, compareScaled_eq, cmp_eq_gt_iff, cmp_eq_lt_iff, cmp_eq_eq_iff,
    cmp_eq_eq_iff, ← middle_pred_magnitude hx, ← middle_magnitude, significand_mod_two]
  constructor
  · rintro (⟨hlow, hhigh⟩ | ⟨heven, hlow | hhigh⟩)
    · exact ⟨hpos, hlow.le, hhigh.le, fun _ => hlow, fun _ => hhigh⟩
    · exact ⟨hpos, hlow.ge, hlow ▸ hmiddles.le, fun hodd => by omega, fun hodd => by omega⟩
    · exact ⟨hpos, hhigh ▸ hmiddles.le, hhigh.le, fun hodd => by omega, fun hodd => by omega⟩
  · intro h
    rcases Nat.mod_two_eq_zero_or_one x.magnitude with heven | hodd
    · rcases h.low.lt_or_eq with hlow | hlow
      · rcases h.high.lt_or_eq with hhigh | hhigh
        · exact .inl ⟨hlow, hhigh⟩
        · exact .inr ⟨heven, .inr hhigh⟩
      · exact .inr ⟨heven, .inl hlow.symm⟩
    · exact .inl ⟨h.low_of_odd hodd, h.high_of_odd hodd⟩

/-- The multiple of `10 ^ g` at or below a number. -/
def gridFloor (x : Binary64) (g : ℤ) : ℕ :=
  (x.significand * 2 ^ x.exponent.toNat * 10 ^ (-g).toNat)
    / (10 ^ g.toNat * 2 ^ (-x.exponent).toNat)

/-- **What is found on a grid rounds to the number.** -/
lemma roundsTo_of_onGrid? {x : Binary64} (hx : x.significand ≠ 0) {g : ℤ} {c : ℕ}
    (h : onGrid? x.significand x.exponent g = some c) : RoundsTo x.magnitude (c * 10 ^ g) := by
  unfold onGrid? at h
  extract_lets value low high quarter closed inside below at h
  have hinside (c : ℕ) : inside c = true ↔ RoundsTo x.magnitude (c * 10 ^ g) := inside_iff hx c g
  split at h
  next => exact absurd h nofun
  next hbelow _ => rw [← Option.some.inj h]; exact (hinside _).mp hbelow
  next _ hnext => rw [← Option.some.inj h]; exact (hinside _).mp hnext
  next hbelow hnext =>
    split at h
    next => rw [← Option.some.inj h]; exact (hinside _).mp hbelow
    next => rw [← Option.some.inj h]; exact (hinside _).mp hnext
    next =>
      rw [← Option.some.inj h]
      rcases Nat.mod_two_eq_zero_or_one below with heven | hodd
      · rw [heven]; exact (hinside _).mp hbelow
      · rw [hodd]; exact (hinside _).mp hnext

/-- Something is found on a grid with a neighbour of the number that rounds to it. -/
lemma exists_onGrid?_of_roundsTo {x : Binary64} (hx : x.significand ≠ 0) {g : ℤ}
    (h : RoundsTo x.magnitude (gridFloor x g * 10 ^ g)
      ∨ RoundsTo x.magnitude ((gridFloor x g + 1 : ℕ) * 10 ^ g)) :
    ∃ c, onGrid? x.significand x.exponent g = some c := by
  unfold onGrid?
  extract_lets value low high quarter closed inside below
  have hinside (c : ℕ) : inside c = true ↔ RoundsTo x.magnitude (c * 10 ^ g) := inside_iff hx c g
  rw [show gridFloor x g = below from rfl, ← hinside, ← hinside] at h
  split
  next hbelow hnext => simp [hbelow, hnext] at h
  next => exact ⟨_, rfl⟩
  next => exact ⟨_, rfl⟩
  next => split <;> exact ⟨_, rfl⟩

section

variable (x : Binary64) (g : ℤ)

lemma gridFloor_le : gridFloor x g * 10 ^ g ≤ x.value := by
  have hfloor : gridFloor x g * 10 ^ g.toNat * 2 ^ (-x.exponent).toNat
      ≤ x.significand * 2 ^ x.exponent.toNat * 10 ^ (-g).toNat := by
    rw [mul_assoc]
    exact Nat.div_mul_le_self _ _
  have hcast : ((_ : ℕ) : ℚ) ≤ (_ : ℕ) := Nat.cast_le.mpr hfloor
  rw [natCast_scaleTen, natCast_scaleTwo] at hcast
  exact le_of_mul_le_mul_right hcast (scale_pos g x.exponent)

lemma lt_gridFloor_succ : x.value < (gridFloor x g + 1 : ℕ) * 10 ^ g := by
  have hfloor : x.significand * 2 ^ x.exponent.toNat * 10 ^ (-g).toNat
      < (gridFloor x g + 1) * 10 ^ g.toNat * 2 ^ (-x.exponent).toNat := by
    rw [mul_assoc (gridFloor x g + 1)]
    exact Nat.lt_mul_of_div_lt (Nat.lt_succ_self _) (by positivity)
  have hcast : ((_ : ℕ) : ℚ) < (_ : ℕ) := Nat.cast_lt.mpr hfloor
  rw [natCast_scaleTen, natCast_scaleTwo] at hcast
  exact lt_of_mul_lt_mul_right hcast (scale_pos g x.exponent).le

end

/-- On a grid finer than the spacing below a number, something is found. -/
lemma exists_onGrid?_of_lt {x : Binary64} (hx : x.significand ≠ 0) {g : ℤ}
    (hg : (10 : ℚ) ^ g < spacing (x.magnitude - 1)) :
    ∃ c, onGrid? x.significand x.exponent g = some c := by
  have hmono : spacing (x.magnitude - 1) ≤ spacing x.magnitude := by
    have hpos : (0 : ℚ) < 2 ^ x.exponent := by positivity
    rw [spacing_pred_magnitude hx, spacing_magnitude]
    split
    · rw [zpow_sub₀ two_ne_zero]
      linarith
    · exact le_rfl
  -- a value no further off than half a step of the grid rounds to the number
  have hnear {v : ℚ} (hlow : x.value - 10 ^ g / 2 ≤ v) (hhigh : v ≤ x.value + 10 ^ g / 2) :
      RoundsTo x.magnitude v := by
    have hbelow : middle (x.magnitude - 1) < v := by
      rw [middle_pred_eq hx]
      linarith
    have habove : v < middle x.magnitude := by
      rw [middle, wordValue_magnitude]
      linarith
    exact ⟨magnitude_pos hx, hbelow.le, habove.le, fun _ => hbelow, fun _ => habove⟩
  have hfloor := gridFloor_le x g
  have hnext := lt_gridFloor_succ x g
  have hpos : (0 : ℚ) < 10 ^ g := by positivity
  have hstep : ((gridFloor x g + 1 : ℕ) : ℚ) * 10 ^ g = gridFloor x g * 10 ^ g + 10 ^ g := by
    push_cast
    ring
  apply exists_onGrid?_of_roundsTo hx
  rcases le_total (x.value - gridFloor x g * 10 ^ g) (10 ^ g / 2) with h | h
  · exact .inl (hnear (by linarith) (by linarith))
  · exact .inr (hnear (by linarith) (by linarith))

/-! ## The search -/

lemma lt_pow_digitCount (n : ℕ) : n < 10 ^ digitCount n :=
  (Nat.length_toDigits_le_iff (by decide) (Nat.length_toDigits_pos)).mp le_rfl

lemma pow_digitCount_le {n : ℕ} (hn : n ≠ 0) : 10 ^ (digitCount n - 1) ≤ n := by
  by_contra hlt
  rw [not_le] at hlt
  by_cases hone : digitCount n - 1 = 0
  · rw [hone] at hlt
    omega
  · have hcount := (Nat.length_toDigits_le_iff (by decide) (Nat.pos_of_ne_zero hone)).mpr hlt
    rw [← digitCount] at hcount
    omega

lemma zpow_floorLog10_le {num den : ℕ} (hnum : 0 < num) (hden : 0 < den) :
    (10 : ℚ) ^ Decimal.floorLog10 num den * den ≤ num := by
  rw [Decimal.floorLog10]
  split
  next h =>
    have hquotient : num / den ≠ 0 := (Nat.div_pos h hden).ne'
    have hcount : 0 < digitCount (num / den) := Nat.length_toDigits_pos
    have hle : 10 ^ (digitCount (num / den) - 1) * den ≤ num :=
      (Nat.mul_le_mul_right den (pow_digitCount_le hquotient)).trans (Nat.div_mul_le_self num den)
    rw [show (digitCount (num / den) : ℤ) - 1 = (digitCount (num / den) - 1 : ℕ) by omega,
      zpow_natCast]
    exact_mod_cast hle
  next h =>
    have hlt : den - 1 < 10 ^ digitCount ((den - 1) / num) * num :=
      Nat.lt_mul_of_div_lt (lt_pow_digitCount _) hnum
    have hle : den ≤ num * 10 ^ digitCount ((den - 1) / num) := by
      rw [mul_comm]
      omega
    rw [zpow_neg, zpow_natCast, inv_mul_le_iff₀ (by positivity), mul_comm]
    exact_mod_cast hle

/-- The leading digit of a number counts no more than the number. -/
lemma zpow_lead_le {x : Binary64} (hx : x.significand ≠ 0) :
    (10 : ℚ) ^ Decimal.floorLog10 (x.significand * 2 ^ x.exponent.toNat) (2 ^ (-x.exponent).toNat)
      ≤ x.value := by
  have hpos : (0 : ℚ) < (2 ^ (-x.exponent).toNat : ℕ) := by positivity
  have hle := zpow_floorLog10_le (show 0 < x.significand * 2 ^ x.exponent.toNat by positivity)
    (show 0 < 2 ^ (-x.exponent).toNat by positivity)
  rw [Nat.cast_mul, pow_toNat_eq two_pos x.exponent, ← mul_assoc] at hle
  exact le_of_mul_le_mul_right hle hpos

/-- Sixteen digits after the leading one make a grid finer than the spacing of the numbers. -/
lemma zpow_lt_spacing {x : Binary64} (hx : x.significand ≠ 0) {lead : ℤ}
    (hlead : (10 : ℚ) ^ lead ≤ x.value) :
    (10 : ℚ) ^ (lead - 16) < spacing (x.magnitude - 1) := by
  have hunit : (0 : ℚ) < 2 ^ x.exponent := by positivity
  have hstep : (10 : ℚ) ^ (lead - 16) * 10 ^ 16 ≤ x.significand * 2 ^ x.exponent := by
    rw [zpow_sub₀ (by norm_num), zpow_ofNat, div_mul_cancel₀ _ (by norm_num)]
    exact hlead
  rw [spacing_pred_magnitude hx]
  split
  next h =>
    rw [h.1] at hstep
    rw [zpow_sub₀ two_ne_zero]
    push_cast at hstep
    linarith
  next =>
    have hsignificand : (x.significand : ℚ) < 10 ^ 16 := by
      exact_mod_cast (significand_lt x).trans (by norm_num)
    have hlt : (x.significand : ℚ) * 2 ^ x.exponent < 10 ^ 16 * 2 ^ x.exponent :=
      mul_lt_mul_of_pos_right hsignificand hunit
    linarith

lemma value_stripZeros (fuel : ℕ) (d : Decimal) : (Decimal.stripZeros fuel d).value = d.value := by
  induction fuel generalizing d with
  | zero => rfl
  | succ fuel ih =>
    rw [Decimal.stripZeros]
    split
    next h =>
      have hcoefficient : d.coefficient = d.coefficient / 10 * 10 := by omega
      rw [ih, Decimal.value, Decimal.value, zpow_add_one₀ (by norm_num)]
      conv_rhs => rw [hcoefficient]
      push_cast
      ring
    next => rfl

/-- **The shortest decimal of a number rounds to it.** -/
lemma roundsTo_shortest {x : Binary64} (hx : x.significand ≠ 0) :
    RoundsTo x.magnitude x.shortest.value := by
  unfold shortest
  extract_lets m q lead found
  obtain ⟨c, hc⟩ := exists_onGrid?_of_lt hx (zpow_lt_spacing hx (zpow_lead_le hx))
  have hfound : found.isSome := by
    rw [List.findSome?_isSome_iff]
    refine ⟨16, by simp, ?_⟩
    rw [Option.isSome_map, Option.isSome_iff_exists]
    exact ⟨c, hc⟩
  obtain ⟨d, hd⟩ := Option.isSome_iff_exists.mp hfound
  obtain ⟨extra, -, hextra⟩ := List.exists_of_findSome?_eq_some hd
  obtain ⟨c, hc, rfl⟩ := Option.map_eq_some_iff.mp hextra
  rw [hd, Option.getD_some, Decimal.trimmed, value_stripZeros]
  exact roundsTo_of_onGrid? hx hc

lemma RoundsTo.value_pos {w : ℕ} {v : ℚ} (h : RoundsTo w v) : 0 < v := by
  have hmiddle : 0 < middle (w - 1) := by
    rw [middle, wordValue]
    have hspacing := spacing_pos (w - 1)
    positivity
  exact hmiddle.trans_le h.low

/-! ## The decimal of a number -/

/-- The decimal that a number is written with. -/
def written (x : Binary64) : Decimal :=
  if x.significand = 0 then ⟨0, 0⟩ else x.shortest

lemma magnitude_eq_zero {x : Binary64} (hx : x.significand = 0) : x.magnitude = 0 := by
  rw [significand, field_eq, fraction_eq] at hx
  split at hx <;> omega

lemma eq_of_magnitude {x y : Binary64} (hnegative : x.negative = y.negative)
    (hmagnitude : x.magnitude = y.magnitude) : x = y := by
  obtain ⟨v⟩ := x
  obtain ⟨w⟩ := y
  rw [negative, negative, Bool.eq_iff_iff, beq_iff_eq, beq_iff_eq] at hnegative
  rw [magnitude, magnitude] at hmagnitude
  have hv := v.toNat_lt
  have hw := w.toNat_lt
  exact congrArg mk (UInt64.toNat_inj.mp (by dsimp only at *; omega))

/-- **Two numbers of one sign that are written with the same decimal are the same.** -/
lemma eq_of_written {x y : Binary64} (hnegative : x.negative = y.negative)
    (hvalue : x.written.value = y.written.value) : x = y := by
  refine eq_of_magnitude hnegative ?_
  have hzero : Decimal.value ⟨0, 0⟩ = 0 := by simp [Decimal.value]
  rw [written, written] at hvalue
  split at hvalue <;> split at hvalue
  next hx hy => rw [magnitude_eq_zero hx, magnitude_eq_zero hy]
  next hx hy =>
    have hpos := (roundsTo_shortest hy).value_pos
    rw [← hvalue, hzero] at hpos
    exact absurd hpos (lt_irrefl 0)
  next hx hy =>
    have hpos := (roundsTo_shortest hx).value_pos
    rw [hvalue, hzero] at hpos
    exact absurd hpos (lt_irrefl 0)
  next hx hy =>
    have hrounds := roundsTo_shortest hx
    rw [hvalue] at hrounds
    exact hrounds.unique (roundsTo_shortest hy)

end Binary64

end DomainDesign
