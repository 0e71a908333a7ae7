import Mathlib.Algebra.Order.Field.Power
import Mathlib.Data.Rat.Cast.Order
import Mathlib.Tactic.FieldSimp
import Mathlib.Tactic.Linarith
import Mathlib.Tactic.NormNum
import Mathlib.Tactic.Positivity
import Mathlib.Tactic.Ring
import TopologyAudit.Numeral.Binary64

/-!
# Rounding to the nearest double

A positive quotient is rounded on a grid of multiples of a power of two. The exponent of the
grid is determined by the quotient alone (`IsGridExponent`), and so is its rounded value
(`roundMagnitude_congr`): it does not matter by which numerator and denominator the quotient
is given. What lies closer than half a step to a multiple rounds to it
(`roundMagnitude_of_near`).
-/

namespace TopologyAudit.Binary64

variable {num den : Nat} {q : Int}

/-! ## Powers of two -/

theorem scale_snd_pos (m : Nat) (q : Int) : 0 < (scale m q).2 := by
  cases q with
  | ofNat n => exact Nat.one_pos
  | negSucc n =>
    rw [scale, Nat.one_shiftLeft]
    exact Nat.two_pow_pos _

/-- What numerator and denominator stand for. -/
theorem scale_div (m : Nat) (q : Int) : ((scale m q).1 / (scale m q).2 : ℚ) = m * 2 ^ q := by
  cases q with
  | ofNat n =>
    simp only [scale, Nat.shiftLeft_eq, Int.ofNat_eq_natCast, zpow_natCast]
    push_cast
    rw [div_one]
  | negSucc n =>
    simp only [scale, Nat.one_shiftLeft, zpow_negSucc]
    push_cast
    rw [div_eq_mul_inv]

theorem scale_fst (m : Nat) (q : Int) : ((scale m q).1 : ℚ) = m * 2 ^ q * (scale m q).2 := by
  have hpos : (0 : ℚ) < (scale m q).2 := Nat.cast_pos.mpr (scale_snd_pos m q)
  rw [← scale_div, div_mul_cancel₀ _ hpos.ne']

/-- The quotient in steps of a grid. -/
theorem div_scale (num : Nat) (hden : 0 < den) (q : Int) :
    ((num * (scale den q).2 : Nat) / (scale den q).1 : ℚ) = num / den / 2 ^ q := by
  have hpos : (0 : ℚ) < (scale den q).2 := Nat.cast_pos.mpr (scale_snd_pos den q)
  have hden' : (0 : ℚ) < den := Nat.cast_pos.mpr hden
  have hstep : (0 : ℚ) < 2 ^ q := zpow_pos two_pos q
  rw [scale_fst, Nat.cast_mul]
  field_simp

theorem fits_iff (num : Nat) (hden : 0 < den) (q : Int) :
    num * (scale den q).2 < (scale den q).1 <<< 53 ↔ (num / den : ℚ) < 2 ^ (q + 53) := by
  have hpos : (0 : ℚ) < (scale den q).2 := Nat.cast_pos.mpr (scale_snd_pos den q)
  have hden' : (0 : ℚ) < den := Nat.cast_pos.mpr hden
  have hright : ((scale den q).1 <<< 53 : Nat) = (2 ^ (q + 53) * den * (scale den q).2 : ℚ) := by
    rw [Nat.shiftLeft_eq, Nat.cast_mul, scale_fst, zpow_add₀ two_ne_zero]
    push_cast
    ring
  rw [← Nat.cast_lt (α := ℚ), hright, Nat.cast_mul, mul_lt_mul_iff_left₀ hpos, div_lt_iff₀ hden']

/-! ## The grid -/

/-- The exponent of the grid on which a quotient is rounded: the rounded value has
fifty-three bits, or less at the bottom of the range. -/
structure IsGridExponent (r : ℚ) (q : Int) : Prop where
  bottom : -1074 ≤ q
  lt : r < 2 ^ (q + 53)
  le : q = -1074 ∨ 2 ^ (q + 52) ≤ r

theorem IsGridExponent.le_of {r : ℚ} {q q' : Int} (h : IsGridExponent r q)
    (h' : IsGridExponent r q') : q ≤ q' := by
  rcases h.le with hbottom | hle
  · rw [hbottom]
    exact h'.bottom
  · have hpow : (2 : ℚ) ^ (q + 52) < 2 ^ (q' + 53) := lt_of_le_of_lt hle h'.lt
    have hlt := (zpow_lt_zpow_iff_right₀ one_lt_two).mp hpow
    omega

/-- **A quotient has one grid.** -/
theorem IsGridExponent.unique {r : ℚ} {q q' : Int} (h : IsGridExponent r q)
    (h' : IsGridExponent r q') : q = q' :=
  le_antisymm (h.le_of h') (h'.le_of h)

/-- The logarithms of numerator and denominator place the quotient between two powers. -/
theorem two_zpow_log2_lt (hnum : 0 < num) (hden : 0 < den) :
    (2 : ℚ) ^ ((num.log2 : Int) - den.log2 - 1) < num / den ∧
      (num / den : ℚ) < 2 ^ ((num.log2 : Int) - den.log2 + 1) := by
  have hnum' : (0 : ℚ) < num := Nat.cast_pos.mpr hnum
  have hden' : (0 : ℚ) < den := Nat.cast_pos.mpr hden
  have hnumLe : (2 : ℚ) ^ (num.log2 : Int) ≤ num := by
    rw [zpow_natCast]
    exact_mod_cast Nat.log2_self_le hnum.ne'
  have hnumLt : (num : ℚ) < 2 ^ ((num.log2 : Int) + 1) := by
    exact_mod_cast Nat.lt_log2_self (n := num)
  have hdenLe : (2 : ℚ) ^ (den.log2 : Int) ≤ den := by
    rw [zpow_natCast]
    exact_mod_cast Nat.log2_self_le hden.ne'
  have hdenLt : (den : ℚ) < 2 ^ ((den.log2 : Int) + 1) := by
    exact_mod_cast Nat.lt_log2_self (n := den)
  constructor
  · rw [lt_div_iff₀ hden']
    calc (2 : ℚ) ^ ((num.log2 : Int) - den.log2 - 1) * den
        < 2 ^ ((num.log2 : Int) - den.log2 - 1) * 2 ^ ((den.log2 : Int) + 1) :=
          mul_lt_mul_of_pos_left hdenLt (zpow_pos two_pos _)
      _ = 2 ^ (num.log2 : Int) := by
          rw [← zpow_add₀ two_ne_zero]
          congr 1
          omega
      _ ≤ num := hnumLe
  · rw [div_lt_iff₀ hden']
    calc (num : ℚ) < 2 ^ ((num.log2 : Int) + 1) := hnumLt
      _ = 2 ^ ((num.log2 : Int) - den.log2 + 1) * 2 ^ (den.log2 : Int) := by
          rw [← zpow_add₀ two_ne_zero]
          congr 1
          omega
      _ ≤ 2 ^ ((num.log2 : Int) - den.log2 + 1) * den :=
          mul_le_mul_of_nonneg_left hdenLe (zpow_pos two_pos _).le

/-- An exponent that places a quotient between two powers gives its grid, unless the grid at
the bottom is coarser. -/
theorem isGridExponent_max {r : ℚ} (hle : 2 ^ (q + 52) ≤ r) (hlt : r < 2 ^ (q + 53)) :
    IsGridExponent r (max (-1074) q) := by
  refine ⟨le_max_left .., lt_of_lt_of_le hlt ?_, ?_⟩
  · exact zpow_le_zpow_right₀ one_le_two (by omega)
  · rcases le_total q (-1074) with hq | hq
    · exact .inl (max_eq_left hq)
    · rw [max_eq_right hq]
      exact .inr hle

/-- The exponent that rounding chooses: the estimate from the logarithms, or the next one. -/
theorem isGridExponent_estimate (hnum : 0 < num) (hden : 0 < den) {estimate : Int}
    (hestimate : estimate = num.log2 - den.log2 - 53) :
    IsGridExponent (num / den : ℚ) (max (-1074)
      (if num * (scale den estimate).2 < (scale den estimate).1 <<< 53 then estimate
        else estimate + 1)) := by
  obtain ⟨hlow, hhigh⟩ := two_zpow_log2_lt hnum hden
  split_ifs with hfits
  · rw [fits_iff num hden] at hfits
    refine isGridExponent_max (le_of_eq_of_le ?_ hlow.le) hfits
    rw [hestimate]
    congr 1
    ring
  · rw [fits_iff num hden, not_lt] at hfits
    refine isGridExponent_max (le_of_eq_of_le ?_ hfits) (lt_of_lt_of_eq hhigh ?_)
    · congr 1
      ring
    · rw [hestimate]
      congr 1
      ring

/-- **What rounding computes**, on the grid of the quotient. -/
theorem roundMagnitude_eq (hnum : 0 < num) (hden : 0 < den)
    (hq : IsGridExponent (num / den : ℚ) q) :
    roundMagnitude num den =
      min infinityBits ((q + 1074).toNat <<< 52 +
        roundQuotient (num * (scale den q).2) (scale den q).1) := by
  have hchosen := (isGridExponent_estimate hnum hden rfl).unique hq
  unfold roundMagnitude
  rw [if_neg hnum.ne']
  simp only [decide_eq_true_eq, hchosen]

theorem exists_isGridExponent (hnum : 0 < num) (hden : 0 < den) :
    ∃ q, IsGridExponent (num / den : ℚ) q :=
  ⟨_, isGridExponent_estimate hnum hden rfl⟩

/-! ## Rounding a quotient -/

theorem roundQuotient_mul_right (num den : Nat) {k : Nat} (hk : 0 < k) :
    roundQuotient (num * k) (den * k) = roundQuotient num den := by
  unfold roundQuotient
  rw [Nat.mul_div_mul_right _ _ hk, Nat.mul_mod_mul_right, ← Nat.mul_assoc]
  simp only [Nat.mul_lt_mul_right hk]

/-- A quotient is rounded by its value. -/
theorem roundQuotient_congr {num' den' : Nat} (hden : 0 < den) (hden' : 0 < den')
    (h : (num / den : ℚ) = num' / den') : roundQuotient num den = roundQuotient num' den' := by
  have hcross : num * den' = num' * den := by
    rw [div_eq_div_iff (Nat.cast_ne_zero.mpr hden.ne') (Nat.cast_ne_zero.mpr hden'.ne')] at h
    exact_mod_cast h
  rw [← roundQuotient_mul_right num den hden', ← roundQuotient_mul_right num' den' hden, hcross,
    Nat.mul_comm den]

/-- What lies closer than one half to a whole number is rounded to it. -/
theorem roundQuotient_of_near (hden : 0 < den) {m : Nat} (h : |(num / den : ℚ) - m| < 1 / 2) :
    roundQuotient num den = m := by
  have hden' : (0 : ℚ) < den := Nat.cast_pos.mpr hden
  obtain ⟨hlow, hhigh⟩ := abs_lt.mp h
  -- the bounds as whole numbers
  have hlow' : 2 * m * den < 2 * num + den := by
    have hlt : (m : ℚ) - 1 / 2 < num / den := by linarith
    rw [lt_div_iff₀ hden'] at hlt
    have hcast : (2 * m * den : ℚ) < 2 * num + den := by linarith
    exact_mod_cast hcast
  have hhigh' : 2 * num < 2 * m * den + den := by
    have hlt : (num / den : ℚ) < m + 1 / 2 := by linarith
    rw [div_lt_iff₀ hden'] at hlt
    have hcast : (2 * num : ℚ) < 2 * m * den + den := by linarith
    exact_mod_cast hcast
  have hmod := Nat.mod_lt num hden
  have hdiv := Nat.div_add_mod num den
  have hcancel : ∀ {a b : Nat}, a * den < b * den → a < b := Nat.lt_of_mul_lt_mul_right
  unfold roundQuotient
  dsimp only
  split_ifs with hless hmore
  · have hle : m < num / den + 1 := hcancel (by linarith)
    have hge : 2 * (num / den) < 2 * m + 1 := hcancel (by linarith [Nat.zero_le (num % den)])
    omega
  · have hle : 2 * m < 2 * (num / den) + 3 := hcancel (by linarith)
    have hge : num / den < m := hcancel (by linarith)
    omega
  -- a tie is not close
  · have hle : m < num / den + 1 := hcancel (by linarith)
    have hge : num / den < m := hcancel (by linarith)
    omega

/-! ## Rounding to a double -/

theorem scale_fst_pos (hden : 0 < den) (q : Int) : 0 < (scale den q).1 := by
  have hpos : (0 : ℚ) < (scale den q).1 := by
    rw [scale_fst]
    have hsnd := scale_snd_pos den q
    positivity
  exact_mod_cast hpos

/-- **A quotient is rounded by its value**, whatever its numerator and denominator are. -/
theorem roundMagnitude_congr {num' den' : Nat} (hnum : 0 < num) (hden : 0 < den) (hnum' : 0 < num')
    (hden' : 0 < den') (h : (num / den : ℚ) = num' / den') :
    roundMagnitude num den = roundMagnitude num' den' := by
  obtain ⟨q, hq⟩ := exists_isGridExponent hnum hden
  have hsteps : ((num * (scale den q).2 : Nat) / (scale den q).1 : ℚ) =
      (num' * (scale den' q).2 : Nat) / (scale den' q).1 := by
    rw [div_scale num hden, div_scale num' hden', h]
  rw [roundMagnitude_eq hnum hden hq, roundMagnitude_eq hnum' hden' (h ▸ hq),
    roundQuotient_congr (scale_fst_pos hden q) (scale_fst_pos hden' q) hsteps]

/-- What lies closer than half a step to a multiple of the step rounds to it. -/
theorem roundMagnitude_of_near (hnum : 0 < num) (hden : 0 < den)
    (hq : IsGridExponent (num / den : ℚ) q) {m : Nat}
    (hnear : |(num / den : ℚ) - m * 2 ^ q| < 2 ^ q / 2) :
    roundMagnitude num den = min infinityBits ((q + 1074).toNat <<< 52 + m) := by
  have hstep : (0 : ℚ) < 2 ^ q := zpow_pos two_pos q
  have hsteps : |((num * (scale den q).2 : Nat) / (scale den q).1 : ℚ) - m| < 1 / 2 := by
    have hmul : ((num / den / 2 ^ q - m) * 2 ^ q : ℚ) = num / den - m * 2 ^ q := by
      field_simp
    rw [div_scale num hden]
    refine lt_of_mul_lt_mul_right ?_ hstep.le
    calc |(num / den / 2 ^ q - m : ℚ)| * 2 ^ q
        = |(num / den : ℚ) - m * 2 ^ q| := by rw [← hmul, abs_mul, abs_of_pos hstep]
      _ < 2 ^ q / 2 := hnear
      _ = 1 / 2 * 2 ^ q := by ring
  rw [roundMagnitude_eq hnum hden hq, roundQuotient_of_near (scale_fst_pos hden q) hsteps]

/-! ## Where rounding leaves the range -/

/-- What does not round to infinity is not far beyond the greatest double. -/
theorem lt_of_roundMagnitude_lt (hnum : 0 < num) (hden : 0 < den)
    (h : roundMagnitude num den < infinityBits) : (num / den : ℚ) < 2 ^ (1026 : Int) := by
  obtain ⟨q, hq⟩ := exists_isGridExponent hnum hden
  rw [roundMagnitude_eq hnum hden hq, min_lt_iff, or_iff_right (lt_irrefl _), infinityBits,
    Nat.shiftLeft_eq, Nat.shiftLeft_eq] at h
  have hexponent : (q + 1074).toNat < 2047 := by omega
  exact lt_of_lt_of_le hq.lt (zpow_le_zpow_right₀ one_le_two (by omega))

/-- What does not round to zero is not far below the least double. -/
theorem lt_of_roundMagnitude_pos (hnum : 0 < num) (hden : 0 < den)
    (h : 0 < roundMagnitude num den) : 2 ^ (-1076 : Int) < (num / den : ℚ) := by
  by_contra hle
  rw [not_lt] at hle
  have hq : IsGridExponent (num / den : ℚ) (-1074) :=
    ⟨le_refl _, lt_of_le_of_lt hle (zpow_lt_zpow_right₀ one_lt_two (by decide)), .inl rfl⟩
  have hnear : |(num / den : ℚ) - (0 : Nat) * 2 ^ (-1074 : Int)| < 2 ^ (-1074 : Int) / 2 := by
    have hhalf : (2 : ℚ) ^ (-1074 : Int) / 2 = 2 ^ (-1075 : Int) := by
      rw [show (-1075 : Int) = -1074 - 1 by decide, zpow_sub_one₀ two_ne_zero, div_eq_mul_inv]
    rw [Nat.cast_zero, zero_mul, sub_zero, abs_of_nonneg (by positivity), hhalf]
    exact lt_of_le_of_lt hle (zpow_lt_zpow_right₀ one_lt_two (by decide))
  rw [roundMagnitude_of_near hnum hden hq hnear] at h
  exact absurd h (by decide)

/-! ## Doubles -/

variable {x : Binary64}

/-- What a finite double stands for, without its sign. -/
def absValue (x : Binary64) : ℚ := x.significand * 2 ^ x.exponent

theorem ratio_div (x : Binary64) : (x.ratio.1 / x.ratio.2 : ℚ) = x.absValue :=
  scale_div x.significand x.exponent

theorem significand_eq (x : Binary64) :
    x.significand =
      if x.magnitude < 2 ^ 52 then x.magnitude % 2 ^ 52 else 2 ^ 52 + x.magnitude % 2 ^ 52 := by
  rw [significand, Nat.one_shiftLeft]

theorem significand_lt (x : Binary64) : x.significand < 2 ^ 53 := by
  rw [significand_eq]
  split_ifs <;> omega

theorem le_exponent (x : Binary64) : -1074 ≤ x.exponent := by
  rw [exponent]
  omega

/-- Above the bottom of the range significands have all their bits. -/
theorem le_significand (x : Binary64) (h : x.exponent ≠ -1074) : 2 ^ 52 ≤ x.significand := by
  rw [exponent, Nat.shiftRight_eq_div_pow] at h
  rw [significand_eq]
  split_ifs <;> omega

/-- The bits of a double from its significand and its exponent. -/
theorem magnitude_eq (x : Binary64) :
    (x.exponent + 1074).toNat <<< 52 + x.significand = x.magnitude := by
  rw [exponent, significand_eq, Nat.shiftLeft_eq, Nat.shiftRight_eq_div_pow]
  split_ifs <;> omega

theorem significand_pos (h : x.magnitude ≠ 0) : 0 < x.significand := by
  rw [significand_eq]
  split_ifs <;> omega

theorem absValue_pos (h : x.magnitude ≠ 0) : 0 < x.absValue :=
  mul_pos (Nat.cast_pos.mpr (significand_pos h)) (zpow_pos two_pos _)

/-- A value less than half a step from a double, but below the power of two from which the
steps are that wide, is next to the power. -/
theorem significand_eq_of_below {q : ℚ} (hbottom : x.exponent ≠ -1074)
    (hbelow : q < 2 ^ (x.exponent + 52)) (hlow : -(2 ^ x.exponent / 2) < q - x.absValue) :
    x.significand = 2 ^ 52 := by
  have hstep : (0 : ℚ) < 2 ^ x.exponent := zpow_pos two_pos _
  have hfull : 2 ^ 52 ≤ x.significand := x.le_significand hbottom
  have hlt : (x.significand : ℚ) < 2 ^ 52 + 1 := by
    refine lt_of_mul_lt_mul_right ?_ hstep.le
    rw [zpow_add₀ two_ne_zero] at hbelow
    rw [absValue] at hlow
    norm_num at hbelow ⊢
    linarith
  have hlt' : x.significand < 2 ^ 52 + 1 := by exact_mod_cast hlt
  omega

/-- A power of two is the end of the finer grid below it. -/
theorem magnitude_eq_of_power (hbottom : x.exponent ≠ -1074) (hpower : x.significand = 2 ^ 52) :
    (x.exponent - 1 + 1074).toNat <<< 52 + 2 ^ 53 = x.magnitude := by
  have hle := x.le_exponent
  rw [← x.magnitude_eq, hpower, Nat.shiftLeft_eq, Nat.shiftLeft_eq]
  omega

/-- **What rounds to a double**: at least all that differs from it by no more than half of a
unit in its seventeenth decimal digit. -/
theorem roundMagnitude_of_close (hfinite : x.isFinite = true) (hnum : 0 < num) (hden : 0 < den)
    (hclose : |(num / den : ℚ) - x.absValue| * (2 * 10 ^ 16) ≤ x.absValue) :
    roundMagnitude num den = x.magnitude := by
  have hstep : (0 : ℚ) < 2 ^ x.exponent := zpow_pos two_pos _
  have hbits : (x.significand + 1 : ℚ) ≤ 2 ^ 53 := by exact_mod_cast x.significand_lt
  have hvalue : x.absValue ≤ (2 ^ 53 - 1) * 2 ^ x.exponent :=
    mul_le_mul_of_nonneg_right (by linarith) hstep.le
  have hmagnitude : x.magnitude < infinityBits := of_decide_eq_true hfinite
  have hnear : |(num / den : ℚ) - x.absValue| < 2 ^ x.exponent / 2 := by linarith
  obtain ⟨hlow, hhigh⟩ := abs_lt.mp hnear
  by_cases hgrid : x.exponent = -1074 ∨ 2 ^ (x.exponent + 52) ≤ (num / den : ℚ)
  · have hq : IsGridExponent (num / den : ℚ) x.exponent := by
      refine ⟨x.le_exponent, ?_, hgrid⟩
      rw [zpow_add₀ two_ne_zero]
      norm_num
      linarith
    rw [roundMagnitude_of_near hnum hden hq hnear, x.magnitude_eq, min_eq_right hmagnitude.le]
  · -- below a power of two the grid is finer, and the power is twice as many of its steps
    rw [not_or, not_le] at hgrid
    obtain ⟨hbottom, hbelow⟩ := hgrid
    have hpower := significand_eq_of_below hbottom hbelow hlow
    have hhalf : (2 : ℚ) ^ (x.exponent - 1) = 2 ^ x.exponent / 2 := by
      rw [zpow_sub_one₀ two_ne_zero, div_eq_mul_inv]
    have hvalue' : x.absValue = (2 ^ 53 : Nat) * 2 ^ (x.exponent - 1) := by
      rw [absValue, hpower, hhalf]
      push_cast
      ring
    rw [zpow_add₀ two_ne_zero] at hbelow
    rw [hvalue', hhalf] at hlow hclose
    have hq : IsGridExponent (num / den : ℚ) (x.exponent - 1) := by
      have hle := x.le_exponent
      refine ⟨by omega, ?_, .inr ?_⟩ <;> rw [zpow_add₀ two_ne_zero, hhalf]
      · norm_num at hbelow ⊢
        linarith
      · norm_num at hlow ⊢
        linarith
    have hnear' : |(num / den : ℚ) - (2 ^ 53 : Nat) * 2 ^ (x.exponent - 1)| <
        2 ^ (x.exponent - 1) / 2 := by
      rw [hhalf]
      norm_num at hclose ⊢
      linarith
    rw [roundMagnitude_of_near hnum hden hq hnear', magnitude_eq_of_power hbottom hpower,
      min_eq_right hmagnitude.le]

end TopologyAudit.Binary64
