import TopologyAudit.Numeral.Decimal
import TopologyAudit.Proofs.Numeral.Range
import TopologyAudit.Proofs.Numeral.Rounding

/-!
# The shortest decimal reads back

The search over grids of more and more digits finds a decimal that reads back: on the grid
of seventeen digits the nearer neighbour of a double differs from it by so little that it
rounds to it (`exists_hit`), and what the search returns is the first hit
(`readsBack_shortest`).
-/

namespace TopologyAudit

namespace Binary64

variable {num den : Nat} {e : Int}

/-! ## Powers of ten -/

theorem decimalRatio_snd_pos (digits : Nat) (e : Int) : 0 < (decimalRatio digits e).2 := by
  cases e with
  | ofNat n => exact Nat.one_pos
  | negSucc n => exact Nat.pow_pos (by decide)

theorem decimalRatio_div (digits : Nat) (e : Int) :
    ((decimalRatio digits e).1 / (decimalRatio digits e).2 : ℚ) = digits * 10 ^ e := by
  cases e with
  | ofNat n =>
    simp only [decimalRatio, Nat.pow_eq, Int.ofNat_eq_natCast, zpow_natCast]
    push_cast
    rw [div_one]
  | negSucc n =>
    simp only [decimalRatio, Nat.pow_eq, zpow_negSucc]
    push_cast
    rw [div_eq_mul_inv]

theorem decimalRatio_fst (digits : Nat) (e : Int) :
    ((decimalRatio digits e).1 : ℚ) = digits * 10 ^ e * (decimalRatio digits e).2 := by
  have hpos : (0 : ℚ) < (decimalRatio digits e).2 := Nat.cast_pos.mpr (decimalRatio_snd_pos digits e)
  rw [← decimalRatio_div, div_mul_cancel₀ _ hpos.ne']

theorem decimalRatio_fst_pos {digits : Nat} (h : 0 < digits) (e : Int) :
    0 < (decimalRatio digits e).1 := by
  have hpos : (0 : ℚ) < (decimalRatio digits e).1 := by
    rw [decimalRatio_fst]
    have hsnd := decimalRatio_snd_pos digits e
    positivity
  exact_mod_cast hpos

/-- A number that is not zero has a first digit. -/
theorem pow_digitCount_le {n : Nat} (h : 0 < n) : 10 ^ (digitCount n - 1) ≤ n := by
  by_contra hlt
  have hcount := digitCount_le_iff.mpr (Nat.lt_of_not_le hlt)
  have hpos : ¬digitCount n ≤ 0 := by
    rw [digitCount_le_iff]
    omega
  omega

theorem lt_pow_digitCount (n : Nat) : n < 10 ^ digitCount n :=
  digitCount_le_iff.mp le_rfl

theorem digitCount_pos {n : Nat} (h : 0 < n) : 0 < digitCount n := by
  by_contra hle
  have hlt := digitCount_le_iff.mp (Nat.le_of_not_lt hle)
  omega

/-- The first digit of a quotient stands where its leading exponent says. -/
theorem zpow_leadingExponent (hnum : 0 < num) (hden : 0 < den) :
    (10 : ℚ) ^ leadingExponent num den ≤ num / den ∧
      (num / den : ℚ) < 10 ^ (leadingExponent num den + 1) := by
  have hnum' : (0 : ℚ) < num := Nat.cast_pos.mpr hnum
  have hden' : (0 : ℚ) < den := Nat.cast_pos.mpr hden
  unfold leadingExponent
  split_ifs with h
  · have hpos : 0 < num / den := Nat.div_pos h hden
    have hcount := digitCount_pos hpos
    have hexponent : (digitCount (num / den) : Int) - 1 = (digitCount (num / den) - 1 : Nat) := by
      omega
    constructor
    · have hle := (Nat.le_div_iff_mul_le hden).mp (pow_digitCount_le hpos)
      rw [hexponent, zpow_natCast, le_div_iff₀ hden']
      exact_mod_cast hle
    · have hlt := (Nat.div_lt_iff_lt_mul hden).mp (lt_pow_digitCount (num / den))
      rw [sub_add_cancel, zpow_natCast, div_lt_iff₀ hden']
      exact_mod_cast hlt
  · have hpos : 0 < (den - 1) / num := Nat.div_pos (by omega) hnum
    have hcount := digitCount_pos hpos
    have hexponent : -(digitCount ((den - 1) / num) : Int) + 1 =
        -(digitCount ((den - 1) / num) - 1 : Nat) := by
      omega
    constructor
    · have hlt := (Nat.div_lt_iff_lt_mul hnum).mp (lt_pow_digitCount ((den - 1) / num))
      have hle : den ≤ num * 10 ^ digitCount ((den - 1) / num) := by
        rw [Nat.mul_comm]
        omega
      rw [zpow_neg, zpow_natCast, inv_le_comm₀ (by positivity) (by positivity), inv_div,
        div_le_iff₀ hnum', mul_comm]
      exact_mod_cast hle
    · have hle := (Nat.le_div_iff_mul_le hnum).mp (pow_digitCount_le hpos)
      have hlt : num * 10 ^ (digitCount ((den - 1) / num) - 1) < den := by
        rw [Nat.mul_comm]
        omega
      rw [hexponent, zpow_neg, zpow_natCast, lt_inv_comm₀ (by positivity) (by positivity), inv_div,
        lt_div_iff₀ hnum', mul_comm]
      exact_mod_cast hlt

/-! ## Neighbours on a decimal grid -/

/-- The lower of the two neighbours of a quotient on the grid of a power of ten. -/
def neighbour (num den : Nat) (e : Int) : Nat :=
  num * (decimalRatio den e).2 / (decimalRatio den e).1

theorem neighbour_bounds (hden : 0 < den) (num : Nat) (e : Int) :
    (neighbour num den e : ℚ) * 10 ^ e ≤ num / den ∧
      (num / den : ℚ) < (neighbour num den e + 1) * 10 ^ e := by
  have hfst := decimalRatio_fst_pos hden e
  have hsnd : (0 : ℚ) < (decimalRatio den e).2 := Nat.cast_pos.mpr (decimalRatio_snd_pos den e)
  have hden' : (0 : ℚ) < den := Nat.cast_pos.mpr hden
  constructor
  · have hle : neighbour num den e * (decimalRatio den e).1 ≤ num * (decimalRatio den e).2 := Nat.div_mul_le_self ..
    have hle' : (neighbour num den e * (decimalRatio den e).1 : ℚ) ≤ num * (decimalRatio den e).2 := by
      exact_mod_cast hle
    rw [decimalRatio_fst] at hle'
    rw [le_div_iff₀ hden']
    refine le_of_mul_le_mul_right ?_ hsnd
    linarith
  · have hlt : num * (decimalRatio den e).2 < (neighbour num den e + 1) * (decimalRatio den e).1 := by
      rw [Nat.mul_comm (neighbour num den e + 1)]
      exact Nat.lt_mul_div_succ _ hfst
    have hlt' : (num * (decimalRatio den e).2 : ℚ) < (neighbour num den e + 1) * (decimalRatio den e).1 := by
      exact_mod_cast hlt
    rw [decimalRatio_fst] at hlt'
    rw [div_lt_iff₀ hden']
    refine lt_of_mul_lt_mul_right ?_ hsnd.le
    linarith

variable {x : Binary64}

theorem readsBack_of_close (hfinite : x.isFinite = true) {digits : Nat} (hdigits : 0 < digits)
    (hclose : |(digits * 10 ^ e : ℚ) - x.absValue| * (2 * 10 ^ 16) ≤ x.absValue) :
    readsBack x.magnitude digits e = true := by
  rw [readsBack, decide_eq_true_eq]
  refine roundMagnitude_of_close hfinite (decimalRatio_fst_pos hdigits e)
    (decimalRatio_snd_pos digits e) ?_
  rw [decimalRatio_div]
  exact hclose

/-- That one of the neighbours of a quotient on a grid reads back. -/
def HasHit (magnitude num den : Nat) (e : Int) : Prop :=
  readsBack magnitude (neighbour num den e) e = true ∨
    readsBack magnitude (neighbour num den e + 1) e = true

/-- **Seventeen digits suffice.** One of the neighbours of a double reads back on a grid with
a step of no more than a unit in its seventeenth digit. -/
theorem hasHit_of_le (hfinite : x.isFinite = true) (hgrid : 10 ^ (e + 16) ≤ x.absValue) :
    HasHit x.magnitude x.ratio.1 x.ratio.2 e := by
  have hden : 0 < x.ratio.2 := scale_snd_pos ..
  have hstep : (0 : ℚ) < 10 ^ e := zpow_pos (by norm_num) e
  have hunit : (10 : ℚ) ^ e * 10 ^ 16 ≤ x.absValue := by
    rw [zpow_add₀ (by norm_num)] at hgrid
    exact_mod_cast hgrid
  obtain ⟨hle, hlt⟩ := neighbour_bounds hden x.ratio.1 e
  rw [ratio_div] at hle hlt
  by_cases hnearer : x.absValue - neighbour x.ratio.1 x.ratio.2 e * 10 ^ e ≤ 10 ^ e / 2
  · refine .inl (readsBack_of_close hfinite ?_ ?_)
    · have hlow : (0 : ℚ) < neighbour x.ratio.1 x.ratio.2 e := by
        refine lt_of_mul_lt_mul_right ?_ hstep.le
        linarith
      exact_mod_cast hlow
    · rw [abs_sub_comm, abs_of_nonneg (by linarith)]
      linarith
  · refine .inr (readsBack_of_close hfinite (Nat.succ_pos _) ?_)
    push_cast
    rw [abs_of_nonneg (by linarith)]
    linarith

/-! ## The search -/

variable {magnitude : Nat} {first : Int}

/-- A step of the search: a hit is returned, and without one the next grid is tried. -/
theorem shortestFrom_succ (magnitude num den : Nat) (first : Int) (fuel count : Nat) :
    readsBack magnitude (shortestFrom magnitude num den first (fuel + 1) count).1
        (shortestFrom magnitude num den first (fuel + 1) count).2 = true ∨
      ¬HasHit magnitude num den (first - count + 1) ∧
        shortestFrom magnitude num den first (fuel + 1) count =
          shortestFrom magnitude num den first fuel (count + 1) := by
  rw [shortestFrom]
  dsimp only
  split_ifs with hlow hhigh
  · exact .inl (Bool.and_eq_true_iff.mp hlow).1
  · exact .inl hhigh
  · refine .inr ⟨?_, rfl⟩
    intro hhit
    rcases hhit with hhit | hhit
    -- a lower neighbour that reads back is returned when the upper one does not
    · rw [Bool.eq_false_iff.mpr hhigh] at hlow
      exact hlow (by simpa [neighbour] using hhit)
    · exact hhigh hhit

/-- **The search finds what there is.** If the last grid it may try has a hit, then what it
returns reads back. -/
theorem readsBack_shortestFrom (fuel : Nat) :
    ∀ {count : Nat}, HasHit magnitude num den (first - (count + fuel : Nat) + 1) →
      readsBack magnitude (shortestFrom magnitude num den first (fuel + 1) count).1
        (shortestFrom magnitude num den first (fuel + 1) count).2 = true := by
  induction fuel with
  | zero =>
    intro count hlast
    rcases shortestFrom_succ magnitude num den first 0 count with hfound | ⟨hmiss, -⟩
    · exact hfound
    · exact absurd hlast hmiss
  | succ fuel ih =>
    intro count hlast
    rcases shortestFrom_succ magnitude num den first (fuel + 1) count with hfound | ⟨-, hnext⟩
    · exact hfound
    · rw [hnext]
      refine ih ?_
      rwa [Nat.add_right_comm, Nat.add_assoc]

/-- **The shortest decimal of a double reads back.** -/
theorem readsBack_shortest (hfinite : x.isFinite = true) (hpos : x.magnitude ≠ 0) :
    readsBack x.magnitude x.shortest.1 x.shortest.2 = true := by
  have hden : 0 < x.ratio.2 := scale_snd_pos ..
  have hnum : 0 < x.ratio.1 := by
    have hvalue := absValue_pos hpos
    rw [← ratio_div, div_pos_iff_of_pos_right (Nat.cast_pos.mpr hden)] at hvalue
    exact_mod_cast hvalue
  have hfirst := (zpow_leadingExponent hnum hden).1
  rw [ratio_div] at hfirst
  have hhit : HasHit x.magnitude x.ratio.1 x.ratio.2
      (leadingExponent x.ratio.1 x.ratio.2 - (1 + 16 : Nat) + 1) := by
    refine hasHit_of_le hfinite ?_
    rwa [show leadingExponent x.ratio.1 x.ratio.2 - (1 + 16 : Nat) + 1 + 16 =
      leadingExponent x.ratio.1 x.ratio.2 by omega]
  exact readsBack_shortestFrom 16 hhit

/-! ## Decimals as doubles -/

/-- The sign and the other bits make the double. -/
theorem ofMagnitude_eq (x : Binary64) : ofMagnitude x.isNegative x.magnitude = x := by
  have hlt : x.bits.toNat < 2 ^ 64 := x.bits.toNat_lt
  have hbits : x.magnitude + (if x.isNegative then 1 <<< 63 else 0) = x.bits.toNat := by
    rw [magnitude, isNegative, Nat.one_shiftLeft]
    split_ifs with hsign
    · rw [decide_eq_true_eq] at hsign
      omega
    · rw [decide_eq_true_eq] at hsign
      omega
  rw [ofMagnitude, hbits, UInt64.ofNat_toNat]

/-- A decimal reads back by its value. -/
theorem readsBack_congr {magnitude digits digits' : Nat} {e' : Int} (hdigits : 0 < digits)
    (hdigits' : 0 < digits') (h : (digits * 10 ^ e : ℚ) = digits' * 10 ^ e') :
    readsBack magnitude digits e = readsBack magnitude digits' e' := by
  have hround := roundMagnitude_congr (decimalRatio_fst_pos hdigits e)
    (decimalRatio_snd_pos digits e) (decimalRatio_fst_pos hdigits' e')
    (decimalRatio_snd_pos digits' e') (by rw [decimalRatio_div, decimalRatio_div, h])
  simp only [readsBack, hround]

theorem digits_pos_of_readsBack {digits : Nat} (hpos : x.magnitude ≠ 0)
    (h : readsBack x.magnitude digits e = true) : 0 < digits := by
  refine Nat.pos_of_ne_zero ?_
  rintro rfl
  have hzero : (decimalRatio 0 e).1 = 0 := by
    cases e with
    | ofNat n => exact Nat.zero_mul _
    | negSucc n => rfl
  rw [readsBack, decide_eq_true_eq] at h
  simp only [hzero, roundMagnitude, if_true] at h
  exact hpos h.symm

end Binary64

namespace Decimal

open Binary64

theorem two_zpow_lt : (2 : ℚ) ^ (1200 : Int) < 10 ^ (400 : Int) := by
  have height : (2 : ℚ) ^ (1200 : Int) = 8 ^ (400 : Int) := by
    rw [show (8 : ℚ) = 2 ^ (3 : Int) by norm_num, ← zpow_mul]
    rfl
  rw [height]
  exact zpow_lt_zpow_left₀ (by decide) (by norm_num) (by norm_num)

/-- A decimal in the range of doubles has no more digits in front of its point than are read. -/
theorem le_farExponent {n : Nat} {e : Int} (hn : 0 < n)
    (h : (n * 10 ^ e : ℚ) < 2 ^ (1026 : Int)) : ¬(digitCount n + e > farExponent) := by
  intro hfar
  have hfirst : (10 : ℚ) ^ (digitCount n - 1 : Nat) ≤ n := by exact_mod_cast pow_digitCount_le hn
  have hcount := digitCount_pos hn
  have hle : (10 : ℚ) ^ (400 : Int) ≤ n * 10 ^ e :=
    calc (10 : ℚ) ^ (400 : Int)
        ≤ 10 ^ ((digitCount n - 1 : Nat) + e) := by
          refine zpow_le_zpow_right₀ (by norm_num) ?_
          rw [farExponent] at hfar
          omega
      _ = 10 ^ (digitCount n - 1 : Nat) * 10 ^ e := by
          rw [zpow_add₀ (by norm_num), zpow_natCast]
      _ ≤ n * 10 ^ e := mul_le_mul_of_nonneg_right hfirst (zpow_pos (by norm_num) e).le
  have hrange : (2 : ℚ) ^ (1026 : Int) < 10 ^ (400 : Int) :=
    lt_trans (zpow_lt_zpow_right₀ one_lt_two (by decide)) two_zpow_lt
  exact absurd (lt_of_le_of_lt hle h) (not_lt.mpr hrange.le)

/-- A decimal that does not vanish among doubles has no more zeros behind its point than are
read. -/
theorem neg_farExponent_le {n : Nat} {e : Int} (h : (2 : ℚ) ^ (-1076 : Int) < n * 10 ^ e) :
    ¬(digitCount n + e < -farExponent) := by
  intro hfar
  have hlast : (n : ℚ) < 10 ^ digitCount n := by exact_mod_cast lt_pow_digitCount n
  have hle : (n * 10 ^ e : ℚ) ≤ 10 ^ (-400 : Int) :=
    calc (n * 10 ^ e : ℚ)
        ≤ 10 ^ digitCount n * 10 ^ e :=
          mul_le_mul_of_nonneg_right hlast.le (zpow_pos (by norm_num) e).le
      _ = 10 ^ (digitCount n + e) := by
          rw [zpow_add₀ (by norm_num), zpow_natCast]
      _ ≤ 10 ^ (-400 : Int) := by
          refine zpow_le_zpow_right₀ (by norm_num) ?_
          rw [farExponent] at hfar
          omega
  have hrange : (10 : ℚ) ^ (-400 : Int) < 2 ^ (-1076 : Int) := by
    rw [zpow_neg, zpow_neg, inv_lt_inv₀ (zpow_pos (by norm_num) _) (zpow_pos two_pos _)]
    exact lt_trans (zpow_lt_zpow_right₀ one_lt_two (by decide)) two_zpow_lt
  exact absurd (lt_of_lt_of_le h hle) (not_lt.mpr hrange.le)

/-- **A decimal that reads back as a double is read as that double.** -/
theorem toBinary64_eq {x : Binary64} {d : Decimal} (hfinite : x.isFinite = true)
    (hpos : x.magnitude ≠ 0) (hsign : d.negative = x.isNegative)
    (hreads : readsBack x.magnitude d.digits d.exponent = true) : d.toBinary64 = x := by
  have hdigits := digits_pos_of_readsBack hpos hreads
  have hfst := decimalRatio_fst_pos hdigits d.exponent
  have hsnd := decimalRatio_snd_pos d.digits d.exponent
  have hmagnitude : x.magnitude < infinityBits := of_decide_eq_true hfinite
  rw [readsBack, decide_eq_true_eq] at hreads
  -- the value is in the range of doubles, so it is not far out of it
  have hlt := lt_of_roundMagnitude_lt hfst hsnd (hreads ▸ hmagnitude)
  have hgt := lt_of_roundMagnitude_pos hfst hsnd (hreads ▸ Nat.pos_of_ne_zero hpos)
  rw [decimalRatio_div] at hlt hgt
  rw [toBinary64, if_neg hdigits.ne']
  dsimp only
  rw [if_neg (le_farExponent hdigits hlt), if_neg (neg_farExponent_le hgt), ofRatio, hreads, hsign,
    ofMagnitude_eq]

end Decimal

end TopologyAudit
