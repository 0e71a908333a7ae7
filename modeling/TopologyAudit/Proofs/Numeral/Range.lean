import Mathlib.Data.Nat.Digits.Lemmas
import TopologyAudit.Json.Printer

/-!
# How far numbers reach

The decimal numeral of a number is as long as its list of digits, so an integer is too
long to be written exactly from a power of ten on (`refusesInt_eq_false_iff`). An integer
that rounds to a finite double is far below that power.
-/

namespace TopologyAudit

/-! ## Digits -/

theorem Text.length_digitsAux {fuel : Nat} :
    ∀ {n : Nat} {acc : Text}, 0 < n → n < 2 ^ fuel →
      (digitsAux 10 fuel n acc).length = (Nat.digits 10 n).length + acc.length := by
  induction fuel with
  | zero =>
    intro n acc hpos hn
    rw [Nat.pow_zero] at hn
    omega
  | succ fuel ih =>
    intro n acc hpos hn
    rw [digitsAux, Nat.digits_def' (by decide) hpos, List.length_cons]
    split
    next hlt =>
      rw [Nat.div_eq_of_lt hlt, Nat.digits_zero, List.length_nil, List.length_cons,
        Nat.add_comm 0, Nat.add_comm 1]
    next hge =>
      have hrest : n / 10 < 2 ^ fuel := by
        rw [Nat.pow_succ] at hn
        omega
      rw [ih (Nat.div_pos (Nat.le_of_not_lt hge) (by decide)) hrest, List.length_cons]
      omega

namespace Binary64

theorem digitCount_eq (n : Nat) : digitCount n = (Nat.digits 10 n).length := by
  unfold digitCount
  split
  next h => rw [h, Nat.digits_zero, List.length_nil]
  next h =>
    rw [Text.ofNat, Text.numeral, Text.length_digitsAux (Nat.pos_of_ne_zero h) Nat.lt_log2_self,
      List.length_nil, Nat.add_zero]

theorem digitCount_le_iff {n k : Nat} : digitCount n ≤ k ↔ n < 10 ^ k := by
  rw [digitCount_eq, Nat.digits_length_le_iff (by decide)]

/-! ## Doubles -/

theorem isFinite_infinity (negative : Bool) : (infinity negative).isFinite = false := by
  cases negative <;> decide

theorem le_roundQuotient (num den : Nat) : num / den ≤ roundQuotient num den := by
  unfold roundQuotient
  dsimp only
  split
  next => exact Nat.le_refl _
  next =>
    split
    next => exact Nat.le_succ _
    next => exact Nat.le_add_right _ _

theorem scale_one (q : Nat) : scale 1 q = (2 ^ q, 1) := by
  show ((1 <<< q, 1) : Nat × Nat) = _
  rw [Nat.one_shiftLeft]

/-- From two to the power of 1024 on, whole numbers round to infinity. -/
theorem roundMagnitude_of_le {n k : Nat} (h : n.log2 = 1024 + k) :
    roundMagnitude n 1 = infinityBits := by
  have hne : n ≠ 0 := by
    rintro rfl
    rw [Nat.log2_zero] at h
    omega
  have hlow : 2 ^ (1024 + k) ≤ n := (Nat.le_log2 hne).mp (Nat.le_of_eq h.symm)
  have hestimate : (n.log2 : Int) - Nat.log2 1 - 53 = (971 + k : Nat) := by
    rw [h, show Nat.log2 1 = 0 by decide]
    omega
  -- the estimate has a bit too many, and the exponent is the next one
  have hfits : decide (n * 1 < 2 ^ (971 + k) <<< 53) = false := by
    rw [Nat.mul_one, Nat.shiftLeft_eq, ← Nat.pow_add, decide_eq_false_iff_not, Nat.not_lt,
      show 971 + k + 53 = 1024 + k by omega]
    exact hlow
  have hexponent : max (-1074) (((971 + k : Nat) : Int) + 1) = (972 + k : Nat) := by omega
  have hquotient : 2 ^ 52 ≤ roundQuotient (n * 1) (2 ^ (972 + k)) := by
    refine Nat.le_trans ?_ (le_roundQuotient ..)
    rw [Nat.mul_one, Nat.le_div_iff_mul_le (Nat.two_pow_pos _), ← Nat.pow_add,
      show 52 + (972 + k) = 1024 + k by omega]
    exact hlow
  unfold roundMagnitude
  rw [if_neg hne, hestimate]
  simp only [scale_one, hfits, Bool.false_eq_true, if_false, hexponent]
  refine Nat.min_eq_left ?_
  rw [infinityBits, Nat.shiftLeft_eq, Nat.shiftLeft_eq]
  omega

/-- An integer that rounds to a finite double has at most 1024 bits. -/
theorem log2_lt_of_isFinite_ofInt {n : Int} (h : (ofInt n).isFinite = true) :
    n.natAbs.log2 < 1024 := by
  by_contra hge
  obtain ⟨k, hk⟩ := Nat.exists_eq_add_of_le (Nat.le_of_not_lt hge)
  rw [ofInt, ofRatio, roundMagnitude_of_le hk] at h
  exact absurd h (Bool.eq_false_iff.mp (isFinite_infinity _))

end Binary64

/-! ## Integers that are written -/

namespace Json

/-- **The integers that are written.** -/
theorem refusesInt_eq_false_iff {n : Int} :
    refusesInt n = false ↔ n.natAbs < 10 ^ Integer.digitLimit := by
  rw [refusesInt, decide_eq_false_iff_not, gt_iff_lt, Nat.not_lt, Binary64.digitCount_le_iff]

/-- An integer that has a place among the doubles is written. -/
theorem refusesInt_of_isFinite {n : Int} (h : (Binary64.ofInt n).isFinite = true) :
    refusesInt n = false := by
  rw [refusesInt_eq_false_iff]
  have hbits : n.natAbs.log2 + 1 ≤ Integer.digitLimit :=
    Nat.le_trans (Binary64.log2_lt_of_isFinite_ofInt h) (by decide)
  calc n.natAbs < 2 ^ (n.natAbs.log2 + 1) := Nat.lt_log2_self
    _ ≤ 2 ^ Integer.digitLimit := Nat.pow_le_pow_right (by decide) hbits
    _ ≤ 10 ^ Integer.digitLimit := Nat.pow_le_pow_left (by decide) _

end Json

end TopologyAudit
