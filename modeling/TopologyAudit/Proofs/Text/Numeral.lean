import Mathlib.Algebra.Ring.Nat
import TopologyAudit.Numeral.Integer

/-!
# Numerals digit by digit

A numeral is the numeral of the quotient by its base, and behind it the digit of the
remainder (`numeral_of_le`). This is all that is used of how numerals are written: the digits
of a numeral write its number, and the first of them is no zero unless the number is. The same
holds of a hexadecimal numeral with zeros in front (`hex_succ`), so that numerals of fixed widths
one behind the other are the numeral of one number (`hex_append`).
-/

namespace TopologyAudit

namespace Text

variable {base : Nat}

private theorem digitsAux_of_lt {fuel n : Nat} {acc : Text} (h : n < base) :
    digitsAux base (fuel + 1) n acc = digit n :: acc := by
  rw [digitsAux, if_pos h]

private theorem digitsAux_of_le {fuel n : Nat} {acc : Text} (h : base ≤ n) :
    digitsAux base (fuel + 1) n acc = digitsAux base fuel (n / base) (digit (n % base) :: acc) := by
  rw [digitsAux, if_neg (Nat.not_lt.mpr h)]

/-- What has been written stands behind what is written later. -/
private theorem digitsAux_append (fuel : Nat) :
    ∀ (n : Nat) (acc : Text), digitsAux base fuel n acc = digitsAux base fuel n [] ++ acc := by
  induction fuel with
  | zero => intro n acc; rfl
  | succ fuel ih =>
    intro n acc
    rcases Nat.lt_or_ge n base with hlt | hge
    · rw [digitsAux_of_lt hlt, digitsAux_of_lt hlt]
      rfl
    · rw [digitsAux_of_le hge, digitsAux_of_le hge, ih, ih _ [_], List.append_assoc,
        List.singleton_append]

/-- More fuel than a number has binary digits changes nothing. -/
private theorem digitsAux_fuel (hbase : 2 ≤ base) (fuel : Nat) :
    ∀ {fuel' n : Nat} {acc : Text}, n < 2 ^ (fuel + 1) → n < 2 ^ (fuel' + 1) →
      digitsAux base (fuel + 1) n acc = digitsAux base (fuel' + 1) n acc := by
  induction fuel with
  | zero =>
    intro fuel' n acc h _
    have hlt : n < base := Nat.lt_of_lt_of_le h hbase
    rw [digitsAux_of_lt hlt, digitsAux_of_lt hlt]
  | succ fuel ih =>
    intro fuel' n acc h h'
    rcases Nat.lt_or_ge n base with hlt | hge
    · rw [digitsAux_of_lt hlt, digitsAux_of_lt hlt]
    · have hhalf : n / base ≤ n / 2 := Nat.div_le_div_left hbase (by decide)
      cases fuel' with
      -- a number below two is less than any base
      | zero => exact absurd hge (Nat.not_le.mpr (Nat.lt_of_lt_of_le h' hbase))
      | succ fuel' =>
        rw [digitsAux_of_le hge, digitsAux_of_le hge]
        have hrest : n / base < 2 ^ (fuel + 1) := by
          rw [Nat.pow_succ] at h
          omega
        have hrest' : n / base < 2 ^ (fuel' + 1) := by
          rw [Nat.pow_succ] at h'
          omega
        exact ih hrest hrest'

theorem numeral_of_lt {n : Nat} (h : n < base) : numeral base n = [digit n] := by
  rw [numeral, digitsAux, if_pos h]

/-- **A numeral ends in the digit of the remainder.** -/
theorem numeral_of_le {n : Nat} (hbase : 2 ≤ base) (h : base ≤ n) :
    numeral base n = numeral base (n / base) ++ [digit (n % base)] := by
  have hne : n ≠ 0 := by omega
  have hhalf : n / base ≤ n / 2 := Nat.div_le_div_left hbase (by decide)
  obtain ⟨k, hk⟩ : ∃ k, n.log2 = k + 1 := by
    refine Nat.exists_eq_succ_of_ne_zero ?_
    have hlog : 1 ≤ n.log2 := (Nat.le_log2 hne).mpr (by omega)
    omega
  have hlt : n < 2 ^ (k + 1 + 1) := hk ▸ Nat.lt_log2_self
  rw [numeral, digitsAux, if_neg (Nat.not_lt.mpr h), digitsAux_append, hk, numeral]
  congr 1
  refine digitsAux_fuel hbase k ?_ Nat.lt_log2_self
  rw [Nat.pow_succ] at hlt
  omega

/-- Induction on a number by its numeral. -/
theorem numeral_induction {motive : Nat → Prop} (hbase : 2 ≤ base)
    (small : ∀ n, n < base → motive n)
    (step : ∀ n, base ≤ n → motive (n / base) → motive n) (n : Nat) : motive n := by
  induction n using Nat.strongRecOn with
  | ind n ih =>
    rcases Nat.lt_or_ge n base with hlt | hge
    · exact small n hlt
    · exact step n hge (ih _ (Nat.div_lt_self (by omega) (by omega)))

/-- A single digit is written as it is. -/
theorem hex_one {n : Nat} (h : n < 16) : hex 1 n = [digit n] := by
  rw [hex, numeral_of_lt h]
  rfl

/-- **One more hexadecimal digit** is that of the remainder, behind the others. -/
theorem hex_succ {width : Nat} (hwidth : 1 ≤ width) (n : Nat) :
    hex (width + 1) n = hex width (n / 16) ++ [digit (n % 16)] := by
  have hbase : 2 ≤ 16 := by decide
  rcases Nat.lt_or_ge n 16 with hlt | hge
  · -- of a single digit the quotient is zero, and the zeros in front are one more
    have hquotient : n / 16 = 0 := by omega
    have hremainder : n % 16 = n := by omega
    have hzero : CodePoint.ofChar '0' = digit 0 := by decide
    obtain ⟨k, rfl⟩ : ∃ k, width = k + 1 := ⟨width - 1, by omega⟩
    rw [hex, hex, numeral_of_lt hlt, hquotient, hremainder, numeral_of_lt (by decide : 0 < 16),
      hzero]
    simp only [List.length_singleton, Nat.add_sub_cancel]
    rw [List.replicate_succ']
  · have hlength : (numeral 16 n).length = (numeral 16 (n / 16)).length + 1 := by
      rw [numeral_of_le hbase hge, List.length_append, List.length_singleton]
    rw [hex, hex, hlength, Nat.add_sub_add_right, numeral_of_le hbase hge]
    exact (List.append_assoc ..).symm

/-- The four digits of a number below `10000₁₆`. -/
theorem hex_four {n : Nat} (h : n < 0x10000) :
    hex 4 n =
      [digit (n / 0x1000), digit (n / 0x100 % 16), digit (n / 16 % 16), digit (n % 16)] := by
  have hsecond : n / 16 / 16 = n / 0x100 := by omega
  have hthird : n / 0x100 / 16 = n / 0x1000 := by omega
  rw [hex_succ (by decide), hex_succ (by decide), hex_succ (by decide), hsecond, hthird,
    hex_one (by omega)]
  rfl

theorem length_hex {width n : Nat} (hwidth : 1 ≤ width) (h : n < 16 ^ width) :
    (hex width n).length = width := by
  induction width, hwidth using Nat.le_induction generalizing n with
  | base => rw [hex_one (by omega), List.length_singleton]
  | succ width hwidth ih =>
    rw [hex_succ hwidth, List.length_append, List.length_singleton, ih]
    rw [Nat.pow_succ] at h
    omega

/-- The digits of two numbers one after the other. -/
theorem hex_append {width more m : Nat} (hwidth : 1 ≤ width) (hmore : 1 ≤ more) (n : Nat)
    (h : m < 16 ^ more) : hex (width + more) (n * 16 ^ more + m) = hex width n ++ hex more m := by
  induction more, hmore using Nat.le_induction generalizing m with
  | base =>
    have hquotient : (n * 16 ^ 1 + m) / 16 = n := by omega
    have hremainder : (n * 16 ^ 1 + m) % 16 = m := by omega
    rw [hex_succ hwidth, hquotient, hremainder, hex_one (by omega)]
  | succ more hmore ih =>
    rw [Nat.pow_succ] at h
    have hsplit : n * 16 ^ (more + 1) + m = (n * 16 ^ more) * 16 + m := by
      rw [Nat.pow_succ, Nat.mul_assoc]
    have hquotient : (n * 16 ^ (more + 1) + m) / 16 = n * 16 ^ more + m / 16 := by omega
    have hremainder : (n * 16 ^ (more + 1) + m) % 16 = m % 16 := by omega
    rw [← Nat.add_assoc, hex_succ (by omega), hquotient, hremainder, ih (by omega), hex_succ hmore,
      List.append_assoc]

theorem hexValue?_digit : ∀ {d : Nat}, d < 16 → (digit d).hexValue? = some d := by
  decide

/-- A decimal numeral consists of digits, the first of which is no zero if the number is
none. -/
theorem ofNat_eq_cons {n : Nat} (h : n ≠ 0) :
    ∃ d rest, ofNat n = digit d :: rest ∧ 0 < d ∧ d < 10 := by
  have hbase : 2 ≤ 10 := by decide
  revert h
  unfold ofNat
  induction n using numeral_induction hbase with
  | small n hn =>
    intro h
    exact ⟨n, [], numeral_of_lt hn, Nat.pos_of_ne_zero h, hn⟩
  | step n hn ih =>
    intro _
    obtain ⟨d, rest, heq, hpos, hlt⟩ := ih (by omega)
    exact ⟨d, rest ++ [digit (n % 10)], by rw [numeral_of_le hbase hn, heq]; rfl, hpos, hlt⟩

end Text

namespace Integer

open Text (digit numeral)

variable {base : Nat}

theorem digitValue?_digit {d : Nat} (hbase : base ≤ 16) (h : d < base) :
    digitValue? base (digit d) = some d := by
  rw [digitValue?, Text.hexValue?_digit (Nat.lt_of_lt_of_le h hbase), Option.filter_some,
    if_pos (decide_eq_true h)]

/-- One more digit behind others. -/
theorem value_concat {digits : Text} {d : Nat} (hbase : base ≤ 16) (h : d < base) :
    value base (digits ++ [digit d]) = value base digits * base + d := by
  rw [value, List.foldl_append, List.foldl_cons, List.foldl_nil, digitValue?_digit hbase h]
  rfl

/-- **A numeral writes its number.** -/
theorem value_numeral (hbase : 2 ≤ base) (hbase' : base ≤ 16) (n : Nat) :
    value base (numeral base n) = n := by
  induction n using Text.numeral_induction hbase with
  | small n hn =>
    have hone := @value_concat base [] n hbase' hn
    rw [List.nil_append] at hone
    rw [Text.numeral_of_lt hn, hone]
    simp [value]
  | step n hn ih =>
    rw [Text.numeral_of_le hbase hn, value_concat hbase' (Nat.mod_lt _ (by omega)), ih,
      Nat.mul_comm, Nat.div_add_mod]

/-- Zeros in front change nothing: a padded numeral writes its number. -/
theorem value_hex {width n : Nat} (hwidth : 1 ≤ width) (h : n < 16 ^ width) :
    value 16 (Text.hex width n) = n := by
  induction width, hwidth using Nat.le_induction generalizing n with
  | base =>
    rw [Text.hex_one (by omega), ← Text.numeral_of_lt (by omega : n < 16)]
    exact value_numeral (by decide) (by decide) n
  | succ width hwidth ih =>
    rw [Nat.pow_succ] at h
    rw [Text.hex_succ hwidth, value_concat (by decide) (Nat.mod_lt _ (by decide)), ih (by omega)]
    omega

end Integer

end TopologyAudit
