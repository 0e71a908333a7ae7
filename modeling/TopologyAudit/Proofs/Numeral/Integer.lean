import Mathlib.Data.List.TakeWhile
import Mathlib.Tactic.Ring
import TopologyAudit.Proofs.Numeral.Range
import TopologyAudit.Proofs.Text.Numeral
import TopologyAudit.Proofs.Text.Separator

/-!
# Reading digits as an integer

Digits without a sign, a marker or underscores are read as they stand, as long as there are
not too many of them; and the decimal numeral of a number is read back as that number
(`read_ofNat`).
-/

namespace TopologyAudit

namespace CodePoint

variable {c : CodePoint}

/-- Where the digits stand among the code points. -/
theorem isDigit_iff : c.isDigit = true ↔ 0x30 ≤ c.val ∧ c.val ≤ 0x39 := by
  rw [isDigit, within, Bool.and_eq_true_iff, decide_eq_true_eq, decide_eq_true_eq]

/-- A digit is none of the code points that are no digits. -/
theorem beq_of_isDigit (h : c.isDigit = true) {d : CodePoint} (hd : d.isDigit = false) :
    (c == d) = false := by
  refine beq_eq_false_iff_ne.mpr ?_
  rintro rfl
  exact absurd h (Bool.eq_false_iff.mp hd)

theorem numeralForm_of_isDigit (h : c.isDigit = true) : c.numeralForm = c := by
  have hval := isDigit_iff.mp h
  have hascii : c.isAscii = true := decide_eq_true (by omega)
  rw [numeralForm, if_pos hascii]

theorem isPadding_of_isDigit (h : c.isDigit = true) : c.isPadding = false := by
  have hval := isDigit_iff.mp h
  have hpen : c.within 9 13 = false := by
    rw [within, Bool.and_eq_false_iff, decide_eq_false_iff_not, decide_eq_false_iff_not]
    omega
  rw [isPadding, hpen, beq_of_isDigit h (by decide), Bool.false_or]

end CodePoint

/-- That a text is digits, at least one of them. -/
structure Text.IsDigits (t : Text) : Prop where
  ne_nil : t ≠ []
  isDigit : ∀ c ∈ t, c.isDigit = true

namespace Text.IsDigits

variable {t : Text}

theorem ofNat (n : Nat) : IsDigits (Text.ofNat n) := by
  refine ⟨?_, fun c hc => isDigit_of_mem_ofNat hc⟩
  rcases Nat.eq_zero_or_pos n with rfl | hpos
  · decide
  · obtain ⟨d, rest, heq, -⟩ := ofNat_eq_cons (Nat.pos_iff_ne_zero.mp hpos)
    rw [heq]
    exact List.cons_ne_nil _ _

theorem numeralStart_eq (h : t.IsDigits) : t.numeralStart = t := by
  have hform : t.map CodePoint.numeralForm = t := by
    conv_rhs => rw [← List.map_id t]
    exact List.map_congr_left fun c hc => CodePoint.numeralForm_of_isDigit (h.isDigit c hc)
  obtain ⟨c, rest, rfl⟩ := List.exists_cons_of_ne_nil h.ne_nil
  rw [numeralStart, hform, List.dropWhile_cons_of_neg]
  rw [CodePoint.isPadding_of_isDigit (h.isDigit c (List.mem_cons_self ..))]
  exact Bool.false_ne_true

/-- No sign stands in front of digits. -/
theorem takeSign_eq (h : t.IsDigits) : t.takeSign = (false, t) := by
  obtain ⟨c, rest, rfl⟩ := List.exists_cons_of_ne_nil h.ne_nil
  have hc := h.isDigit c (List.mem_cons_self ..)
  rw [takeSign, CodePoint.beq_of_isDigit hc (by decide), CodePoint.beq_of_isDigit hc (by decide)]
  rfl

theorem not_underscore (h : t.IsDigits) : ∀ c ∈ t, (c == CodePoint.ofChar '_') = false :=
  fun c hc => CodePoint.beq_of_isDigit (h.isDigit c hc) (by decide)

end Text.IsDigits

namespace Integer

theorem underscoresSingle_of_not_underscore :
    ∀ {t : Text}, (∀ c ∈ t, (c == CodePoint.ofChar '_') = false) → underscoresSingle t = true := by
  intro t
  induction t with
  | nil => intro _; rfl
  | cons c rest ih =>
    intro h
    have hc := h c (List.mem_cons_self ..)
    cases rest with
    | nil => rw [underscoresSingle, hc, Bool.not_false]
    | cons d rest =>
      rw [underscoresSingle, hc, Bool.false_and, Bool.not_false, Bool.true_and]
      exact ih fun x hx => h x (List.mem_cons_of_mem _ hx)

theorem isSome_digitValue?_of_isDigit {c : CodePoint} (h : c.isDigit = true) :
    (digitValue? 10 c).isSome = true := by
  have hval := CodePoint.isDigit_iff.mp h
  rw [digitValue?, CodePoint.hexValue?, if_pos h, Option.filter_some,
    if_pos (decide_eq_true (by omega : c.val - 0x30 < 10))]
  rfl

/-- Digits are read as they stand, if they are not too many. -/
theorem read_digits {t : Text} (h : t.IsDigits) (hlength : t.length ≤ digitLimit) :
    read 10 t = .ok (value 10 t) := by
  have htake : (t.takeWhile fun c : CodePoint => (digitValue? 10 c).isSome || c == '_') = t := by
    refine List.takeWhile_eq_self_iff.mpr fun c hc => ?_
    rw [isSome_digitValue?_of_isDigit (h.isDigit c hc), Bool.true_or]
  have hfilter : (t.filter fun c : CodePoint => !(c == '_')) = t := by
    refine List.filter_eq_self.mpr fun c hc => ?_
    rw [h.not_underscore c hc, Bool.not_false]
  have hhead : t.head? ≠ some (CodePoint.ofChar '_') := by
    intro hhead
    have hself := h.not_underscore _ (List.mem_of_mem_head? hhead)
    rw [beq_self_eq_true] at hself
    exact absurd hself (by decide)
  have hmarker : dropMarker 10 t = t := rfl
  have hcount : ¬t.length > digitLimit := Nat.not_lt.mpr hlength
  unfold read
  simp only [h.numeralStart_eq, h.takeSign_eq, hmarker, htake, hfilter, hcount,
    underscoresSingle_of_not_underscore h.not_underscore, List.drop_length, hhead, h.ne_nil,
    decide_false, Bool.false_eq_true, if_false, Bool.not_true, Bool.or_false, Bool.and_false,
    List.all_nil]

/-! ## The number that digits write -/

theorem value_concat_of_isDigit {c : CodePoint} (h : c.isDigit = true) (t : Text) :
    value 10 (t ++ [c]) = value 10 t * 10 + value 10 [c] := by
  obtain ⟨d, hd⟩ := Option.isSome_iff_exists.mp (isSome_digitValue?_of_isDigit h)
  simp [value, List.foldl_append, hd]

/-- Digits behind others move those to higher places. -/
theorem value_append {t digits : Text} (h : ∀ c ∈ digits, c.isDigit = true) :
    value 10 (t ++ digits) = value 10 t * 10 ^ digits.length + value 10 digits := by
  induction digits using List.reverseRecOn with
  | nil => simp [value]
  | append_singleton digits c ih =>
    have hc := h c (List.mem_append_right _ (List.mem_singleton_self c))
    have hdigits := ih fun d hd => h d (List.mem_append_left _ hd)
    rw [← List.append_assoc, value_concat_of_isDigit hc, value_concat_of_isDigit hc digits, hdigits,
      List.length_append, List.length_singleton, Nat.pow_succ]
    ring

/-- Zeros. -/
def zeros (n : Nat) : Text := List.replicate n (CodePoint.ofChar '0')

theorem isDigit_of_mem_zeros {n : Nat} : ∀ c ∈ zeros n, c.isDigit = true := by
  intro c hc
  rw [List.eq_of_mem_replicate hc]
  decide

theorem value_zeros (n : Nat) : value 10 (zeros n) = 0 := by
  induction n with
  | zero => rfl
  | succ n ih =>
    rw [zeros, List.replicate_succ', value_concat_of_isDigit (by decide), ← zeros, ih]
    decide

/-- **Numerals are read back**, up to the number of digits that are written. -/
theorem read_ofNat {n : Nat} (h : n < 10 ^ digitLimit) : read 10 (Text.ofNat n) = .ok n := by
  have hlength : (Text.ofNat n).length ≤ digitLimit := by
    rcases Nat.eq_zero_or_pos n with rfl | hpos
    · decide
    · have hcount := Binary64.digitCount_le_iff.mpr h
      rw [Binary64.digitCount, if_neg (Nat.pos_iff_ne_zero.mp hpos)] at hcount
      exact hcount
  rw [read_digits (Text.IsDigits.ofNat n) hlength, Text.ofNat,
    value_numeral (by decide) (by decide)]

end Integer

end TopologyAudit
