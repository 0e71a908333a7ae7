import TopologyAudit.Proofs.Yaml.Flow.Value
import TopologyAudit.Proofs.Yaml.Tag

/-!
# Whole numbers by their content

A whole number as JSON writes it is an integer of YAML as well: there is no point in it, it
does not begin with a zero unless it is zero, and nothing in it is an underscore or a colon.
So it has the tag of integers, and the conversion for it reads the same number.
-/

namespace TopologyAudit.Yaml

open Json (IsWhole signed)

variable {whole : Text} {negative : Bool}

theorem mem_signed {c : CodePoint} (h : c ∈ signed negative whole) :
    c = CodePoint.ofChar '-' ∨ c ∈ whole := by
  cases negative with
  | false => exact .inr h
  | true => exact List.mem_cons.mp h

/-- A code point that is neither the sign nor a digit is not in a whole number. -/
theorem not_mem_signed (h : IsWhole whole) {c : CodePoint} (hsign : c ≠ CodePoint.ofChar '-')
    (hdigit : c.isDigit = false) : c ∉ signed negative whole := by
  intro hc
  rcases mem_signed hc with rfl | hc
  · exact hsign rfl
  · rw [h.isDigits.isDigit c hc] at hdigit
    cases hdigit

theorem dropSign_signed (h : IsWhole whole) : Form.dropSign (signed negative whole) = whole := by
  obtain ⟨c, rest, rfl⟩ := List.exists_cons_of_ne_nil h.isDigits.ne_nil
  have hc := h.isDigits.isDigit c (List.mem_cons_self ..)
  cases negative with
  | true => rfl
  | false =>
    rw [signed, if_neg Bool.false_ne_true, Form.dropSign, CodePoint.beq_of_isDigit hc (by decide),
      CodePoint.beq_of_isDigit hc (by decide)]
    rfl

/-- A whole number is zero, or it begins with another digit. -/
theorem isInt_signed (h : IsWhole whole) : Form.isInt (signed negative whole) = true := by
  unfold Form.isInt
  simp only [dropSign_signed h]
  cases h with
  | zero => decide
  | @digits c digits hc hdigits =>
    obtain ⟨hdigit, hdigits⟩ := List.forall_mem_cons.mp hdigits
    have hpositive : Form.isPositive (c :: digits) = true := by
      have hval := CodePoint.isDigit_iff.mp hdigit
      have hne : c.val ≠ 0x30 := fun hzero =>
        beq_eq_false_iff_ne.mp hc (CodePoint.ext_val hzero)
      rw [Form.isPositive, CodePoint.within, decide_eq_true (by omega), decide_eq_true (by omega)]
      refine List.all_eq_true.mpr fun d hd => ?_
      rw [Form.isDigitOrLine, hdigits d hd, Bool.true_or]
    rw [hpositive]
    simp only [Bool.or_true, Bool.true_or]

/-- A whole number begins with its sign or a digit. -/
theorem exists_head_signed (negative : Bool) (h : IsWhole whole) :
    ∃ c rest, signed negative whole = c :: rest ∧
      (c = CodePoint.ofChar '-' ∨ ∃ d, d < 10 ∧ c = Text.digit d) := by
  have hdigit : ∀ d, d < 10 → (Text.digit d).val = 0x30 + d := by decide
  cases negative with
  | true => exact ⟨_, whole, rfl, .inl rfl⟩
  | false =>
    obtain ⟨c, rest, rfl⟩ := List.exists_cons_of_ne_nil h.isDigits.ne_nil
    have hval := CodePoint.isDigit_iff.mp (h.isDigits.isDigit c (List.mem_cons_self ..))
    refine ⟨c, rest, rfl, .inr ⟨c.val - 0x30, by omega, CodePoint.ext_val ?_⟩⟩
    rw [hdigit _ (by omega)]
    omega

/-- **Whole numbers have the tag of integers.** -/
theorem ofContent_signed (negative : Bool) (h : IsWhole whole) :
    Tag.ofContent (signed negative whole) = Tag.int := by
  have hfloat : Form.matchesLine Form.isFloat (signed negative whole) = false := by
    refine Bool.eq_false_iff.mpr fun hform => ?_
    have hfeed : (signed negative whole).getLast? ≠ some (CodePoint.ofChar '\n') := fun hlast =>
      not_mem_signed h (by decide) (by decide) (List.mem_of_getLast? hlast)
    exact not_mem_signed h (by decide) (by decide)
      (Form.point_mem_of_isFloat (Form.of_matchesLine hform hfeed))
  have hint : Form.matchesLine Form.isInt (signed negative whole) = true := by
    rw [Form.matchesLine, isInt_signed h, Bool.true_or]
  -- only the forms of numbers begin like this
  have hdigits : ∀ d, d < 10 → Text.has "yYnNtTfFoO" (Text.digit d) = false ∧
      Text.has "-+0123456789" (Text.digit d) = true := by decide
  have hstart : (signed negative whole).head?.any (Text.has "yYnNtTfFoO") = false ∧
      (signed negative whole).head?.any (Text.has "-+0123456789") = true := by
    obtain ⟨c, rest, heq, rfl | ⟨d, hd, rfl⟩⟩ := exists_head_signed negative h
    · rw [heq]
      exact ⟨rfl, rfl⟩
    · rw [heq]
      exact hdigits d hd
  unfold Tag.ofContent
  simp only [List.find?_cons, hstart, hfloat, hint, Bool.false_and, Bool.and_false, Bool.true_and]

/-- Nothing in a whole number is dropped. -/
theorem Convert.dropLines_signed (h : IsWhole whole) :
    Convert.dropLines (signed negative whole) = signed negative whole := by
  refine List.filter_eq_self.mpr fun c hc => ?_
  have hne : c ≠ CodePoint.ofChar '_' := by
    rintro rfl
    exact not_mem_signed h (by decide) (by decide) hc
  rw [beq_eq_false_iff_ne.mpr hne, Bool.not_false]

/-- Digits that do not begin with a zero are read in base ten. -/
theorem Convert.unsignedInt_whole {n : Int} (h : IsWhole whole)
    (hread : Integer.read 10 whole = .ok n) : Convert.unsignedInt whole = .ok n := by
  cases h with
  | zero =>
    have hzero : Integer.read 10 [CodePoint.ofChar '0'] = .ok 0 := by decide
    obtain rfl : (0 : Int) = n := Except.ok.inj (hzero.symm.trans hread)
    rfl
  | @digits c digits hc hdigits =>
    have hzero : c ≠ CodePoint.ofChar '0' := beq_eq_false_iff_ne.mp hc
    have hmarker : ∀ rest : Text,
        Text.startsWith (c :: digits) (CodePoint.ofChar '0' :: rest) = false := by
      intro rest
      rw [Text.startsWith, List.isPrefixOf_cons_cons, beq_eq_false_iff_ne.mpr (Ne.symm hzero),
        Bool.false_and]
    have hcolon : (c :: digits).contains (CodePoint.ofChar ':') = false := by
      refine Bool.eq_false_iff.mpr fun hmem => ?_
      have hdigit := hdigits _ (List.contains_iff_mem.mp hmem)
      exact absurd hdigit (by decide)
    have hne : c :: digits ≠ Text.ofString "0" := fun heq => hzero (List.cons.inj heq).1
    rw [Convert.unsignedInt, if_neg hne,
      show Text.startsWith (c :: digits) "0b" = false from hmarker _,
      show Text.startsWith (c :: digits) "0x" = false from hmarker _]
    simp only [Bool.false_eq_true, if_false, hc, hcolon, Convert.readInt, hread]
    rfl

/-- **Whole numbers are converted to themselves.** -/
theorem Convert.int_signed (negative : Bool) {n : Int} (h : IsWhole whole)
    (hread : Integer.read 10 whole = .ok n) :
    Convert.int (signed negative whole) = .ok (.int (if negative then -n else n)) := by
  have hsign : (signed negative whole).takeSign = (negative, whole) := by
    cases negative with
    | true => rfl
    | false => exact h.isDigits.takeSign_eq
  have hempty : (signed negative whole).isEmpty = false := by
    obtain ⟨c, rest, heq, -⟩ := exists_head_signed negative h
    rw [heq]
    rfl
  unfold Convert.int Convert.takeSign
  simp only [Convert.dropLines_signed h, hempty, hsign, Convert.unsignedInt_whole h hread,
    Bool.false_eq_true, if_false, Outcome.ok_bind]
  rfl

/-! ## Numerals -/

theorem ofContent_ofInt (n : Int) : Tag.ofContent (Text.ofInt n) = Tag.int := by
  cases n with
  | ofNat n => exact ofContent_signed false (Json.isWhole_ofNat n)
  | negSucc n => exact ofContent_signed true (Json.isWhole_ofNat (n + 1))

/-- **Integers are read back**, up to the number of digits that are written. -/
theorem Convert.int_ofInt {n : Int} (h : n.natAbs < 10 ^ Integer.digitLimit) :
    Convert.int (Text.ofInt n) = .ok (.int n) := by
  cases n with
  | ofNat n =>
    exact Convert.int_signed false (Json.isWhole_ofNat n) (Integer.read_ofNat h)
  | negSucc n =>
    exact Convert.int_signed true (Json.isWhole_ofNat (n + 1)) (Integer.read_ofNat h)

end TopologyAudit.Yaml
