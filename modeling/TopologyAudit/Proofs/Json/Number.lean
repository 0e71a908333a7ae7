import TopologyAudit.Json.Printer
import TopologyAudit.Json.Reader
import TopologyAudit.Proofs.Numeral.Integer
import TopologyAudit.Proofs.Numeral.Shortest

/-!
# Numbers are read back

A number is a whole number, a fraction and an exponent, the last two of which may be missing.
Each part is read up to the first code point that cannot belong to it, so a number is read
off the front of a text that does not go on like a number (`EndsNumber`). Integers come back
as they are (`readNumber_ofInt`). A double is written as a decimal that reads back as it,
with the point or the exponent in one of four places, and each of the four forms has the
value of that decimal (`readNumber_toText`).
-/

namespace TopologyAudit.Json

variable {whole fraction digits rest tail : Text} {negative : Bool}

/-! ## The parts of a number -/

/-- That no digit stands at the front. -/
def EndsDigits (rest : Text) : Prop := ∀ c ∈ rest.head?, c.isDigit = false

/-- That a text does not go on with what could belong to a number in front of it. -/
def EndsNumber (rest : Text) : Prop :=
  ∀ c ∈ rest.head?, c.isDigit = false ∧ (c == '.') = false ∧ Decimal.isExponentLetter c = false

theorem EndsNumber.endsDigits (h : EndsNumber rest) : EndsDigits rest := fun c hc => (h c hc).1

theorem endsDigits_cons {c : CodePoint} (h : c.isDigit = false) : EndsDigits (c :: rest) := by
  intro d hd
  cases hd
  exact h

theorem takeWhile_digits (h : ∀ c ∈ digits, c.isDigit = true) (hrest : EndsDigits rest) :
    (digits ++ rest).takeWhile CodePoint.isDigit = digits := by
  rw [List.takeWhile_append_of_pos h]
  cases rest with
  | nil => rw [List.takeWhile_nil, List.append_nil]
  | cons c rest =>
    rw [List.takeWhile_cons_of_neg (Bool.eq_false_iff.mp (hrest c rfl)), List.append_nil]

/-- A whole number as it is written: zero, or digits that do not begin with it. -/
inductive IsWhole : Text → Prop
  | zero : IsWhole [CodePoint.ofChar '0']
  | digits {c : CodePoint} {digits : Text} (hc : (c == '0') = false)
    (h : ∀ d ∈ c :: digits, d.isDigit = true) : IsWhole (c :: digits)

theorem IsWhole.isDigits (h : IsWhole whole) : whole.IsDigits := by
  cases h with
  | zero => exact ⟨List.cons_ne_nil _ _, by decide⟩
  | digits _ h => exact ⟨List.cons_ne_nil _ _, h⟩

/-- The numeral of a number that is not zero does not begin with zero. -/
theorem exists_ofNat_eq_cons {n : Nat} (h : 0 < n) :
    ∃ c digits, Text.ofNat n = c :: digits ∧ (c == CodePoint.ofChar '0') = false ∧
      c.isDigit = true ∧ ∀ d ∈ digits, d.isDigit = true := by
  have hnonzero : ∀ {d : Nat}, d < 10 → 0 < d → (Text.digit d == CodePoint.ofChar '0') = false := by
    decide
  have hdigits := (Text.IsDigits.ofNat n).isDigit
  obtain ⟨d, digits, heq, hd, hlt⟩ := Text.ofNat_eq_cons (Nat.pos_iff_ne_zero.mp h)
  rw [heq, List.forall_mem_cons] at hdigits
  exact ⟨_, digits, heq, hnonzero hlt hd, hdigits⟩

theorem isWhole_ofNat (n : Nat) : IsWhole (Text.ofNat n) := by
  rcases Nat.eq_zero_or_pos n with rfl | hpos
  · exact .zero
  · obtain ⟨c, digits, heq, hc, hdigits⟩ := exists_ofNat_eq_cons hpos
    rw [heq]
    exact .digits hc (List.forall_mem_cons.mpr hdigits)

theorem takeWhole?_append (h : IsWhole whole) (hrest : EndsDigits rest) :
    takeWhole? (whole ++ rest) = some (whole, rest) := by
  cases h with
  | zero => rfl
  | @digits c digits hc h =>
    obtain ⟨hdigit, hdigits⟩ := List.forall_mem_cons.mp h
    rw [List.cons_append, takeWhole?]
    simp only [hc, hdigit, takeWhile_digits hdigits hrest, List.drop_left, Bool.false_eq_true,
      if_false, if_true]

theorem takeFraction_point (h : digits.IsDigits) (hrest : EndsDigits rest) :
    takeFraction (CodePoint.ofChar '.' :: (digits ++ rest)) = some (digits, rest) := by
  obtain ⟨c, digits, rfl⟩ := List.exists_cons_of_ne_nil h.ne_nil
  obtain ⟨hdigit, hdigits⟩ := List.forall_mem_cons.mp h.isDigit
  rw [List.cons_append, takeFraction]
  simp only [beq_self_eq_true, hdigit, Bool.true_and, takeWhile_digits hdigits hrest,
    List.drop_left, if_true]

theorem takeFraction_none (h : ∀ c ∈ rest.head?, (c == '.') = false) :
    takeFraction rest = none := by
  unfold takeFraction
  split
  next p c rest =>
    rw [h p rfl, Bool.false_and]
    rfl
  next => rfl

/-- A sign of an exponent. -/
def exponentSign (negative : Bool) : CodePoint := if negative then '-' else '+'

/-- What an exponent with a sign stands for. -/
def exponentValue (negative : Bool) (digits : Text) : Int :=
  if negative then -(Integer.value 10 digits : Int) else Integer.value 10 digits

theorem takeExponent_mark (h : digits.IsDigits) (hrest : EndsDigits rest) :
    takeExponent (CodePoint.ofChar 'e' :: exponentSign negative :: (digits ++ rest)) =
      some (exponentValue negative digits, rest) := by
  have hsign : Text.takeSign (exponentSign negative :: (digits ++ rest)) =
      (negative, digits ++ rest) := by
    cases negative <;> rfl
  have hletter : Decimal.isExponentLetter (CodePoint.ofChar 'e') = true := by decide
  rw [takeExponent, if_pos hletter, Decimal.takeExponent, hsign]
  dsimp only
  rw [takeWhile_digits h.isDigit hrest]
  obtain ⟨c, digits, rfl⟩ := List.exists_cons_of_ne_nil h.ne_nil
  simp only [List.drop_left]
  rfl

theorem takeExponent_none (h : EndsNumber rest) : takeExponent rest = none := by
  cases rest with
  | nil => rfl
  | cons c rest => rw [takeExponent, (h c rfl).2.2, if_neg Bool.false_ne_true]

/-! ## Numbers from their parts -/

/-- A text behind a minus sign, or as it is. -/
def signed (negative : Bool) (t : Text) : Text :=
  if negative then CodePoint.ofChar '-' :: t else t

/-- The reader with the sign and the whole number taken off. -/
theorem readNumber_signed (h : IsWhole whole) (htail : EndsDigits tail) :
    readNumber (signed negative (whole ++ tail)) =
      if (takeFraction tail).isNone &&
          (takeExponent ((takeFraction tail).getD ([], tail)).2).isNone then
        match Integer.read 10 whole with
        | .error e => .error (.integer e)
        | .ok n => .ok (.int (if negative then -n else n), tail)
      else
        .ok (.float (Decimal.ofParts negative whole ((takeFraction tail).getD ([], tail)).1
            ((takeExponent ((takeFraction tail).getD ([], tail)).2).getD
              (0, ((takeFraction tail).getD ([], tail)).2)).1).toBinary64,
          ((takeExponent ((takeFraction tail).getD ([], tail)).2).getD
            (0, ((takeFraction tail).getD ([], tail)).2)).2) := by
  have hwhole := takeWhole?_append h htail
  cases negative with
  | true =>
    rw [signed, if_pos rfl, readNumber.eq_def]
    simp only [beq_self_eq_true, if_true]
    rewrite [hwhole]
    rfl
  | false =>
    obtain ⟨c, t, heq⟩ := List.exists_cons_of_ne_nil h.isDigits.ne_nil
    have hc : c.isDigit = true := h.isDigits.isDigit c (heq ▸ List.mem_cons_self ..)
    have hminus : (c == CodePoint.ofChar '-') = false := CodePoint.beq_of_isDigit hc (by decide)
    rw [signed, if_neg Bool.false_ne_true, readNumber.eq_def]
    rw [heq] at hwhole ⊢
    simp only [List.cons_append, hminus, Bool.false_eq_true, if_false] at hwhole ⊢
    rewrite [hwhole]
    rfl

theorem readNumber_int {n : Int} (h : IsWhole whole) (hread : Integer.read 10 whole = .ok n)
    (hrest : EndsNumber rest) :
    readNumber (signed negative (whole ++ rest)) = .ok (.int (if negative then -n else n), rest) := by
  rw [readNumber_signed h hrest.endsDigits, takeFraction_none fun c hc => (hrest c hc).2.1]
  simp only [Option.getD_none, takeExponent_none hrest, hread, Option.isNone_none, Bool.and_self,
    if_true]

theorem readNumber_fraction (h : IsWhole whole) (hfraction : fraction.IsDigits)
    (hrest : EndsNumber rest) :
    readNumber (signed negative (whole ++ CodePoint.ofChar '.' :: (fraction ++ rest))) =
      .ok (.float (Decimal.ofParts negative whole fraction 0).toBinary64, rest) := by
  rw [readNumber_signed h (endsDigits_cons (by decide)),
    takeFraction_point hfraction hrest.endsDigits]
  simp only [Option.getD_some, takeExponent_none hrest, Option.isNone_some, Bool.false_and,
    Bool.false_eq_true, if_false, Option.getD_none]

theorem readNumber_exponent {down : Bool} (h : IsWhole whole) (hdigits : digits.IsDigits)
    (hrest : EndsDigits rest) :
    readNumber (signed negative
        (whole ++ CodePoint.ofChar 'e' :: exponentSign down :: (digits ++ rest))) =
      .ok (.float (Decimal.ofParts negative whole [] (exponentValue down digits)).toBinary64,
        rest) := by
  rw [readNumber_signed h (endsDigits_cons (by decide)), takeFraction_none]
  · simp only [Option.getD_none, takeExponent_mark hdigits hrest, Option.isNone_some, Bool.and_false,
      Bool.false_eq_true, if_false, Option.getD_some]
  · intro c hc
    cases hc
    decide

theorem readNumber_fraction_exponent {down : Bool} (h : IsWhole whole)
    (hfraction : fraction.IsDigits) (hdigits : digits.IsDigits) (hrest : EndsDigits rest) :
    readNumber (signed negative (whole ++ CodePoint.ofChar '.' :: (fraction ++
        CodePoint.ofChar 'e' :: exponentSign down :: (digits ++ rest)))) =
      .ok (.float (Decimal.ofParts negative whole fraction (exponentValue down digits)).toBinary64,
        rest) := by
  rw [readNumber_signed h (endsDigits_cons (by decide)),
    takeFraction_point hfraction (endsDigits_cons (by decide))]
  simp only [Option.getD_some, takeExponent_mark hdigits hrest, Option.isNone_some, Bool.and_self,
    Bool.false_eq_true, if_false]

/-- **Integers are read back**, up to the number of digits that are written. -/
theorem readNumber_ofInt {n : Int} (h : n.natAbs < 10 ^ Integer.digitLimit)
    (hrest : EndsNumber rest) :
    readNumber (Text.ofInt n ++ rest) = .ok (.int n, rest) := by
  cases n with
  | ofNat n =>
    exact @readNumber_int _ _ false _ (isWhole_ofNat n) (Integer.read_ofNat h) hrest
  | negSucc n =>
    exact @readNumber_int _ _ true _ (isWhole_ofNat (n + 1)) (Integer.read_ofNat h) hrest

/-! ## Decimals -/

open Binary64 (positional scientific dropZeros)
open Integer (zeros)

/-- That a text behind a sign is read as a decimal of the given value. -/
def WritesDecimal (t : Text) (negative : Bool) (digits : Nat) (e : Int) : Prop :=
  ∃ d : Decimal, d.negative = negative ∧ 0 < d.digits ∧
    (d.digits * 10 ^ d.exponent : ℚ) = digits * 10 ^ e ∧
    ∀ rest, EndsNumber rest →
      readNumber (signed negative (t ++ rest)) = .ok (.float d.toBinary64, rest)

variable {m : Nat} {e : Int}

theorem value_ofNat (m : Nat) : Integer.value 10 (Text.ofNat m) = m :=
  Integer.value_numeral (by decide) (by decide) m

theorem WritesDecimal.of_parts {t : Text} {n : Nat} {exponent : Int}
    (hvalue : Integer.value 10 (whole ++ fraction) = n) (hpos : 0 < n)
    (hread : ∀ rest, EndsNumber rest → readNumber (signed negative (t ++ rest)) =
      .ok (.float (Decimal.ofParts negative whole fraction exponent).toBinary64, rest)) :
    WritesDecimal t negative n (exponent - fraction.length) := by
  refine ⟨Decimal.ofParts negative whole fraction exponent, rfl, ?_, ?_, hread⟩
  · rw [Decimal.ofParts, hvalue]
    exact hpos
  · rw [Decimal.ofParts, hvalue]

theorem WritesDecimal.congr {t : Text} {n n' : Nat} {e' : Int} (h : WritesDecimal t negative n e)
    (hvalue : (n * 10 ^ e : ℚ) = n' * 10 ^ e') : WritesDecimal t negative n' e' := by
  obtain ⟨d, hsign, hpos, hd, hread⟩ := h
  exact ⟨d, hsign, hpos, hd.trans hvalue, hread⟩

/-- Digits that begin like the numeral of a number that is not zero. -/
theorem isWhole_of_head? (hm : 0 < m) (hhead : whole.head? = (Text.ofNat m).head?)
    (h : ∀ c ∈ whole, c.isDigit = true) : IsWhole whole := by
  obtain ⟨c, digits, heq, hc, -⟩ := exists_ofNat_eq_cons hm
  rw [heq, List.head?_cons] at hhead
  obtain ⟨others, rfl⟩ := List.head?_eq_some_iff.mp hhead
  exact .digits hc h

/-- A decimal is written with a point among its digits. -/
theorem WritesDecimal.of_point {n : Nat} (hwhole : IsWhole whole) (hfraction : fraction.IsDigits)
    (hvalue : Integer.value 10 (whole ++ fraction) = n) (hpos : 0 < n) :
    WritesDecimal (whole ++ "." ++ fraction) negative n (0 - fraction.length) := by
  refine .of_parts hvalue hpos fun rest hrest => ?_
  rw [← readNumber_fraction hwhole hfraction hrest]
  simp only [List.append_assoc]
  rfl

/-- The point and zeros stand in front of the digits. -/
theorem writesDecimal_zeros_digits (hm : 0 < m) (k : Nat) :
    WritesDecimal ("0." ++ zeros k ++ Text.ofNat m) negative m
      (0 - (k + (Text.ofNat m).length : Nat)) := by
  have hall := (Text.IsDigits.ofNat m).isDigit
  have hfraction : (zeros k ++ Text.ofNat m).IsDigits :=
    ⟨List.append_ne_nil_of_right_ne_nil _ (Text.IsDigits.ofNat m).ne_nil,
      List.forall_mem_append.mpr ⟨Integer.isDigit_of_mem_zeros, hall⟩⟩
  have hvalue : Integer.value 10 ([CodePoint.ofChar '0'] ++ (zeros k ++ Text.ofNat m)) = m := by
    rw [← List.append_assoc, Integer.value_append hall, value_ofNat, List.singleton_append,
      show CodePoint.ofChar '0' :: zeros k = zeros (k + 1) from rfl, Integer.value_zeros,
      Nat.zero_mul, Nat.zero_add]
  have hwrites := @WritesDecimal.of_point _ _ negative _ .zero hfraction hvalue hm
  rw [List.length_append, zeros, List.length_replicate] at hwrites
  rw [List.append_assoc]
  exact hwrites

/-- Zeros and the point stand behind the digits. -/
theorem writesDecimal_digits_zeros (hm : 0 < m) (k : Nat) :
    WritesDecimal (Text.ofNat m ++ zeros k ++ ".0") negative m k := by
  have hall := List.forall_mem_append.mpr
    ⟨(Text.IsDigits.ofNat m).isDigit, Integer.isDigit_of_mem_zeros (n := k)⟩
  have hwhole := isWhole_of_head? hm
    (List.head?_append_of_ne_nil _ (Text.IsDigits.ofNat m).ne_nil) hall
  have hfraction : Text.IsDigits [CodePoint.ofChar '0'] := ⟨List.cons_ne_nil _ _, by decide⟩
  have hvalue : Integer.value 10 (Text.ofNat m ++ zeros k ++ [CodePoint.ofChar '0']) =
      m * 10 ^ k * 10 := by
    rw [Integer.value_append (by decide), Integer.value_append Integer.isDigit_of_mem_zeros,
      value_ofNat, Integer.value_zeros, Nat.add_zero, zeros, List.length_replicate]
    rfl
  have hwrites := @WritesDecimal.of_point _ _ negative _ hwhole hfraction hvalue (by positivity)
  rw [List.append_assoc _ _ [CodePoint.ofChar '0']] at hwrites
  refine hwrites.congr ?_
  push_cast
  rw [zero_sub, List.length_singleton, Nat.cast_one, zpow_neg_one, zpow_natCast]
  ring

/-- The point stands among the digits. -/
theorem writesDecimal_take_drop (hm : 0 < m) {k : Nat} (hpos : 0 < k)
    (hlt : k < (Text.ofNat m).length) :
    WritesDecimal ((Text.ofNat m).take k ++ "." ++ (Text.ofNat m).drop k) negative m
      (0 - ((Text.ofNat m).length - k : Nat)) := by
  have hall := (Text.IsDigits.ofNat m).isDigit
  have hwhole : IsWhole ((Text.ofNat m).take k) := by
    refine isWhole_of_head? hm ?_ fun c hc => hall c (List.mem_of_mem_take hc)
    rw [List.head?_take, if_neg hpos.ne']
  have hlength : 0 < ((Text.ofNat m).drop k).length := by
    rw [List.length_drop]
    omega
  have hfraction : Text.IsDigits ((Text.ofNat m).drop k) :=
    ⟨List.ne_nil_of_length_pos hlength, fun c hc => hall c (List.mem_of_mem_drop hc)⟩
  have hvalue : Integer.value 10 ((Text.ofNat m).take k ++ (Text.ofNat m).drop k) = m := by
    rw [List.take_append_drop, value_ofNat]
  have hwrites := @WritesDecimal.of_point _ _ negative _ hwhole hfraction hvalue hm
  rwa [List.length_drop] at hwrites

theorem writesDecimal_positional (hm : 0 < m) (e : Int) :
    WritesDecimal (positional (Text.ofNat m) e) negative m (e + 1 - (Text.ofNat m).length) := by
  unfold positional
  dsimp only
  split_ifs with he hlong
  · rw [show e + 1 - (Text.ofNat m).length = 0 - ((-e - 1).toNat + (Text.ofNat m).length : Nat) by
      omega]
    exact writesDecimal_zeros_digits hm (-e - 1).toNat
  · rw [show e + 1 - (Text.ofNat m).length = (e.toNat + 1 - (Text.ofNat m).length : Nat) by omega]
    exact writesDecimal_digits_zeros hm (e.toNat + 1 - (Text.ofNat m).length)
  · rw [show e + 1 - (Text.ofNat m).length = 0 - ((Text.ofNat m).length - (e.toNat + 1) : Nat) by
      omega]
    exact writesDecimal_take_drop hm (Nat.succ_pos _) (Nat.lt_of_not_le hlong)

/-- The digits of an exponent, at least two. -/
def exponentDigits (e : Int) : Text :=
  zeros (2 - (Text.ofNat e.natAbs).length) ++ Text.ofNat e.natAbs

theorem isDigits_exponentDigits (e : Int) : (exponentDigits e).IsDigits :=
  ⟨List.append_ne_nil_of_right_ne_nil _ (Text.IsDigits.ofNat e.natAbs).ne_nil,
    List.forall_mem_append.mpr
      ⟨Integer.isDigit_of_mem_zeros, (Text.IsDigits.ofNat e.natAbs).isDigit⟩⟩

theorem exponentValue_exponentDigits (e : Int) :
    exponentValue (decide (e < 0)) (exponentDigits e) = e := by
  have hvalue : Integer.value 10 (exponentDigits e) = e.natAbs := by
    rw [exponentDigits, Integer.value_append (Text.IsDigits.ofNat e.natAbs).isDigit,
      Integer.value_zeros, value_ofNat, Nat.zero_mul, Nat.zero_add]
  rw [exponentValue, hvalue]
  by_cases he : e < 0
  · rw [decide_eq_true he, if_pos rfl]
    omega
  · rw [decide_eq_false he, if_neg Bool.false_ne_true]
    omega

/-- The form with an exponent, with its exponent as the reader takes it. -/
theorem scientific_eq (digits : Text) (e : Int) :
    scientific digits e =
      (match digits with
        | d :: rest@(_ :: _) => d :: CodePoint.ofChar '.' :: rest
        | short => short) ++
      CodePoint.ofChar 'e' :: exponentSign (decide (e < 0)) :: exponentDigits e := by
  have hmark : (if e < 0 then "e-" else "e+" : Text) =
      [CodePoint.ofChar 'e', exponentSign (decide (e < 0))] := by
    by_cases he : e < 0
    · rw [if_pos he, decide_eq_true he]
      rfl
    · rw [if_neg he, decide_eq_false he]
      rfl
  unfold scientific
  dsimp only
  rw [hmark, List.append_assoc, List.append_assoc]
  rfl

theorem writesDecimal_scientific (hm : 0 < m) (e : Int) :
    WritesDecimal (scientific (Text.ofNat m) e) negative m (e + 1 - (Text.ofNat m).length) := by
  have hexponent := exponentValue_exponentDigits e
  have hdigits := isDigits_exponentDigits e
  have hvalue := value_ofNat m
  have hwhole := isWhole_ofNat m
  obtain ⟨c, digits, heq, hc, hdigit, hall⟩ := exists_ofNat_eq_cons hm
  rw [heq] at hvalue hwhole ⊢
  rw [scientific_eq]
  cases digits with
  | nil =>
    have hparts : Integer.value 10 ([c] ++ []) = m := hvalue
    rw [show e + 1 - ([c].length : Int) = e - ([] : Text).length by simp]
    refine .of_parts hparts hm fun rest hrest => ?_
    have hread := @readNumber_exponent _ _ _ negative (decide (e < 0)) hwhole hdigits hrest.endsDigits
    rw [hexponent] at hread
    rw [← hread]
    rfl
  | cons d digits =>
    have hparts : Integer.value 10 ([c] ++ d :: digits) = m := hvalue
    have hfirst : IsWhole [c] := .digits hc (List.forall_mem_singleton.mpr hdigit)
    have hfraction : Text.IsDigits (d :: digits) := ⟨List.cons_ne_nil _ _, hall⟩
    rw [show e + 1 - ((c :: d :: digits).length : Int) = e - (d :: digits).length by
      rw [List.length_cons]
      omega]
    refine .of_parts hparts hm fun rest hrest => ?_
    have hread := @readNumber_fraction_exponent _ _ _ _ negative (decide (e < 0)) hfirst hfraction
      hdigits hrest.endsDigits
    rw [hexponent] at hread
    rw [← hread]
    simp only [List.append_assoc, List.cons_append, List.nil_append]

/-! ## Doubles -/

variable {x : Binary64}

theorem dropZeros_spec (fuel : Nat) :
    ∀ n, (dropZeros fuel n).1 * 10 ^ (dropZeros fuel n).2 = n := by
  induction fuel with
  | zero => intro n; exact Nat.mul_one n
  | succ fuel ih =>
    intro n
    rw [dropZeros]
    split_ifs with h
    · rw [Nat.pow_succ, ← Nat.mul_assoc, ih]
      omega
    · exact Nat.mul_one n

/-- The text of a finite double that is not zero, behind its sign. -/
def unsignedText (x : Binary64) : Text :=
  let m := (dropZeros 17 x.shortest.1).1
  let leading := x.shortest.2 + (dropZeros 17 x.shortest.1).2 + (Text.ofNat m).length - 1
  if Binary64.exponentBelow ≤ leading && leading < Binary64.exponentFrom then
    positional (Text.ofNat m) leading
  else scientific (Text.ofNat m) leading

theorem toText_eq (hfinite : x.isFinite = true) (hpos : x.magnitude ≠ 0) :
    x.toText = signed x.isNegative (unsignedText x) := by
  have hlt : x.magnitude < Binary64.infinityBits := of_decide_eq_true hfinite
  have hnan : x.isNaN = false := decide_eq_false (by omega)
  have hinfinite : x.isInfinite = false := decide_eq_false (by omega)
  have hzero : x.isZero = false := decide_eq_false hpos
  unfold Binary64.toText
  simp only [hnan, hinfinite, hzero, Bool.not_false, Bool.and_true, Bool.false_eq_true, if_false]
  cases x.isNegative <;> rfl

/-- **A double is written as its shortest decimal.** -/
theorem writesDecimal_unsignedText (hpos : 0 < x.shortest.1) :
    WritesDecimal (unsignedText x) negative x.shortest.1 x.shortest.2 := by
  have hspec := dropZeros_spec 17 x.shortest.1
  unfold unsignedText
  dsimp only
  generalize (dropZeros 17 x.shortest.1).1 = m at hspec ⊢
  generalize (dropZeros 17 x.shortest.1).2 = k at hspec ⊢
  have hm : 0 < m := by
    refine Nat.pos_of_ne_zero ?_
    rintro rfl
    omega
  have hvalue : (m * 10 ^ (x.shortest.2 + k + (Text.ofNat m).length - 1 + 1 -
      (Text.ofNat m).length) : ℚ) = x.shortest.1 * 10 ^ x.shortest.2 := by
    rw [sub_add_cancel, add_sub_cancel_right, zpow_add₀ (by norm_num), zpow_natCast, ← hspec]
    push_cast
    ring
  split_ifs
  · exact (writesDecimal_positional hm _).congr hvalue
  · exact (writesDecimal_scientific hm _).congr hvalue

theorem toText_of_zero (h : x.magnitude = 0) : x.toText = signed x.isNegative "0.0" := by
  have hnan : x.isNaN = false := by
    rw [Binary64.isNaN, h]
    rfl
  have hinfinite : x.isInfinite = false := by
    rw [Binary64.isInfinite, h]
    rfl
  have hzero : x.isZero = true := decide_eq_true h
  unfold Binary64.toText
  simp only [hnan, hinfinite, hzero, Bool.not_false, Bool.and_true, Bool.false_eq_true, if_false,
    if_true]
  cases x.isNegative <;> rfl

/-- **Finite doubles are read back.** -/
theorem readNumber_toText (hfinite : x.isFinite = true) (hrest : EndsNumber rest) :
    readNumber (x.toText ++ rest) = .ok (.float x, rest) := by
  by_cases hzero : x.magnitude = 0
  · have hdigits : Text.IsDigits [CodePoint.ofChar '0'] := ⟨List.cons_ne_nil _ _, by decide⟩
    have hvalue : (Decimal.ofParts x.isNegative ['0'] ['0'] 0).toBinary64 = x := by
      conv_rhs => rw [← Binary64.ofMagnitude_eq x, hzero]
      rfl
    have hread := @readNumber_fraction _ _ _ x.isNegative .zero hdigits hrest
    rw [hvalue] at hread
    rw [toText_of_zero hzero, ← hread]
    cases x.isNegative <;> rfl
  · have hreads := Binary64.readsBack_shortest hfinite hzero
    obtain ⟨d, hsign, hd, hvalue, hread⟩ := @writesDecimal_unsignedText x.isNegative x
      (Binary64.digits_pos_of_readsBack hzero hreads)
    rw [← Binary64.readsBack_congr hd (Binary64.digits_pos_of_readsBack hzero hreads) hvalue] at hreads
    have hsigned : signed x.isNegative (unsignedText x) ++ rest =
        signed x.isNegative (unsignedText x ++ rest) := by
      cases x.isNegative <;> rfl
    rw [toText_eq hfinite hzero, hsigned, hread rest hrest,
      Decimal.toBinary64_eq hfinite hzero hsign hreads]

end TopologyAudit.Json
