import Mathlib.Data.List.Chain
import TopologyAudit.Json.Printer
import TopologyAudit.Json.Reader
import TopologyAudit.Proofs.Text.Basic
import TopologyAudit.Proofs.Text.Numeral

/-!
# Strings are read back

Within quotes a code point is written in one of four forms (`Escaped`): as it stands, by a
letter, by its number, or by the numbers of two surrogates. Each form is read back as the
code point, with one exception. Two surrogates that stand side by side in a text are written
like a code point beyond them and are read as that code point: what comes back of a text is
the text with its pairs joined (`readString_flatMap`), so a text without pairs comes back as
it is.
-/

namespace TopologyAudit

/-- The text with the code point of every surrogate pair in the place of its halves. -/
def Text.joined : Text → Text
  | [] => []
  | [c] => [c]
  | c :: d :: rest =>
    if c.isHighSurrogate && d.isLowSurrogate then Json.joinSurrogates c d :: joined rest
    else c :: joined (d :: rest)

/-- That no high surrogate stands directly in front of a low one. -/
def Text.IsUnpaired (t : Text) : Prop :=
  t.IsChain fun c d => ¬(c.isHighSurrogate = true ∧ d.isLowSurrogate = true)

theorem Text.joined_of_isUnpaired {t : Text} (h : t.IsUnpaired) : t.joined = t := by
  unfold IsUnpaired at h
  induction h with
  | nil => rfl
  | singleton c => rfl
  | cons_cons hcd _ ih =>
    rw [joined, if_neg (mt Bool.and_eq_true_iff.mp hcd), ih]

namespace Json

variable {opened acc tail : Text} {c : CodePoint} {n m : Nat}

/-! ## Escapes by number -/

theorem unicodeEscape_eq (h : n < 0x10000) :
    unicodeEscape n = [CodePoint.ofChar '\\', CodePoint.ofChar 'u', Text.digit (n / 0x1000),
      Text.digit (n / 0x100 % 16), Text.digit (n / 16 % 16), Text.digit (n % 16)] := by
  rw [unicodeEscape, Text.hex_four h]
  rfl

theorem fourHex?_digits (h : n < 0x10000) :
    fourHex? (Text.digit (n / 0x1000)) (Text.digit (n / 0x100 % 16)) (Text.digit (n / 16 % 16))
      (Text.digit (n % 16)) = some n := by
  rw [fourHex?, Text.hexValue?_digit (by omega), Text.hexValue?_digit (by omega),
    Text.hexValue?_digit (by omega), Text.hexValue?_digit (by omega)]
  show some ((n / 0x1000 * 16 + n / 0x100 % 16) * 256 + (n / 16 % 16 * 16 + n % 16)) = some n
  rw [Option.some.injEq]
  omega

/-! ## Surrogates -/

theorem val_lt_of_isSurrogate (h : c.isSurrogate = true) : c.val < 0x10000 := by
  simp only [CodePoint.isSurrogate, CodePoint.within, Bool.and_eq_true, decide_eq_true_eq] at h
  omega

theorem isSurrogate_of_isHighSurrogate (h : c.isHighSurrogate = true) : c.isSurrogate = true := by
  simp only [CodePoint.isSurrogate, CodePoint.isHighSurrogate, CodePoint.within, Bool.and_eq_true,
    decide_eq_true_eq] at h ⊢
  omega

theorem isSurrogate_of_isLowSurrogate (h : c.isLowSurrogate = true) : c.isSurrogate = true := by
  simp only [CodePoint.isSurrogate, CodePoint.isLowSurrogate, CodePoint.within, Bool.and_eq_true,
    decide_eq_true_eq] at h ⊢
  omega

theorem isLowSurrogate_of_isHighSurrogate (h : c.isHighSurrogate = true) :
    c.isLowSurrogate = false := by
  simp only [CodePoint.isHighSurrogate, CodePoint.isLowSurrogate, CodePoint.within,
    Bool.and_eq_true, Bool.and_eq_false_iff, decide_eq_true_eq, decide_eq_false_iff_not] at h ⊢
  omega

/-- A pair stands for a code point beyond the surrogates. -/
theorem le_val_joinSurrogates {high low : CodePoint} (hhigh : high.isHighSurrogate = true)
    (hlow : low.isLowSurrogate = true) : 0x10000 ≤ (joinSurrogates high low).val := by
  simp only [CodePoint.isHighSurrogate, CodePoint.isLowSurrogate, CodePoint.within,
    Bool.and_eq_true, decide_eq_true_eq] at hhigh hlow
  rw [joinSurrogates, CodePoint.val_ofNat (by omega)]
  omega

/-! ## The steps of the reader -/

theorem beq_quote_slash : (CodePoint.ofChar '\\' == CodePoint.ofChar '"') = false := by decide

/-- A code point that stands for itself. -/
theorem readString_literal (hquote : (c == '"') = false) (hslash : (c == '\\') = false)
    (hcontrol : 0x20 ≤ c.val) :
    readString opened (c :: tail) acc = readString opened tail (c :: acc) := by
  rw [readString.eq_def]
  simp only [hquote, hslash, Nat.not_lt.mpr hcontrol, Bool.false_eq_true, if_false]

theorem readString_short {e : CodePoint} (he : (e == 'u') = false) (hc : escapeValue? e = some c) :
    readString opened (CodePoint.ofChar '\\' :: e :: tail) acc =
      readString opened tail (c :: acc) := by
  rw [readString.eq_def]
  simp only [beq_quote_slash, beq_self_eq_true, he, hc, Bool.false_eq_true, if_false, if_true]

/-- How the text behind an escape by number may begin so that the escape stands by itself:
with anything but the escape of a low surrogate. -/
inductive StandsApart : Text → Prop
  | literal {c : CodePoint} {tail : Text} (h : (c == '\\') = false) : StandsApart (c :: tail)
  | short {e : CodePoint} {tail : Text} (h : (e == 'u') = false) :
    StandsApart (CodePoint.ofChar '\\' :: e :: tail)
  | numbered {m : Nat} {tail : Text} (h : m < 0x10000) (hlow : (CodePoint.ofNat m).isLowSurrogate = false)
    (htail : tail ≠ []) : StandsApart (unicodeEscape m ++ tail)

/-- An escape by number that no low surrogate follows. -/
theorem readString_numbered (h : n < 0x10000) (hapart : StandsApart tail) :
    readString opened (unicodeEscape n ++ tail) acc =
      readString opened tail (CodePoint.ofNat n :: acc) := by
  rw [unicodeEscape_eq h]
  simp only [List.cons_append, List.nil_append]
  rw [readString.eq_def]
  simp only [beq_quote_slash, beq_self_eq_true, Bool.false_eq_true, if_false, if_true,
    fourHex?_digits h]
  cases hapart with
  | literal hc =>
    simp only [List.isEmpty_cons, Bool.false_eq_true, if_false]
    split
    next b _ _ _ _ _ _ _ heq =>
      have hb : (b == CodePoint.ofChar '\\') = false := (List.cons.inj heq).1 ▸ hc
      rw [heq]
      simp only [hb, Bool.and_false, Bool.false_and, Bool.false_eq_true, if_false]
    next => rfl
  | short he =>
    simp only [List.isEmpty_cons, Bool.false_eq_true, if_false]
    split
    next _ u _ _ _ _ _ _ heq =>
      have hu : (u == CodePoint.ofChar 'u') = false :=
        (List.cons.inj (List.cons.inj heq).2).1 ▸ he
      rw [heq]
      simp only [hu, Bool.and_false, Bool.false_eq_true, if_false]
    next => rfl
  | @numbered m tail hm hlow htail =>
    obtain ⟨x, after, rfl⟩ := List.exists_cons_of_ne_nil htail
    rw [unicodeEscape_eq hm]
    simp only [List.cons_append, List.nil_append, List.isEmpty_cons, Bool.false_eq_true, if_false,
      beq_self_eq_true, Bool.and_true, fourHex?_digits hm, hlow, ite_self]

/-- Other escapes by number than those of high surrogates do not look at what follows. -/
theorem readString_numbered_of_not_high (h : n < 0x10000)
    (hhigh : (CodePoint.ofNat n).isHighSurrogate = false) (htail : tail ≠ []) :
    readString opened (unicodeEscape n ++ tail) acc =
      readString opened tail (CodePoint.ofNat n :: acc) := by
  obtain ⟨x, after, rfl⟩ := List.exists_cons_of_ne_nil htail
  rw [unicodeEscape_eq h]
  simp only [List.cons_append, List.nil_append]
  rw [readString.eq_def]
  simp only [beq_quote_slash, beq_self_eq_true, Bool.false_eq_true, if_false, if_true,
    fourHex?_digits h, List.isEmpty_cons, hhigh, Bool.false_and]
  split
  next heq => rw [heq]
  next => rfl

/-- The escapes of two surrogates that make a pair. -/
theorem readString_pair {high low : CodePoint} (hhigh : high.isHighSurrogate = true)
    (hlow : low.isLowSurrogate = true) (htail : tail ≠ []) :
    readString opened (unicodeEscape high.val ++ (unicodeEscape low.val ++ tail)) acc =
      readString opened tail (joinSurrogates high low :: acc) := by
  have hn := val_lt_of_isSurrogate (isSurrogate_of_isHighSurrogate hhigh)
  have hm := val_lt_of_isSurrogate (isSurrogate_of_isLowSurrogate hlow)
  obtain ⟨x, after, rfl⟩ := List.exists_cons_of_ne_nil htail
  rw [unicodeEscape_eq hn, unicodeEscape_eq hm]
  simp only [List.cons_append, List.nil_append]
  rw [readString.eq_def]
  simp only [beq_quote_slash, beq_self_eq_true, Bool.false_eq_true, if_false, if_true,
    fourHex?_digits hn, fourHex?_digits hm, List.isEmpty_cons, CodePoint.ofNat_val, hhigh, hlow,
    Bool.and_true]

/-! ## The four forms -/

/-- The forms in which a code point is written within quotes. -/
inductive Escaped : CodePoint → Text → Prop
  | literal {c : CodePoint} (hrange : c.within 0x20 0x7E = true) (hquote : (c == '"') = false)
    (hslash : (c == '\\') = false) : Escaped c [c]
  | short {c e : CodePoint} (hascii : c.isAscii = true ∧ e.isAscii = true) (he : (e == 'u') = false)
    (hc : escapeValue? e = some c) : Escaped c [CodePoint.ofChar '\\', e]
  | numbered {c : CodePoint} (h : c.val < 0x10000) : Escaped c (unicodeEscape c.val)
  | pair {c high low : CodePoint} (hhigh : high.isHighSurrogate = true)
    (hlow : low.isLowSurrogate = true) (hc : joinSurrogates high low = c) :
    Escaped c (unicodeEscape high.val ++ unicodeEscape low.val)

theorem escaped_short (c : CodePoint) (e : Char)
    (h : (c.isAscii = true ∧ (CodePoint.ofChar e).isAscii = true) ∧
      (CodePoint.ofChar e == CodePoint.ofChar 'u') = false ∧
        escapeValue? (CodePoint.ofChar e) = some c) :
    Escaped c [CodePoint.ofChar '\\', CodePoint.ofChar e] :=
  .short h.1 h.2.1 h.2.2

/-- Beyond the surrogates a code point is written by the pair that stands for it. -/
theorem escaped_pair (h : ¬c.val ≤ 0xFFFF) :
    Escaped c (unicodeEscape (0xD800 + (c.val - 0x10000) / 0x400) ++
      unicodeEscape (0xDC00 + (c.val - 0x10000) % 0x400)) := by
  have hlt := c.val_lt
  have hhigh : 0xD800 + (c.val - 0x10000) / 0x400 ≤ 0xDBFF := by omega
  have hlow : 0xDC00 + (c.val - 0x10000) % 0x400 ≤ 0xDFFF := by omega
  refine @Escaped.pair c ⟨0xD800 + (c.val - 0x10000) / 0x400, by omega⟩
    ⟨0xDC00 + (c.val - 0x10000) % 0x400, by omega⟩ ?_ ?_ ?_
  · simp only [CodePoint.isHighSurrogate, CodePoint.within, Bool.and_eq_true, decide_eq_true_eq]
    omega
  · simp only [CodePoint.isLowSurrogate, CodePoint.within, Bool.and_eq_true, decide_eq_true_eq]
    omega
  · have hval : 0x10000 + (0xD800 + (c.val - 0x10000) / 0x400 - 0xD800) * 0x400 +
        (0xDC00 + (c.val - 0x10000) % 0x400 - 0xDC00) = c.val := by
      omega
    rw [joinSurrogates, hval, CodePoint.ofNat_val]

theorem escaped_escapeCodePoint (c : CodePoint) : Escaped c (escapeCodePoint c) := by
  unfold escapeCodePoint
  split_ifs with hquote hslash hrange hn hr ht hf hb hbmp
  · rw [eq_of_beq hquote]
    exact escaped_short _ '"' (by decide)
  · rw [eq_of_beq hslash]
    exact escaped_short _ '\\' (by decide)
  · exact .literal hrange (Bool.eq_false_iff.mpr hquote) (Bool.eq_false_iff.mpr hslash)
  · rw [eq_of_beq hn]
    exact escaped_short _ 'n' (by decide)
  · rw [eq_of_beq hr]
    exact escaped_short _ 'r' (by decide)
  · rw [eq_of_beq ht]
    exact escaped_short _ 't' (by decide)
  · rw [CodePoint.ext_val (b := ⟨0x0C, by decide⟩) hf]
    exact escaped_short _ 'f' (by decide)
  · rw [CodePoint.ext_val (b := ⟨0x08, by decide⟩) hb]
    exact escaped_short _ 'b' (by decide)
  · exact .numbered (Nat.lt_succ_of_le hbmp)
  · exact escaped_pair hbmp

theorem isAscii_unicodeEscape (h : n < 0x10000) : ∀ x ∈ unicodeEscape n, x.isAscii = true := by
  have hdigit : ∀ {d : Nat}, d < 16 → (Text.digit d).isAscii = true := by decide
  rw [unicodeEscape_eq h]
  simp only [List.forall_mem_cons]
  exact ⟨by decide, by decide, hdigit (by omega), hdigit (by omega), hdigit (by omega),
    hdigit (by omega), nofun⟩

namespace Escaped

variable {e : Text}

/-- What is written is in ASCII. -/
theorem isAscii (h : Escaped c e) : ∀ x ∈ e, x.isAscii = true := by
  cases h with
  | literal hrange =>
    rw [List.forall_mem_singleton, CodePoint.isAscii, decide_eq_true_eq]
    rw [CodePoint.within, Bool.and_eq_true, decide_eq_true_eq, decide_eq_true_eq] at hrange
    omega
  | short hascii => exact List.forall_mem_cons.mpr ⟨by decide, List.forall_mem_singleton.mpr hascii.2⟩
  | numbered hbmp => exact isAscii_unicodeEscape hbmp
  | pair hhigh hlow =>
    rw [List.forall_mem_append]
    exact ⟨isAscii_unicodeEscape (val_lt_of_isSurrogate (isSurrogate_of_isHighSurrogate hhigh)),
      isAscii_unicodeEscape (val_lt_of_isSurrogate (isSurrogate_of_isLowSurrogate hlow))⟩

/-- Surrogates are written by number. -/
theorem eq_unicodeEscape (h : Escaped c e) (hc : c.isSurrogate = true) :
    e = unicodeEscape c.val := by
  simp only [CodePoint.isSurrogate, CodePoint.within, Bool.and_eq_true, decide_eq_true_eq] at hc
  cases h with
  | literal hrange =>
    simp only [CodePoint.within, Bool.and_eq_true, decide_eq_true_eq] at hrange
    omega
  | short hascii =>
    have hlt := of_decide_eq_true hascii.1
    omega
  | numbered => rfl
  | pair hhigh hlow hjoin =>
    -- a pair stands for a code point that lies beyond the surrogates
    have hbeyond := le_val_joinSurrogates hhigh hlow
    rw [hjoin] at hbeyond
    omega

theorem standsApart (h : Escaped c e) (hlow : c.isLowSurrogate = false) (htail : tail ≠ []) :
    StandsApart (e ++ tail) := by
  cases h with
  | literal _ _ hslash => exact .literal hslash
  | short _ he => exact .short he
  | numbered hbmp => exact .numbered hbmp (by rwa [CodePoint.ofNat_val]) htail
  | pair hhigh =>
    rw [List.append_assoc]
    refine .numbered (val_lt_of_isSurrogate (isSurrogate_of_isHighSurrogate hhigh)) ?_ ?_
    · rw [CodePoint.ofNat_val]
      exact isLowSurrogate_of_isHighSurrogate hhigh
    · exact List.append_ne_nil_of_right_ne_nil _ htail

/-- **A step of the reader.** -/
theorem readString (h : Escaped c e) (htail : tail ≠ [])
    (hapart : c.isHighSurrogate = true → StandsApart tail) :
    readString opened (e ++ tail) acc = readString opened tail (c :: acc) := by
  cases h with
  | literal hrange hquote hslash =>
    rw [CodePoint.within, Bool.and_eq_true, decide_eq_true_eq] at hrange
    exact readString_literal hquote hslash hrange.1
  | short _ he hc => exact readString_short he hc
  | numbered hbmp =>
    cases hhigh : c.isHighSurrogate with
    | true => rw [readString_numbered hbmp (hapart hhigh), CodePoint.ofNat_val]
    | false => rw [readString_numbered_of_not_high hbmp (by rwa [CodePoint.ofNat_val]) htail, CodePoint.ofNat_val]
  | @pair high low hhigh hlow hjoin =>
    rw [List.append_assoc, readString_pair hhigh hlow htail, hjoin]

end Escaped

/-! ## Texts -/

variable {after : Text}

theorem readString_quote :
    readString opened (CodePoint.ofChar '"' :: tail) acc = .ok (acc.reverse, tail) := by
  rw [readString.eq_def]
  simp only [beq_self_eq_true, if_true]

/-- Behind a code point stands something, at least the closing quote. -/
theorem escapes_ne_nil (t : Text) :
    t.flatMap escapeCodePoint ++ CodePoint.ofChar '"' :: after ≠ [] :=
  List.append_ne_nil_of_right_ne_nil _ (List.cons_ne_nil _ _)

theorem readString_pair_cons {d : CodePoint} (hhigh : c.isHighSurrogate = true)
    (hlow : d.isLowSurrogate = true) (htail : tail ≠ []) :
    readString opened (escapeCodePoint c ++ (escapeCodePoint d ++ tail)) acc =
      readString opened tail (joinSurrogates c d :: acc) := by
  have hc := isSurrogate_of_isHighSurrogate hhigh
  have hd := isSurrogate_of_isLowSurrogate hlow
  rw [(escaped_escapeCodePoint c).eq_unicodeEscape hc, (escaped_escapeCodePoint d).eq_unicodeEscape hd,
    readString_pair hhigh hlow htail]

/-- **What is read of a text within quotes** is the text with its pairs joined. -/
theorem readString_flatMap (t : Text) :
    readString opened (t.flatMap escapeCodePoint ++ CodePoint.ofChar '"' :: after) acc =
      .ok (acc.reverse ++ t.joined, after) := by
  induction t using Text.joined.induct generalizing acc with
  | case1 =>
    rw [List.flatMap_nil, List.nil_append, readString_quote, Text.joined, List.append_nil]
  | case2 c =>
    rw [List.flatMap_cons, List.flatMap_nil, List.append_nil,
      (escaped_escapeCodePoint c).readString (List.cons_ne_nil _ _)
        (fun _ => .literal (by decide)), readString_quote, Text.joined, List.reverse_cons]
  | case3 c d rest hpair ih =>
    obtain ⟨hhigh, hlow⟩ := Bool.and_eq_true_iff.mp hpair
    rw [List.flatMap_cons, List.flatMap_cons, List.append_assoc, List.append_assoc,
      readString_pair_cons hhigh hlow (escapes_ne_nil rest), ih, Text.joined, if_pos hpair,
      List.reverse_cons, List.append_assoc, List.singleton_append]
  | case4 c d rest hpair ih =>
    -- a high surrogate is read by itself, since what follows is not a low one
    have hapart : c.isHighSurrogate = true → StandsApart
        ((d :: rest).flatMap escapeCodePoint ++ CodePoint.ofChar '"' :: after) := by
      intro hhigh
      rw [List.flatMap_cons, List.append_assoc]
      refine (escaped_escapeCodePoint d).standsApart ?_ (escapes_ne_nil rest)
      rw [hhigh, Bool.true_and] at hpair
      exact Bool.eq_false_iff.mpr hpair
    rw [List.flatMap_cons, List.append_assoc,
      (escaped_escapeCodePoint c).readString (escapes_ne_nil (d :: rest)) hapart, ih, Text.joined,
      if_neg hpair, List.reverse_cons, List.append_assoc, List.singleton_append]

/-- Texts are written in ASCII. -/
theorem isAscii_renderText (t : Text) : ∀ c ∈ renderText t, c.isAscii = true := by
  rw [renderText]
  simp only [List.forall_mem_append, List.forall_mem_flatMap]
  exact ⟨by decide, fun c _ => (escaped_escapeCodePoint c).isAscii, by decide⟩

end Json

end TopologyAudit
