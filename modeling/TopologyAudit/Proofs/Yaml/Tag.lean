import Mathlib.Data.List.TakeWhile
import TopologyAudit.Proofs.Yaml.Scalar

/-!
# Tags by content agree with conversions

A plain scalar gets its tag by the forms of the tags, and the conversions have their own
idea of what they can read. `Breaks.of_ofContent` compares the two: of the scalars that
have their tag by content and do not end in a line feed, only doubles in base sixty with
very many places break the conversion for it.
-/

namespace TopologyAudit.Yaml

open CodePoint (colon)

namespace Form

variable {t : Text}

theorem mem_of_mem_dropSign {c : CodePoint} (h : c ∈ dropSign t) : c ∈ t := by
  unfold dropSign at h
  split at h
  next =>
    split at h
    next => exact List.mem_cons_of_mem _ h
    next => exact h
  next => exact h

/-- A form that a line feed may follow is kept by texts that end in none. -/
theorem of_matchesLine {form : Text → Bool} (h : matchesLine form t = true)
    (hfeed : t.getLast? ≠ some (CodePoint.ofChar '\n')) : form t = true := by
  unfold matchesLine at h
  rcases Bool.or_eq_true_iff.mp h with h | h
  · exact h
  · exact absurd (eq_of_beq (Bool.and_eq_true_iff.mp h).1) hfeed

/-! ## What forms of numbers hold -/

theorem exists_digit_of_isPositive (h : isPositive t = true) : ∃ c ∈ t, c.isDigit = true := by
  cases t with
  | nil => exact absurd h (by decide)
  | cons c rest =>
    have hc := (Bool.and_eq_true_iff.mp h).1
    refine ⟨c, List.mem_cons_self .., ?_⟩
    rw [CodePoint.within, Bool.and_eq_true_iff, decide_eq_true_eq] at hc
    rw [CodePoint.isDigit, CodePoint.within, Bool.and_eq_true_iff, decide_eq_true_eq]
    exact ⟨by omega, hc.2⟩

/-- A numeral with a prefix begins with a zero. -/
theorem exists_digit_of_isPrefixed {start : Text} {isPart : CodePoint → Bool}
    (hstart : CodePoint.ofChar '0' ∈ start) (h : isPrefixed start isPart t = true) :
    ∃ c ∈ t, c.isDigit = true := by
  have hbegin : t.startsWith start = true := by
    have h' := (Bool.and_eq_true_iff.mp h).1
    exact (Bool.and_eq_true_iff.mp h').1
  exact ⟨_, (List.isPrefixOf_iff_prefix.mp hbegin).subset hstart, by decide⟩

theorem exists_digit_of_isSexagesimal (h : isSexagesimal isPositive t = true) :
    ∃ c ∈ t, c.isDigit = true := by
  unfold isSexagesimal at h
  split at h
  next leading places hsplit =>
    have hleading := (Bool.and_eq_true_iff.mp (Bool.and_eq_true_iff.mp h).1).1
    obtain ⟨c, hc, hdigit⟩ := exists_digit_of_isPositive hleading
    exact ⟨c, Text.mem_of_mem_splitOn (hsplit ▸ List.mem_cons_self ..) hc, hdigit⟩
  next => exact absurd h (by decide)

/-- An integer has a digit. -/
theorem exists_digit_of_isInt (h : isInt t = true) : ∃ c ∈ t, c.isDigit = true := by
  have hunsigned : ∃ c ∈ dropSign t, c.isDigit = true := by
    unfold isInt at h
    simp only [Bool.or_eq_true] at h
    rcases h with ((((h | h) | h) | h) | h) | h
    · exact exists_digit_of_isPrefixed (by decide) h
    · exact exists_digit_of_isPrefixed (by decide) h
    · rw [eq_of_beq h]
      exact ⟨CodePoint.ofChar '0', by decide, by decide⟩
    · exact exists_digit_of_isPositive h
    · exact exists_digit_of_isPrefixed (by decide) h
    · exact exists_digit_of_isSexagesimal h
  obtain ⟨c, hc, hdigit⟩ := hunsigned
  exact ⟨c, mem_of_mem_dropSign hc, hdigit⟩

/-- What is split at a point has one. -/
theorem point_mem_of_splitPoint {parts : Text × Text} (h : splitPoint t = some parts) :
    CodePoint.ofChar '.' ∈ t := by
  unfold splitPoint at h
  dsimp only at h
  split at h
  next => cases h
  next c fraction hdrop =>
    by_contra hpoint
    -- without a point the part in front of it is the whole text
    have hall : t.takeWhile (fun c : CodePoint => !(c == CodePoint.ofChar '.')) = t := by
      refine List.takeWhile_eq_self_iff.mpr ?_
      intro c hc
      rw [Bool.not_eq_true', beq_eq_false_iff_ne]
      intro hr
      subst hr
      exact hpoint hc
    rw [hall, List.drop_length] at hdrop
    cases hdrop

theorem mem_of_isOneOf {words : List String} {c : CodePoint}
    (hwords : ∀ w ∈ words, c ∈ Text.ofString w) (h : isOneOf words t = true) : c ∈ t := by
  obtain ⟨w, hw, heq⟩ := List.any_eq_true.mp h
  rw [← eq_of_beq heq]
  exact hwords w hw

/-- A double has a point. -/
theorem point_mem_of_isFloat (h : isFloat t = true) : CodePoint.ofChar '.' ∈ t := by
  unfold isFloat at h
  simp only [Bool.or_eq_true] at h
  rcases h with ((h | h) | h) | h
  · exact mem_of_isOneOf (by decide) h
  · exact mem_of_mem_dropSign (mem_of_isOneOf (by decide) h)
  · split at h
    next => exact absurd h (by decide)
    next hsplit => exact mem_of_mem_dropSign (point_mem_of_splitPoint hsplit)
  · split at h
    next =>
      have hpoint := (Bool.and_eq_true_iff.mp (Bool.and_eq_true_iff.mp h).1).1
      rw [eq_of_beq hpoint]
      exact List.mem_cons_self ..
    next => exact absurd h (by decide)

/-- The words for truth values are read in any case. -/
theorem isOneOf_lower_of_isBool (h : isBool t = true) :
    isOneOf Convert.boolWords t.lower = true := by
  obtain ⟨w, hw, heq⟩ := List.any_eq_true.mp h
  rw [← eq_of_beq heq]
  clear heq
  revert w
  decide +kernel

end Form

/-- The forms of the scalars that have a tag by their content, for the tags that ask for a
conversion which may break down. -/
theorem Tag.matchesLine_of_ofContent {t tag : Text} (h : Tag.ofContent t = tag) :
    (tag = Tag.bool → Form.matchesLine Form.isBool t = true) ∧
      (tag = Tag.float → Form.matchesLine Form.isFloat t = true) ∧
      (tag = Tag.int → Form.matchesLine Form.isInt t = true) ∧
      (tag = Tag.timestamp → Form.matchesLine Form.isTimestamp t = true) := by
  unfold Tag.ofContent at h
  dsimp only at h
  split at h
  next begins form found hfind =>
    subst h
    have hfound := List.find?_some hfind
    have hform : Form.matchesLine form t = true := (Bool.and_eq_true_iff.mp hfound).2
    have hmem := List.mem_of_find?_eq_some hfind
    simp only [List.mem_cons, Prod.mk.injEq, List.not_mem_nil, or_false] at hmem
    -- Each entry has the tag of one form; the other tags are different words.
    rcases hmem with ⟨-, rfl, rfl⟩ | ⟨-, rfl, rfl⟩ | ⟨-, rfl, rfl⟩ | ⟨-, rfl, rfl⟩ |
      ⟨-, rfl, rfl⟩ | ⟨-, rfl, rfl⟩ | ⟨-, rfl, rfl⟩ | ⟨-, rfl, rfl⟩ <;>
      (refine ⟨?_, ?_, ?_, ?_⟩ <;> intro h <;>
        first | exact hform | exact absurd h (by decide))
  next =>
    subst h
    refine ⟨?_, ?_, ?_, ?_⟩ <;> intro h <;> exact absurd h (by decide)

namespace Convert

variable {t : Text}

/-- A sign is all that the unsigned part of a number lacks. -/
theorem mem_takeSign {c : CodePoint} (h : c ∈ t) (hdigit : c.isDigit = true) :
    c ∈ t.takeSign.2 := by
  cases t with
  | nil => exact h
  | cons x rest =>
    rw [Text.takeSign]
    rcases List.mem_cons.mp h with rfl | h
    · have hne : ∀ sign : CodePoint, sign.isDigit = false → (c == sign) = false := by
        intro sign hsign
        rw [beq_eq_false_iff_ne]
        intro hr
        subst hr
        rw [hdigit] at hsign
        cases hsign
      rw [hne _ (by decide), hne _ (by decide)]
      exact h
    · split
      next => exact h
      next =>
        split
        next => exact h
        next => exact List.mem_cons_of_mem _ h

theorem count_dropLines_le (x : CodePoint) : (dropLines t).count x ≤ t.count x :=
  (List.filter_sublist ..).count_le x

theorem mem_dropLines {c : CodePoint} (h : c ∈ t) (hc : c ≠ CodePoint.ofChar '_') :
    c ∈ dropLines t := by
  refine List.mem_filter.mpr ⟨h, ?_⟩
  rw [Bool.not_eq_true', beq_eq_false_iff_ne]
  exact hc

theorem takeSign_sublist (t : Text) : t.takeSign.2.Sublist t := by
  cases t with
  | nil => exact List.Sublist.refl _
  | cons c rest =>
    rw [Text.takeSign]
    split
    next => exact List.sublist_cons_self _ _
    next =>
      split
      next => exact List.sublist_cons_self _ _
      next => exact List.Sublist.refl _

/-- The colons of a double are those of its text. -/
theorem count_floatBody_le : (floatBody t).count colon ≤ t.count colon := by
  calc (floatBody t).count colon ≤ (dropLines t).lower.count colon :=
        (takeSign_sublist _).count_le colon
    _ = (dropLines t).count colon := Text.count_lower CodePoint.isSign_colon _
    _ ≤ t.count colon := count_dropLines_le colon

/-- **Tags by content agree with conversions.** A scalar breaks the conversion for its tag
by content only with a long double in base sixty. -/
theorem Breaks.of_ofContent {b : Breakdown} (h : Breaks (Tag.ofContent t) t b)
    (hfeed : t.getLast? ≠ some (CodePoint.ofChar '\n')) :
    b = .hugePlaceValue ∧ placeLimit ≤ t.count colon := by
  cases h with
  | bool htag h =>
    have hform := (Tag.matchesLine_of_ofContent htag).1 rfl
    rw [Form.isOneOf_lower_of_isBool (Form.of_matchesLine hform hfeed)] at h
    cases h
  | int htag h =>
    have hform := (Tag.matchesLine_of_ofContent htag).2.2.1 rfl
    obtain ⟨c, hc, hdigit⟩ := Form.exists_digit_of_isInt (Form.of_matchesLine hform hfeed)
    have hne : c ≠ CodePoint.ofChar '_' := by
      intro hr
      subst hr
      exact absurd hdigit (by decide)
    -- the digit outlives underscores and sign
    have hmem := mem_takeSign (mem_dropLines hc hne) hdigit
    rw [h] at hmem
    exact absurd hmem List.not_mem_nil
  | float htag h =>
    have hform := (Tag.matchesLine_of_ofContent htag).2.1 rfl
    have hpoint := Form.point_mem_of_isFloat (Form.of_matchesLine hform hfeed)
    -- the point outlives underscores and lower case
    have hcount := Text.count_lower (x := CodePoint.ofChar '.') (by decide) (dropLines t)
    rw [h, List.count_nil, eq_comm, List.count_eq_zero] at hcount
    exact absurd (mem_dropLines hpoint (by decide)) hcount
  | places htag hread hcount => exact ⟨rfl, Nat.le_trans hcount count_floatBody_le⟩
  | timestamp htag h hchomp =>
    have hform := (Tag.matchesLine_of_ofContent htag).2.2.2 rfl
    -- the form by content and that of the conversion are one
    have htimestamp := Form.of_matchesLine hform hfeed
    rw [Form.isTimestamp, h] at htimestamp
    cases htimestamp

end Convert

end TopologyAudit.Yaml
