import Mathlib.Algebra.Group.Nat.Defs
import Mathlib.Data.List.TakeWhile
import TopologyAudit.Proofs.Yaml.Token.Property
import TopologyAudit.Yaml.Token.Scalar

/-!
# Readers of scalars

Of the readers of scalars only the one of escapes by number can break down, and it takes
eight hexadecimal digits to do so (`scanQuoted_ends`). A plain scalar is made of runs of
the text and of folded line ends, so it has no colon of its own (`scanPlain_isPlainOf`).
-/

namespace TopologyAudit

namespace Integer

theorem digitValue?_lt {base d : Nat} {c : CodePoint} (h : digitValue? base c = some d) :
    d < base := by
  have hd := (Option.filter_eq_some_iff.mp h).2
  exact of_decide_eq_true hd

/-- Steps that take in one digit each stay below one more power each. -/
theorem foldl_lt_pow {base : Nat} {step : Nat → CodePoint → Nat}
    (hstep : ∀ n k c, n < base ^ k → step n c < base ^ (k + 1)) (list : Text) :
    ∀ n k, n < base ^ k → list.foldl step n < base ^ (k + list.length) := by
  induction list with
  | nil => intro n k hn; exact hn
  | cons c rest ih =>
    intro n k hn
    rw [List.foldl_cons, List.length_cons, ← Nat.add_assoc, Nat.add_right_comm]
    exact ih _ (k + 1) (hstep n k c hn)

/-- So many digits write a number below that power of the base. -/
theorem value_lt {base : Nat} (hbase : 0 < base) (digits : Text) :
    value base digits < base ^ digits.length := by
  unfold value
  rw [← Nat.zero_add digits.length]
  refine foldl_lt_pow ?_ digits 0 0 (by simp)
  intro n k c hn
  rw [Nat.pow_succ]
  cases hd : digitValue? base c with
  | none => exact Nat.lt_of_lt_of_le hn (Nat.le_mul_of_pos_right _ hbase)
  | some d =>
    -- a digit is less than the base
    calc n * base + d < n * base + base := Nat.add_lt_add_left (digitValue?_lt hd) _
      _ = (n + 1) * base := (Nat.succ_mul n base).symm
      _ ≤ base ^ k * base := Nat.mul_le_mul_right base hn

end Integer

namespace Yaml

open CodePoint (colon)

variable {B : Breakdown → Prop} {t : Text} {c : Cursor}

/-! ## Between quotes -/

/-- The breakdown of a text with an escape that has eight digits. -/
def EscapeIn (t : Text) (b : Breakdown) : Prop :=
  b = .hugeEscape ∧ [CodePoint.ofChar '\\', CodePoint.ofChar 'U'] <:+: t

/-- An escape breaks down only with eight digits or more. -/
theorem takeNumberedEscape_ends {began : Mark} {width : Nat} (h : c.Within t) :
    Ends (fun b => b = .hugeEscape ∧ 8 ≤ width) (fun r => r.2.Within t)
      (takeNumberedEscape began width c) := by
  unfold takeNumberedEscape
  dsimp only
  split
  next => exact Ends.during
  next =>
    split
    next => exact Ends.ok (h.advance width)
    next =>
      split
      next => exact Ends.refused _
      next hhuge =>
        refine Ends.broken ⟨rfl, ?_⟩
        -- fewer than eight digits write less than 16 ^ 7, which is no huge number
        have hlength : ((c.rest.take width).takeWhile CodePoint.isHexDigit).length ≤ width :=
          Nat.le_trans (List.takeWhile_prefix _).length_le (List.length_take_le _ _)
        have hvalue := Integer.value_lt (show 0 < 16 by decide)
          ((c.rest.take width).takeWhile CodePoint.isHexDigit)
        by_contra hwidth
        have hpow : 16 ^ ((c.rest.take width).takeWhile CodePoint.isHexDigit).length ≤ 16 ^ 7 :=
          Nat.pow_le_pow_right (by decide) (by omega)
        omega

theorem takeQuotedBreaks_ends {began : Mark} {fuel acc : Text} (h : c.Within t) :
    Ends B (fun r => r.2.Within t) (takeQuotedBreaks began fuel c acc) := by
  induction fuel generalizing c acc with
  | nil => exact Ends.ok h
  | cons _ fuel ih =>
    unfold takeQuotedBreaks
    split
    next => exact Ends.during
    next =>
      dsimp only
      split
      next => exact ih h.skipWhile.takeBreak
      next => exact Ends.ok h.skipWhile

theorem takeQuotedSpace_ends {began : Mark} (h : c.Within t) :
    Ends B (fun r => r.2.Within t) (takeQuotedSpace began c) := by
  unfold takeQuotedSpace
  dsimp only
  split
  next => exact Ends.during
  next =>
    split
    next =>
      refine Ends.bind (takeQuotedBreaks_ends h.takeWhile.takeBreak) ?_
      intro r hafter
      obtain ⟨breaks, after⟩ := r
      exact Ends.ok hafter
    next => exact Ends.ok h.takeWhile

/-- The only escape with eight digits is the one with a capital letter. -/
theorem eq_of_escapeWidth? {x : CodePoint} {width : Nat} (h : escapeWidth? x = some width)
    (hwidth : 8 ≤ width) : x = CodePoint.ofChar 'U' := by
  unfold escapeWidth? at h
  split at h
  next =>
    cases h
    omega
  next =>
    split at h
    next =>
      cases h
      omega
    next =>
      split at h
      next hx => exact eq_of_beq hx
      next => cases h

theorem takeEscape_ends {began : Mark} (h : c.Within t)
    (hc : c.peek = CodePoint.ofChar '\\') :
    Ends (EscapeIn t) (fun r => r.2.Within t) (takeEscape began c.next) := by
  unfold takeEscape
  dsimp only
  split
  next => exact Ends.ok h.next.next
  next =>
    split
    next width hwidth =>
      refine Ends.bind (P := fun r => r.2.Within t) ?_ ?_
      · refine (takeNumberedEscape_ends h.next.next).mono ?_ fun _ hr => hr
        intro b hr
        obtain ⟨hb, height⟩ := hr
        -- the cursor has shown the backslash and then the capital letter
        exact ⟨hb, h.infix_of_peek hc (by decide) (eq_of_escapeWidth? hwidth height) (by decide)⟩
      · intro r hafter
        obtain ⟨x, after⟩ := r
        exact Ends.ok hafter
    next =>
      split
      next => exact takeQuotedBreaks_ends h.next.takeBreak
      next => exact Ends.during

theorem takeQuotedRun_ends {isDouble : Bool} {began : Mark} {fuel acc : Text} (h : c.Within t) :
    Ends (EscapeIn t) (fun r => r.2.Within t) (takeQuotedRun isDouble began fuel c acc) := by
  induction fuel generalizing c acc with
  | nil => exact Ends.ok h
  | cons _ fuel ih =>
    have hrun := h.takeWhile (p := isQuotedPlain)
    unfold takeQuotedRun
    dsimp only
    split
    next => exact ih (hrun.advance 2)
    next =>
      split
      next => exact ih hrun.next
      next =>
        split
        next hslash =>
          have hpeek := eq_of_beq (Bool.and_eq_true_iff.mp hslash).2
          refine Ends.bind (takeEscape_ends hrun hpeek) ?_
          intro r hafter
          obtain ⟨escaped, after⟩ := r
          exact ih hafter
        next => exact Ends.ok hrun

theorem takeQuotedFrom_ends {isDouble : Bool} {quote : Char} {began : Mark} {fuel acc : Text}
    (h : c.Within t) :
    Ends (EscapeIn t) (fun r => r.2.Within t)
      (takeQuotedFrom isDouble quote began fuel c acc) := by
  induction fuel generalizing c acc with
  | nil => exact Ends.ok h
  | cons _ fuel ih =>
    unfold takeQuotedFrom
    split
    next => exact Ends.ok h.next
    next =>
      refine Ends.bind (takeQuotedSpace_ends h) ?_
      intro r hafter
      obtain ⟨space, after⟩ := r
      refine Ends.bind (takeQuotedRun_ends hafter) ?_
      intro r hafter
      obtain ⟨acc, after⟩ := r
      exact ih hafter

/-- **Quoted scalars break down only on escapes with eight digits.** -/
theorem scanQuoted_ends {isDouble : Bool} (h : c.Within t) :
    Ends (EscapeIn t) (fun r => r.1.IsFrom t ∧ r.2.Within t) (scanQuoted isDouble c) := by
  unfold scanQuoted
  dsimp only
  refine Ends.bind (takeQuotedRun_ends h.next) ?_
  intro r hafter
  obtain ⟨acc, after⟩ := r
  refine Ends.bind (takeQuotedFrom_ends hafter) ?_
  intro r hafter
  obtain ⟨value, after⟩ := r
  exact Ends.ok ⟨trivial, hafter⟩

/-! ## Plain -/

theorem takePlainBreaks_within (fuel acc : Text) (h : c.Within t) :
    (takePlainBreaks fuel c acc).2.Within t := by
  induction fuel generalizing c acc with
  | nil => exact h
  | cons _ fuel ih =>
    unfold takePlainBreaks
    dsimp only
    split
    next =>
      split
      next => exact h.skipSpaces.takeBreak
      next => exact ih _ h.skipSpaces.takeBreak
    next => exact h.skipSpaces

theorem takePlainSpace_within (h : c.Within t) : (takePlainSpace c).2.2.Within t := by
  unfold takePlainSpace
  dsimp only
  split
  next =>
    split
    next => exact h.takeWhile.takeBreak
    next =>
      have hbreaks := takePlainBreaks_within (c.takeWhile isSpace).2.takeBreak.2.steps []
        (h.takeWhile (p := isSpace)).takeBreak
      split
      next after heq =>
        rw [heq] at hbreaks
        exact hbreaks
      next breaks after heq =>
        rw [heq] at hbreaks
        exact hbreaks
  next => exact h.takeWhile

/-- A line end is no colon. -/
theorem colon_notMem_takeBreak (c : Cursor) : colon ∉ c.takeBreak.1 := by
  unfold Cursor.takeBreak
  dsimp only
  split
  next hs =>
    intro hmem
    rw [List.mem_singleton] at hmem
    -- line ends that are kept as they are written are no colons either
    rw [← hmem] at hs
    exact absurd hs (by decide)
  next =>
    have hfeed : colon ∉ [CodePoint.ofChar '\n'] := by decide
    split
    next => exact hfeed
    next =>
      split
      next => exact hfeed
      next => exact List.not_mem_nil

theorem colon_notMem_takePlainBreaks (c : Cursor) (fuel : Text) {acc : Text} (hacc : colon ∉ acc) :
    ∀ breaks ∈ (takePlainBreaks fuel c acc).1, colon ∉ breaks := by
  induction fuel generalizing c acc with
  | nil =>
    intro breaks hr
    cases hr
    rwa [List.mem_reverse]
  | cons _ fuel ih =>
    unfold takePlainBreaks
    dsimp only
    split
    next =>
      split
      next => rintro breaks ⟨⟩
      next =>
        refine ih _ ?_
        rw [List.mem_append, List.mem_reverse, not_or]
        exact ⟨colon_notMem_takeBreak _, hacc⟩
    next =>
      intro breaks hr
      cases hr
      rwa [List.mem_reverse]

theorem colon_notMem_foldBreak {lineEnd breaks : Text} (hl : colon ∉ lineEnd)
    (hb : colon ∉ breaks) : colon ∉ foldBreak lineEnd breaks := by
  unfold foldBreak
  split
  next =>
    rw [List.mem_append, not_or]
    exact ⟨hl, hb⟩
  next =>
    split
    next => decide
    next => exact hb

/-- The space behind a run has no colon. -/
theorem colon_notMem_takePlainSpace (c : Cursor) : colon ∉ (takePlainSpace c).1 := by
  unfold takePlainSpace
  dsimp only
  split
  next =>
    split
    next => exact List.not_mem_nil
    next =>
      have hbreaks := colon_notMem_takePlainBreaks (c.takeWhile isSpace).2.takeBreak.2
        (c.takeWhile isSpace).2.takeBreak.2.steps List.not_mem_nil
      split
      next => exact List.not_mem_nil
      next breaks after heq =>
        rw [heq] at hbreaks
        exact colon_notMem_foldBreak (colon_notMem_takeBreak _) (hbreaks breaks rfl)
  next =>
    intro hmem
    exact absurd (List.mem_takeWhile_imp hmem) (by decide)

theorem isPrefix_plainRun (inFlow : Bool) (text : Text) : plainRun inFlow text <+: text := by
  induction text with
  | nil => exact List.nil_prefix
  | cons x rest ih =>
    unfold plainRun
    split
    next => exact List.nil_prefix
    next => exact List.cons_prefix_cons.mpr ⟨rfl, ih⟩

/-- A run takes no line end. -/
theorem lineFeed_notMem_plainRun (inFlow : Bool) (text : Text) :
    CodePoint.ofChar '\n' ∉ plainRun inFlow text := by
  induction text with
  | nil => exact List.not_mem_nil
  | cons x rest ih =>
    unfold plainRun
    split
    next => exact List.not_mem_nil
    next hx =>
      rw [List.mem_cons, not_or]
      refine ⟨?_, ih⟩
      intro heq
      rw [← heq] at hx
      exact hx (by simp [isBlankOrEnd, isBreakOrEnd, isBreak])

/-- What is kept of a plain scalar: its colons and those still to come are colons of the
text, and it does not end in a line feed. -/
structure PlainState.IsOf (t : Text) (s : PlainState) : Prop where
  within : s.cursor.Within t
  head?_ne : s.text.head? ≠ some (CodePoint.ofChar '\n')
  count_le : s.text.count colon + s.cursor.rest.count colon ≤ t.count colon

/-- A run and the space in front of it are taken into a plain scalar. -/
theorem PlainState.IsOf.run {s : PlainState} {run space : Text} (h : s.IsOf t) (stop : Mark)
    (crossed : Bool) (hspace : colon ∉ space) (hrun : run <+: s.cursor.rest) (hne : run ≠ [])
    (hfeed : CodePoint.ofChar '\n' ∉ run) :
    PlainState.IsOf t ⟨run.reverse ++ (space.reverse ++ s.text), stop, crossed,
      (takePlainSpace (s.cursor.advance run.length)).2.2⟩ := by
  refine ⟨takePlainSpace_within (h.within.advance _), ?_, ?_⟩
  -- the text is kept backwards: its head is the last code point of the run
  · rw [List.head?_append_of_ne_nil _ (by simpa using hne), List.head?_reverse]
    intro hlast
    exact hfeed (List.mem_of_getLast? hlast)
  · have hafter := (takePlainSpace_within (Cursor.Within.refl (s.cursor.advance run.length))).count_le
      colon
    -- the colons of the run are taken off those still to come
    have hrest : run.count colon + (s.cursor.advance run.length).rest.count colon =
        s.cursor.rest.count colon := by
      obtain ⟨rest, hrest⟩ := hrun
      rw [Cursor.rest_advance, ← hrest, List.drop_left, List.count_append]
    have hbefore := h.count_le
    simp only [List.count_append, List.count_reverse, List.count_eq_zero.mpr hspace]
    omega

theorem takePlainFrom_isOf {inFlow : Bool} {indent : Int} {fuel space : Text} {s : PlainState}
    (h : s.IsOf t) (hspace : colon ∉ space) :
    (takePlainFrom inFlow indent fuel space s).IsOf t := by
  induction fuel generalizing space s with
  | nil => exact h
  | cons _ fuel ih =>
    unfold takePlainFrom
    dsimp only
    -- a comment ends the scalar, an empty run does, and else it goes on
    by_cases hcomment : (s.cursor.peek == CodePoint.ofChar '#') = true
    · rw [if_pos hcomment]
      exact h
    · rw [if_neg hcomment]
      split
      next => exact h
      next hrun =>
        have hstep := h.run (s.cursor.advance (plainRun inFlow s.cursor.rest).length).mark
          (takePlainSpace (s.cursor.advance (plainRun inFlow s.cursor.rest).length)).2.1 hspace
          (isPrefix_plainRun inFlow s.cursor.rest) (by simpa using hrun)
          (lineFeed_notMem_plainRun inFlow s.cursor.rest)
        split
        next => exact hstep
        next => exact ih hstep (colon_notMem_takePlainSpace _)

theorem scanPlain_isOf (inFlow : Bool) (indent : Int) (h : c.Within t) :
    (scanPlain inFlow indent c).IsOf t := by
  refine takePlainFrom_isOf ⟨h, by simp, ?_⟩ List.not_mem_nil
  rw [List.count_nil, Nat.zero_add]
  exact h.count_le colon

/-- **A plain scalar is one of its text.** -/
theorem scanPlain_isPlainOf {inFlow : Bool} {indent : Int} (h : c.Within t) :
    IsPlainOf t (scanPlain inFlow indent c).text.reverse := by
  have hplain := scanPlain_isOf inFlow indent h
  refine ⟨?_, ?_⟩
  · rw [List.getLast?_reverse]
    exact hplain.head?_ne
  · rw [List.count_reverse]
    exact Nat.le_trans (Nat.le_add_right _ _) hplain.count_le

/-! ## Blocks -/

theorem takeIndentation_ends {began : Mark} (h : c.Within t) :
    Ends B (fun r => r.2.Within t) (takeIndentation began c) := by
  unfold takeIndentation
  split
  next =>
    split
    next => exact Ends.during
    next => exact Ends.ok h.next
  next => exact Ends.ok h

theorem takeIndicators_ends {began : Mark} (h : c.Within t) :
    Ends B (fun r => r.2.Within t) (takeIndicators began c) := by
  unfold takeIndicators
  refine Ends.bind (P := fun r => r.2.Within t) ?_ ?_
  · split
    next =>
      refine Ends.bind (takeIndentation_ends h.next) ?_
      intro r hafter
      obtain ⟨indentation, after⟩ := r
      exact Ends.ok hafter
    next =>
      refine Ends.bind (takeIndentation_ends h) ?_
      intro r hafter
      obtain ⟨indentation, after⟩ := r
      dsimp only
      split
      next => exact Ends.ok hafter.next
      next => exact Ends.ok hafter
  · intro r hafter
    obtain ⟨⟨chomping, indentation⟩, after⟩ := r
    dsimp only
    split
    next => exact Ends.ok hafter
    next => exact unexpected_ends

theorem takeLeadingBreaks_within {fuel acc : Text} {deepest : Nat} (h : c.Within t) :
    (takeLeadingBreaks fuel c acc deepest).2.2.Within t := by
  induction fuel generalizing c acc deepest with
  | nil => exact h
  | cons _ fuel ih =>
    unfold takeLeadingBreaks
    split
    next => exact ih h.next
    next =>
      split
      next => exact ih h.takeBreak
      next => exact h

theorem skipIndentation_within {indent : Nat} (h : c.Within t) :
    (skipIndentation indent c).Within t :=
  h.advance _

theorem takeBlockBreaks_within (indent : Nat) (fuel acc : Text) (h : c.Within t) :
    (takeBlockBreaks indent fuel c acc).2.Within t := by
  induction fuel generalizing c acc with
  | nil => exact h
  | cons _ fuel ih =>
    unfold takeBlockBreaks
    dsimp only
    split
    next => exact ih _ (skipIndentation_within h).takeBreak
    next => exact skipIndentation_within h

theorem takeBlockLines_within {isFolded : Bool} {indent : Nat} {fuel breaks acc : Text}
    (h : c.Within t) : (takeBlockLines isFolded indent fuel c breaks acc).2.Within t := by
  induction fuel generalizing c breaks acc with
  | nil => exact h
  | cons _ fuel ih =>
    unfold takeBlockLines
    split
    next =>
      have hline := takeBlockBreaks_within indent
        (c.takeWhile fun x => !isBreakOrEnd x).2.takeBreak.2.steps []
        (h.takeWhile (p := fun x => !isBreakOrEnd x)).takeBreak
      dsimp only
      split
      next => exact ih hline
      next => exact hline
    next => exact h

theorem scanBlock_ends {isFolded : Bool} {indent : Int} (h : c.Within t) :
    Ends B (fun r => r.1.IsFrom t ∧ r.2.Within t) (scanBlock isFolded indent c) := by
  unfold scanBlock
  dsimp only
  refine Ends.bind (takeIndicators_ends h.next) ?_
  intro r hline
  obtain ⟨⟨chomping, indentation⟩, line⟩ := r
  refine Ends.bind (skipLine_ends hline) ?_
  intro after hafter
  dsimp only
  refine Ends.ok ⟨trivial, ?_⟩
  refine takeBlockLines_within ?_
  cases indentation with
  | none => exact takeLeadingBreaks_within hafter
  | some n => exact takeBlockBreaks_within _ _ _ hafter

end Yaml

end TopologyAudit
