import TopologyAudit.Proofs.Text.Basic
import TopologyAudit.Proofs.Yaml.Cursor
import TopologyAudit.Yaml.Graph

/-!
# Cursors on a single line

A text of printed ASCII is a single line: no code point in it ends the line or takes no
column. So a cursor in it is told by what is left (`Cursor.onLine`), and the steps of a cursor
are steps of the text.
-/

namespace TopologyAudit

/-- That a text is the rest of a line of a length, in printed ASCII. -/
structure Text.EndsLine (size : Nat) (rest : Text) : Prop where
  length_le : rest.length ≤ size
  graphic : ∀ c ∈ rest, c.within 0x20 0x7E = true

namespace Text.EndsLine

variable {size : Nat} {c : CodePoint} {t rest : Text}

theorem of_append (h : EndsLine size (t ++ rest)) : EndsLine size rest := by
  refine ⟨?_, fun c hc => h.graphic c (List.mem_append_right _ hc)⟩
  have hlength := h.length_le
  rw [List.length_append] at hlength
  omega

theorem tail (h : EndsLine size (c :: rest)) : EndsLine size rest := of_append (t := [c]) h

theorem head (h : EndsLine size (c :: rest)) : c.within 0x20 0x7E = true :=
  h.graphic c (List.mem_cons_self ..)

end Text.EndsLine

namespace Yaml

variable {c : CodePoint} {t rest : Text} {size : Nat} {p : CodePoint → Bool}

/-! ## Code points of a line -/

/-- A code point is told from another one by its number. -/
theorem beq_of_val_ne {d : CodePoint} (h : c.val ≠ d.val) : (c == d) = false :=
  beq_eq_false_iff_ne.mpr fun heq => h (congrArg CodePoint.val heq)

theorem isBreak_of_graphic (h : c.within 0x20 0x7E = true) : isBreak c = false := by
  have hval := CodePoint.within_iff.mp h
  have hfeed : (c == CodePoint.ofChar '\n') = false := by
    refine beq_of_val_ne ?_
    show c.val ≠ 0x0A
    omega
  have hreturn : (c == CodePoint.ofChar '\r') = false := by
    refine beq_of_val_ne ?_
    show c.val ≠ 0x0D
    omega
  have hnext : isNextLine c = false := decide_eq_false (by omega)
  have hseparator : isSeparator c = false := by
    rw [isSeparator, Bool.or_eq_false_iff, decide_eq_false_iff_not, decide_eq_false_iff_not]
    omega
  rw [isBreak, hfeed, hreturn, hnext, hseparator]
  rfl

theorem isEnd_of_graphic (h : c.within 0x20 0x7E = true) : isEnd c = false := by
  have hval := CodePoint.within_iff.mp h
  exact decide_eq_false (by omega)

theorem isByteOrderMark_of_graphic (h : c.within 0x20 0x7E = true) : isByteOrderMark c = false := by
  have hval := CodePoint.within_iff.mp h
  exact decide_eq_false (by omega)

theorem isPermitted_of_graphic (h : c.within 0x20 0x7E = true) : isPermitted c = true := by
  rw [isPermitted, h]
  simp

/-- Of the blanks only the space stands on a line. -/
theorem isBlank_of_graphic (h : c.within 0x20 0x7E = true) : isBlank c = isSpace c := by
  have hval := CodePoint.within_iff.mp h
  have htab : (c == CodePoint.ofChar '\t') = false := by
    refine beq_of_val_ne ?_
    show c.val ≠ 0x09
    omega
  rw [isBlank, htab, Bool.or_false]
  rfl

theorem isBlankOrEnd_of_graphic (h : c.within 0x20 0x7E = true) : isBlankOrEnd c = isSpace c := by
  rw [isBlankOrEnd, isBlank_of_graphic h, isBreakOrEnd, isBreak_of_graphic h, isEnd_of_graphic h,
    Bool.or_false, Bool.or_false]

/-! ## Cursors -/

namespace Cursor

open Text (EndsLine)

/-- The cursor in front of the rest of a line of a length. -/
def onLine (size : Nat) (rest : Text) : Cursor := ⟨rest, size - rest.length, 0, size - rest.length⟩

@[simp]
theorem rest_onLine (size : Nat) (rest : Text) : (onLine size rest).rest = rest := rfl

@[simp]
theorem peek_onLine (size : Nat) (c : CodePoint) (rest : Text) :
    (onLine size (c :: rest)).peek = c := rfl

theorem ofText_eq_onLine (t : Text) : ofText t = onLine t.length t := by
  rw [onLine, Nat.sub_self]
  rfl

theorem next_onLine (h : EndsLine size (c :: rest)) :
    (onLine size (c :: rest)).next = onLine size rest := by
  have hlength := h.length_le
  rw [List.length_cons] at hlength
  have hplace : size - (rest.length + 1) + 1 = size - rest.length := by omega
  simp only [next, onLine, isBreak_of_graphic h.head, isByteOrderMark_of_graphic h.head,
    Bool.false_and, Bool.false_eq_true, if_false, List.length_cons, hplace]

theorem advance_onLine (h : EndsLine size (t ++ rest)) :
    (onLine size (t ++ rest)).advance t.length = onLine size rest := by
  induction t with
  | nil => rfl
  | cons c t ih =>
    rw [List.cons_append] at h
    rw [List.length_cons, advance, List.cons_append, next_onLine h]
    exact ih h.tail

/-- Code points are taken off a line as they are taken off a text. -/
theorem takeWhile_onLine (h : EndsLine size rest) :
    (onLine size rest).takeWhile p = (rest.takeWhile p, onLine size (rest.dropWhile p)) := by
  have hsplit : rest.takeWhile p ++ rest.dropWhile p = rest := List.takeWhile_append_dropWhile
  have hadvance := @advance_onLine (rest.takeWhile p) (rest.dropWhile p) size (by rwa [hsplit])
  rw [hsplit] at hadvance
  rw [takeWhile, upTo]
  exact congrArg _ hadvance

end Cursor

end Yaml

end TopologyAudit
