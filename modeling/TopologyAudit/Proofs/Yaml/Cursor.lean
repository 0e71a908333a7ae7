import Mathlib.Data.List.Basic
import TopologyAudit.Yaml.Cursor

/-!
# Cursors within a text

Whatever a reader takes off a cursor, what is left is the end of what was left before. So
all that a cursor ever shows stands in the text that it was put on.
-/

namespace TopologyAudit.Yaml

namespace Cursor

/-- What is left at the cursor is the end of a text. -/
def Within (t : Text) (c : Cursor) : Prop := c.rest <:+ t

theorem rest_next (c : Cursor) : c.next.rest = c.rest.tail := by
  unfold next
  split
  next h => rw [h, List.tail_nil]
  next h =>
    rw [h, List.tail_cons]
    dsimp only
    split
    next => rfl
    next => split <;> rfl

theorem rest_advance (n : Nat) (c : Cursor) : (c.advance n).rest = c.rest.drop n := by
  induction n generalizing c with
  | zero => rfl
  | succ n ih => rw [advance, ih, rest_next, List.drop_tail]

/-- A code point that the cursor shows is the first of what is left. -/
theorem rest_eq_of_peek {c : Cursor} {x : CodePoint} (h : c.peek = x) (hx : x ≠ endSign) :
    c.rest = x :: c.next.rest := by
  rw [rest_next]
  cases hr : c.rest with
  | nil =>
    rw [peek, hr] at h
    -- behind the last code point the cursor shows the end sign
    exact absurd h.symm hx
  | cons y rest =>
    rw [peek, hr] at h
    rw [List.tail_cons, ← h]
    rfl

namespace Within

variable {t : Text} {c : Cursor} {p : CodePoint → Bool}

theorem refl (c : Cursor) : c.Within c.rest := List.suffix_refl _

theorem ofText (t : Text) : (Cursor.ofText t).Within t := List.suffix_refl _

theorem advance (h : c.Within t) (n : Nat) : (c.advance n).Within t := by
  rw [Within, rest_advance]
  exact (List.drop_suffix n c.rest).trans h

theorem next (h : c.Within t) : c.next.Within t := h.advance 1

theorem takeWhile (h : c.Within t) : (c.takeWhile p).2.Within t := h.advance _

theorem skipWhile (h : c.Within t) : (c.skipWhile p).Within t := h.advance _

theorem skipSpaces (h : c.Within t) : c.skipSpaces.Within t := h.skipWhile

theorem skipComment (h : c.Within t) : c.skipComment.Within t := by
  unfold Cursor.skipComment
  split
  next => exact h.skipWhile
  next => exact h

theorem takeBreak (h : c.Within t) : c.takeBreak.2.Within t := by
  unfold Cursor.takeBreak
  dsimp only
  split
  next => exact h.next
  next =>
    split
    next => exact h.advance 2
    next =>
      split
      next => exact h.next
      next => exact h

theorem mem_of_peek {x : CodePoint} (h : c.Within t) (hx : c.peek = x) (hne : x ≠ endSign) :
    x ∈ t := by
  refine h.subset ?_
  rw [rest_eq_of_peek hx hne]
  exact List.mem_cons_self ..

/-- Two code points that the cursor shows one after the other stand so in the text. -/
theorem infix_of_peek {x y : CodePoint} (h : c.Within t) (hx : c.peek = x) (hxe : x ≠ endSign)
    (hy : c.next.peek = y) (hye : y ≠ endSign) : [x, y] <:+: t := by
  refine List.IsInfix.trans ?_ h.isInfix
  rw [rest_eq_of_peek hx hxe, rest_eq_of_peek hy hye]
  exact (List.prefix_append [x, y] _).isInfix

theorem count_le (h : c.Within t) (x : CodePoint) : c.rest.count x ≤ t.count x :=
  h.sublist.count_le x

end Within

end Cursor

end TopologyAudit.Yaml
