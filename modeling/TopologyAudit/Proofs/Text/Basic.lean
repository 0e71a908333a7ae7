import Mathlib.Data.List.Basic
import TopologyAudit.Text.Basic

/-!
# Pieces of texts, and numbers of code points

A text falls into one piece more than it has separators, and a code point of a piece is one
of the text. Parts that are joined come out again as pieces.
-/

namespace TopologyAudit

namespace Text

variable {separator : CodePoint}

/-- The pieces are those that any list falls into. -/
theorem splitOn_eq_splitOn (separator : CodePoint) (t : Text) :
    splitOn separator t = List.splitOn separator t := by
  induction t with
  | nil => rfl
  | cons c rest ih =>
    obtain ⟨piece, pieces, hpieces⟩ :=
      List.exists_cons_of_ne_nil (List.splitOn_ne_nil separator rest)
    rw [splitOn, ih, List.splitOn_cons_eq_if_modifyHead, hpieces, List.modifyHead_cons]
    simp only [beq_iff_eq]

theorem splitOn_ne_nil (separator : CodePoint) (t : Text) : splitOn separator t ≠ [] := by
  rw [splitOn_eq_splitOn]
  exact List.splitOn_ne_nil separator t

/-- What stands in front of the first separator is the first piece. -/
theorem splitOn_append_separator {t : Text} (h : separator ∉ t) (rest : Text) :
    splitOn separator (t ++ separator :: rest) = t :: splitOn separator rest := by
  rw [splitOn_eq_splitOn, splitOn_eq_splitOn]
  exact List.splitOn_append_cons_self_of_not_mem h rest

/-- **Cutting undoes joining** when the separator is in none of the parts. -/
theorem splitOn_join {parts : List Text} (hne : parts ≠ []) (h : ∀ part ∈ parts, separator ∉ part) :
    splitOn separator (join [separator] parts) = parts := by
  rw [splitOn_eq_splitOn]
  exact List.splitOn_intercalate separator h hne

theorem length_splitOn (separator : CodePoint) (t : Text) :
    (splitOn separator t).length = t.count separator + 1 := by
  induction t with
  | nil => rfl
  | cons c rest ih =>
    rw [splitOn]
    split
    next h => exact absurd h (splitOn_ne_nil separator rest)
    next piece pieces h =>
      rw [h] at ih
      split
      next hc => rw [hc, List.count_cons_self, List.length_cons, ih]
      next hc => rw [List.count_cons_of_ne hc, List.length_cons, ← ih, List.length_cons]

theorem mem_of_mem_splitOn {c : CodePoint} {t piece : Text}
    (hpiece : piece ∈ splitOn separator t) (hc : c ∈ piece) : c ∈ t := by
  induction t generalizing piece with
  | nil =>
    rw [splitOn, List.mem_singleton] at hpiece
    rw [hpiece] at hc
    exact hc
  | cons first rest ih =>
    rw [splitOn] at hpiece
    split at hpiece
    next h => exact absurd h (splitOn_ne_nil separator rest)
    next head pieces h =>
      have hrest : ∀ p ∈ head :: pieces, c ∈ p → c ∈ first :: rest := by
        intro p hp hcp
        exact List.mem_cons_of_mem _ (ih (h ▸ hp) hcp)
      -- the first code point is a separator, or goes to the front of the first piece
      split at hpiece
      next =>
        rcases List.mem_cons.mp hpiece with rfl | hpiece
        · exact absurd hc List.not_mem_nil
        · exact hrest piece hpiece hc
      next =>
        rcases List.mem_cons.mp hpiece with rfl | hpiece
        · rcases List.mem_cons.mp hc with rfl | hc
          · exact List.mem_cons_self ..
          · exact hrest head (List.mem_cons_self ..) hc
        · exact hrest piece (List.mem_cons_of_mem _ hpiece) hc

end Text

namespace CodePoint

/-- The number of a code point makes it again. -/
theorem ofNat_val (c : CodePoint) : ofNat c.val = c := by
  rw [ofNat, ofNat?, dif_pos c.val_lt]
  rfl

theorem val_ofNat {n : Nat} (h : n < 0x110000) : (ofNat n).val = n := by
  rw [ofNat, ofNat?, dif_pos h]
  rfl

theorem within_iff {c : CodePoint} {low high : Nat} :
    c.within low high = true ↔ low ≤ c.val ∧ c.val ≤ high := by
  rw [within, Bool.and_eq_true, decide_eq_true_eq, decide_eq_true_eq]

end CodePoint

end TopologyAudit
