import Mathlib.Data.List.Basic
import TopologyAudit.Text.Basic

/-!
# Joining and cutting at a separator

Texts that are joined by a separator come out of the joined text again when it is cut at
the separator, if the first code point of the separator is in none of them
(`pieces_join`). Decimal numerals consist of digits, so they never stand in the way of a
separator of signs.
-/

namespace TopologyAudit.Text

/-- The pieces of a text between the occurrences of a separator, found from the left;
`skip` code points still belong to the last occurrence. -/
def piecesFrom (separator : Text) : (skip : Nat) → Text → List Text
  | _, [] => [[]]
  | skip + 1, _ :: rest => piecesFrom separator skip rest
  | 0, c :: rest =>
    if separator.isPrefixOf (c :: rest) then [] :: piecesFrom separator (separator.length - 1) rest
    else
      match piecesFrom separator 0 rest with
      | [] => [[c]]
      | piece :: pieces => (c :: piece) :: pieces

/-- The pieces of a text between the occurrences of a separator, at least one. -/
def pieces (separator t : Text) : List Text := piecesFrom separator 0 t

/-- What belongs to a separator is passed over. -/
private theorem piecesFrom_append (separator rest : Text) :
    ∀ skipped : Text, piecesFrom separator skipped.length (skipped ++ rest) =
      piecesFrom separator 0 rest := by
  intro skipped
  induction skipped with
  | nil => rfl
  | cons c skipped ih => rw [List.cons_append, List.length_cons, piecesFrom, ih]

section

variable {first : CodePoint} {others : Text}

/-- A code point that does not begin the separator goes to the piece that it stands in. -/
private theorem piecesFrom_cons {c : CodePoint} {rest piece : Text} {ps : List Text}
    (hc : c ≠ first) (h : piecesFrom (first :: others) 0 rest = piece :: ps) :
    piecesFrom (first :: others) 0 (c :: rest) = (c :: piece) :: ps := by
  have hne : (first == c) = false := beq_eq_false_iff_ne.mpr (Ne.symm hc)
  rw [piecesFrom, List.isPrefixOf, hne, Bool.false_and, if_neg Bool.false_ne_true, h]

private theorem piecesFrom_of_notMem {t : Text} (h : first ∉ t) :
    piecesFrom (first :: others) 0 t = [t] := by
  induction t with
  | nil => rfl
  | cons c rest ih =>
    rw [List.mem_cons, not_or] at h
    exact piecesFrom_cons (Ne.symm h.1) (ih h.2)

/-- A text without the separator is the first piece when the separator follows it. -/
private theorem piecesFrom_append_separator {t : Text} (h : first ∉ t) (rest : Text) :
    piecesFrom (first :: others) 0 (t ++ (first :: others ++ rest)) =
      t :: piecesFrom (first :: others) 0 rest := by
  induction t with
  | nil =>
    have hprefix : (first :: others).isPrefixOf (first :: (others ++ rest)) = true := by
      rw [List.isPrefixOf_iff_prefix]
      exact List.prefix_append (first :: others) rest
    rw [List.nil_append, List.cons_append, piecesFrom, if_pos hprefix, List.length_cons,
      Nat.add_sub_cancel, piecesFrom_append]
  | cons c t ih =>
    rw [List.mem_cons, not_or] at h
    rw [List.cons_append]
    exact piecesFrom_cons (Ne.symm h.1) (ih h.2)

/-- **Cutting undoes joining**, when the separator cannot begin within a part. -/
theorem pieces_join {parts : List Text} (hne : parts ≠ []) (h : ∀ part ∈ parts, first ∉ part) :
    pieces (first :: others) (join (first :: others) parts) = parts := by
  rw [pieces]
  induction parts with
  | nil => exact absurd rfl hne
  | cons part parts ih =>
    have hpart : first ∉ part := h part (List.mem_cons_self ..)
    cases parts with
    | nil =>
      rw [join, List.intersperse_singleton, List.flatten_singleton]
      exact piecesFrom_of_notMem hpart
    | cons next parts =>
      have hjoin : join (first :: others) (part :: next :: parts) =
          part ++ (first :: others ++ join (first :: others) (next :: parts)) := by
        rw [join, List.intersperse_cons_cons, List.flatten_cons, List.flatten_cons]
        rfl
      rw [hjoin, piecesFrom_append_separator hpart,
        ih (List.cons_ne_nil _ _) fun p hp => h p (List.mem_cons_of_mem _ hp)]

end

/-- A code point of a joined text is one of the separator or of a part. -/
theorem mem_join {separator : Text} {parts : List Text} {c : CodePoint}
    (h : c ∈ join separator parts) : c ∈ separator ∨ ∃ part ∈ parts, c ∈ part := by
  rw [join, List.mem_flatten] at h
  obtain ⟨piece, hpiece, hc⟩ := h
  have hmem : ∀ parts : List Text, piece ∈ parts.intersperse separator →
      piece = separator ∨ piece ∈ parts := by
    intro parts
    induction parts with
    | nil => exact fun h => absurd h List.not_mem_nil
    | cons part parts ih =>
      intro hp
      cases parts with
      | nil => exact Or.inr hp
      | cons next parts =>
        rw [List.intersperse_cons_cons, List.mem_cons, List.mem_cons] at hp
        rcases hp with rfl | rfl | hp
        · exact Or.inr (List.mem_cons_self ..)
        · exact Or.inl rfl
        · exact (ih hp).imp_right (List.mem_cons_of_mem _)
  rcases hmem parts hpiece with rfl | hpart
  · exact Or.inl hc
  · exact Or.inr ⟨piece, hpart, hc⟩

/-! ## Numerals -/

private theorem mem_digitsAux {base : Nat} {c : CodePoint} (hbase : 0 < base) :
    ∀ {fuel n : Nat} {acc : Text}, c ∈ digitsAux base fuel n acc →
      c ∈ acc ∨ ∃ d < base, c = digit d := by
  intro fuel
  induction fuel with
  | zero => exact fun h => Or.inl h
  | succ fuel ih =>
    intro n acc h
    rw [digitsAux] at h
    split at h
    next hn =>
      rcases List.mem_cons.mp h with rfl | h
      · exact Or.inr ⟨n, hn, rfl⟩
      · exact Or.inl h
    next =>
      rcases ih h with h | h
      · rcases List.mem_cons.mp h with rfl | h
        · exact Or.inr ⟨n % base, Nat.mod_lt _ hbase, rfl⟩
        · exact Or.inl h
      · exact Or.inr h

/-- A numeral consists of digits of its base. -/
theorem exists_digit_of_mem_numeral {base n : Nat} {c : CodePoint} (hbase : 0 < base)
    (h : c ∈ numeral base n) : ∃ d < base, c = digit d :=
  (mem_digitsAux hbase h).resolve_left List.not_mem_nil

/-- A decimal numeral consists of digits. -/
theorem isDigit_of_mem_ofNat {n : Nat} {c : CodePoint} (h : c ∈ ofNat n) : c.isDigit = true := by
  have hdigit : ∀ d < 10, (digit d).isDigit = true := by decide
  obtain ⟨d, hd, rfl⟩ := exists_digit_of_mem_numeral (by decide) h
  exact hdigit d hd

end TopologyAudit.Text
