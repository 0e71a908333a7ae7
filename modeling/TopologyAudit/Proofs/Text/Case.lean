import Mathlib.Data.List.Forall2
import TopologyAudit.Proofs.Text.Basic
import TopologyAudit.Text.Case

/-!
# Lower case

Of ASCII, lower case makes small letters of the capital ones and leaves the rest as it is. What
it makes of other code points is outside of ASCII too, but for two letters: the `i` in the small
form of the `I` with a dot, and the `k` that the Kelvin sign becomes (`isBeyond_of_mem_lower`).

So a sign or a digit in a text in lower case stood in the text (`Text.count_lower`), and a word of
other small letters is the lower case of nothing but itself with some letters capital
(`Text.lower_eq_iff`).
-/

namespace TopologyAudit

namespace CodePoint

variable {c d x : CodePoint}

theorem isAscii_iff : c.isAscii = true ↔ c.val < 0x80 := decide_eq_true_iff

/-- A small letter of ASCII. -/
def isSmall (c : CodePoint) : Bool := c.within 0x61 0x7A

/-- A capital letter of ASCII. -/
def isCapital (c : CodePoint) : Bool := c.within 0x41 0x5A

theorem isSmall_iff : c.isSmall = true ↔ 0x61 ≤ c.val ∧ c.val ≤ 0x7A := within_iff

theorem isCapital_iff : c.isCapital = true ↔ 0x41 ≤ c.val ∧ c.val ≤ 0x5A := within_iff

theorem isAscii_of_isSmall (h : c.isSmall = true) : c.isAscii = true := by
  rw [isSmall_iff] at h
  exact isAscii_iff.mpr (by omega)

/-! ## Within ASCII -/

theorem lower_of_isCapital (h : c.isCapital = true) : c.lower = [ofNat (c.val + 0x20)] := by
  have hval := isCapital_iff.mp h
  rw [lower, if_pos (isAscii_iff.mpr (by omega)), ← isCapital, if_pos h]

theorem lower_of_not_isCapital (hascii : c.isAscii = true) (h : c.isCapital = false) :
    c.lower = [c] := by
  rw [lower, if_pos hascii, ← isCapital, if_neg (Bool.eq_false_iff.mp h)]

theorem exists_lower_eq (hascii : c.isAscii = true) : ∃ x, c.lower = [x] := by
  rw [lower, if_pos hascii]
  exact ⟨_, rfl⟩

/-- That a code point is a small letter or the capital form of the letter. -/
def IsCaseOf (c d : CodePoint) : Prop := c = d ∨ c.val + 0x20 = d.val

/-- Of ASCII, the two forms of a letter have the small one for their lower case. -/
theorem lower_eq_iff (hascii : c.isAscii = true) (hd : d.isSmall = true) :
    c.lower = [d] ↔ c.IsCaseOf d := by
  rw [isSmall_iff] at hd
  cases hcapital : c.isCapital with
  | true =>
    have hval := isCapital_iff.mp hcapital
    rw [lower_of_isCapital hcapital, List.singleton_inj, IsCaseOf]
    have hne : c ≠ d := by
      rintro rfl
      omega
    constructor
    · rintro rfl
      exact Or.inr (val_ofNat (by omega)).symm
    · intro h
      rw [h.resolve_left hne, ofNat_val]
  | false =>
    have hval : ¬(0x41 ≤ c.val ∧ c.val ≤ 0x5A) := fun h => by
      rw [isCapital_iff.mpr h] at hcapital
      cases hcapital
    rw [lower_of_not_isCapital hascii hcapital, List.singleton_inj, IsCaseOf]
    exact ⟨Or.inl, fun h => h.resolve_right (by omega)⟩

/-! ## Beyond ASCII -/

/-- What lower case may make of a code point beyond ASCII: one beyond ASCII, the `i` of the letter
with a dot, or the `k` of the Kelvin sign. -/
abbrev IsBeyond (x : CodePoint) : Prop := 0x80 ≤ x.val ∨ x.val = 0x69 ∨ x.val = 0x6B

/-- The runs beyond ASCII lead to code points beyond ASCII, but for that of the Kelvin sign. -/
theorem image_of_lowerRuns : ∀ r ∈ lowerRuns, 0x80 ≤ r.last →
    ((0x80 ≤ r.first + r.shift) ∨ r.first = r.last ∧ r.first + r.shift = 0x6B) ∧
      r.last + r.shift < 0x110000 := by
  decide +kernel

theorem image_of_lowerExpansions : ∀ e ∈ lowerExpansions, e.2 ≠ [] ∧
    ∀ n ∈ e.2, (ofNat n).IsBeyond := by
  decide

theorem isBeyond_image? (hc : c.isAscii = false) {n : Nat}
    (h : CaseRun.image? lowerRuns c.val = some n) : (ofNat n).IsBeyond := by
  obtain ⟨r, hr, rfl⟩ := Option.map_eq_some_iff.mp h
  have hcovers := List.find?_some hr
  simp only [CaseRun.covers, Bool.and_eq_true_iff, decide_eq_true_eq] at hcovers
  have hval : 0x80 ≤ c.val := by
    rw [Bool.eq_false_iff, Ne, isAscii_iff] at hc
    omega
  obtain ⟨hfirst, hlast⟩ := image_of_lowerRuns r (List.mem_of_find?_eq_some hr) (by omega)
  have hnumber : (ofNat ((c.val : Int) + r.shift).toNat).val = ((c.val : Int) + r.shift).toNat :=
    val_ofNat (by omega)
  rw [IsBeyond, hnumber]
  omega

/-- Beyond ASCII something is left, and hardly anything of it is ASCII. -/
theorem isBeyond_of_mem_lower (hc : c.isAscii = false) :
    c.lower ≠ [] ∧ ∀ x ∈ c.lower, x.IsBeyond := by
  rw [lower, if_neg (Bool.eq_false_iff.mp hc), mapCase]
  split
  next ns hns =>
    obtain ⟨before, behind, hsplit, -⟩ := List.lookup_eq_some_iff.mp hns
    obtain ⟨hne, himages⟩ := image_of_lowerExpansions (c.val, ns) (by rw [hsplit]; simp)
    refine ⟨fun h => hne (List.map_eq_nil_iff.mp h), List.forall_mem_map.mpr himages⟩
  next =>
    refine ⟨List.cons_ne_nil _ _, List.forall_mem_singleton.mpr ?_⟩
    cases himage : CaseRun.image? lowerRuns c.val with
    | none =>
      rw [Bool.eq_false_iff, Ne, isAscii_iff] at hc
      exact Or.inl (Nat.not_lt.mp hc)
    | some n => exact isBeyond_image? hc himage

/-! ## Signs -/

/-- A sign or a digit of ASCII, in front of all letters. -/
abbrev IsSign (x : CodePoint) : Prop := 0 < x.val ∧ x.val < 0x41

/-- The colon, which stands between the places of a number in base sixty. -/
abbrev colon : CodePoint := ofChar ':'

theorem isSign_colon : colon.IsSign := by decide

/-- Of ASCII, lower case makes no sign of anything else. -/
theorem IsSign.count_lower (hx : x.IsSign) (hascii : c.isAscii = true) :
    c.lower.count x = [c].count x := by
  cases hcapital : c.isCapital with
  | true =>
    -- neither form of a letter is a sign
    have hval := isCapital_iff.mp hcapital
    have hnumber : (ofNat (c.val + 0x20)).val = c.val + 0x20 := val_ofNat (by omega)
    have hlower : x ∉ [ofNat (c.val + 0x20)] := by
      rw [List.mem_singleton]
      rintro rfl
      omega
    have hself : x ∉ [c] := by
      rw [List.mem_singleton]
      rintro rfl
      omega
    rw [lower_of_isCapital hcapital, List.count_eq_zero.mpr hlower, List.count_eq_zero.mpr hself]
  | false => rw [lower_of_not_isCapital hascii hcapital]

end CodePoint

/-! ## Texts -/

namespace Text

open CodePoint (IsBeyond IsCaseOf)

/-- A code point is taken to lower case by itself, but for the sigma, whose two small forms are
beyond ASCII as well as it is. -/
theorem lowerAfter_cons (before : Text) (c : CodePoint) (rest : Text) :
    ∃ image, lowerAfter before (c :: rest) = image ++ lowerAfter (c :: before) rest ∧
      (c.isAscii = true → image = c.lower) ∧
      (c.isAscii = false → image ≠ [] ∧ ∀ x ∈ image, x.IsBeyond) := by
  refine ⟨_, rfl, ?_⟩
  split
  next hsigma =>
    have hval : c.val = 0x3A3 := eq_of_beq hsigma
    refine ⟨fun hascii => ?_, fun _ => ⟨List.cons_ne_nil _ _, ?_⟩⟩
    · rw [CodePoint.isAscii_iff] at hascii
      omega
    · refine List.forall_mem_singleton.mpr (Or.inl ?_)
      split <;> decide
  next => exact ⟨fun _ => rfl, CodePoint.isBeyond_of_mem_lower⟩

/-- A text has as many of a sign in lower case as it has. -/
theorem count_lower {x : CodePoint} (hx : x.IsSign) (t : Text) : t.lower.count x = t.count x := by
  -- for any text in front, since a final sigma depends on what is there
  have hafter : ∀ before : Text, (lowerAfter before t).count x = t.count x := by
    induction t with
    | nil => intro before; rfl
    | cons c rest ih =>
      intro before
      have hcons : (c :: rest).count x = [c].count x + rest.count x := by
        rw [← List.count_append, List.singleton_append]
      obtain ⟨image, himage, hascii, hbeyond⟩ := lowerAfter_cons before c rest
      rw [himage, List.count_append, ih, hcons]
      congr 1
      cases hc : c.isAscii with
      | true => rw [hascii hc, hx.count_lower hc]
      | false =>
        have hbelow := hx.2
        have hlower : x ∉ image := fun hmem => by
          rcases (hbeyond hc).2 x hmem with h | h | h <;> omega
        have hself : x ∉ [c] := by
          rw [List.mem_singleton]
          rintro rfl
          rw [Bool.eq_false_iff, Ne, CodePoint.isAscii_iff] at hc
          omega
        rw [List.count_eq_zero.mpr hlower, List.count_eq_zero.mpr hself]
  exact hafter []

/-- **A word in lower case** of small letters, none of them an `i` or a `k`, comes from the words
that have some of these letters capital, and from no other text. -/
theorem lower_eq_iff {t w : Text} (hw : ∀ d ∈ w, d.isSmall = true ∧ ¬d.IsBeyond) :
    t.lower = w ↔ List.Forall₂ IsCaseOf t w := by
  -- for any text in front, since a final sigma depends on what is there
  have hafter : ∀ before : Text, lowerAfter before t = w ↔ List.Forall₂ IsCaseOf t w := by
    induction t generalizing w with
    | nil =>
      intro before
      rw [List.forall₂_nil_left_iff]
      exact eq_comm
    | cons c t ih =>
      intro before
      obtain ⟨image, himage, hascii, hbeyond⟩ := lowerAfter_cons before c t
      rw [himage]
      cases hc : c.isAscii with
      | true =>
        obtain ⟨x, hx⟩ := CodePoint.exists_lower_eq hc
        rw [hascii hc, hx, List.singleton_append]
        cases w with
        | nil => exact iff_of_false (List.cons_ne_nil _ _) nofun
        | cons d w =>
          obtain ⟨hd, hw⟩ := List.forall_mem_cons.mp hw
          rw [List.cons_eq_cons, List.forall₂_cons, ← CodePoint.lower_eq_iff hc hd.1, hx,
            List.singleton_inj, ih hw (c :: before)]
      | false =>
        -- nothing beyond ASCII goes into the word
        obtain ⟨hne, hbeyond⟩ := hbeyond hc
        refine iff_of_false ?_ ?_
        · intro heq
          obtain ⟨x, hx⟩ := List.exists_mem_of_ne_nil image hne
          exact (hw x (heq ▸ List.mem_append_left _ hx)).2 (hbeyond x hx)
        · intro hforall
          cases hforall with
          | @cons _ d _ _ hcase _ =>
            obtain ⟨hd, -⟩ := List.forall_mem_cons.mp hw
            have hsmall := CodePoint.isSmall_iff.mp hd.1
            rw [Bool.eq_false_iff, Ne, CodePoint.isAscii_iff] at hc
            rcases hcase with rfl | hval <;> omega
  exact hafter []

end Text

end TopologyAudit
