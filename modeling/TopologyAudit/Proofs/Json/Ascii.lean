import TopologyAudit.Proofs.Json.Escape
import TopologyAudit.Proofs.Json.Number

/-!
# What is written is in ASCII

Strings are escaped, numbers are digits and signs, and everything else is fixed: what is
written of a value is in ASCII (`isAscii_render`), whatever texts the value holds, as long as
the style puts nothing else behind names.
-/

namespace TopologyAudit

/-- That a text is in ASCII. -/
def Text.IsAscii (t : Text) : Prop := ∀ c ∈ t, c.isAscii = true

namespace Text

variable {t t' : Text}

instance (t : Text) : Decidable t.IsAscii := inferInstanceAs (Decidable (∀ c ∈ t, _))

theorem isAscii_append : IsAscii (t ++ t') ↔ t.IsAscii ∧ t'.IsAscii :=
  List.forall_mem_append

theorem isAscii_cons {c : CodePoint} : IsAscii (c :: t) ↔ c.isAscii = true ∧ t.IsAscii :=
  List.forall_mem_cons

theorem isAscii_of_isDigit (h : ∀ c ∈ t, c.isDigit = true) : t.IsAscii := by
  intro c hc
  have hval := CodePoint.isDigit_iff.mp (h c hc)
  exact decide_eq_true (by omega)

theorem isAscii_ofNat (n : Nat) : IsAscii (ofNat n) :=
  isAscii_of_isDigit (IsDigits.ofNat n).isDigit

theorem isAscii_ofInt (n : Int) : IsAscii (ofInt n) := by
  cases n with
  | ofNat n => exact isAscii_ofNat n
  | negSucc n => exact isAscii_cons.mpr ⟨by decide, isAscii_ofNat (n + 1)⟩

theorem isAscii_join {separator : Text} (hseparator : separator.IsAscii) {ts : List Text}
    (h : ∀ t ∈ ts, t.IsAscii) : (join separator ts).IsAscii := by
  intro c hc
  rcases mem_join hc with hc | ⟨t, ht, hc⟩
  · exact hseparator c hc
  · exact h t ht c hc

end Text

open Text

namespace Json

variable {style : Style} {t : Text} {x : Binary64}

theorem isAscii_zeros (n : Nat) : IsAscii (Integer.zeros n) :=
  isAscii_of_isDigit Integer.isDigit_of_mem_zeros

theorem isAscii_positional (h : t.IsAscii) (e : Int) : IsAscii (Binary64.positional t e) := by
  unfold Binary64.positional
  dsimp only
  split_ifs
  · exact isAscii_append.mpr ⟨isAscii_append.mpr ⟨by decide, isAscii_zeros _⟩, h⟩
  · exact isAscii_append.mpr ⟨isAscii_append.mpr ⟨h, isAscii_zeros _⟩, by decide⟩
  · refine isAscii_append.mpr ⟨isAscii_append.mpr ⟨?_, by decide⟩, ?_⟩
    · exact fun c hc => h c (List.mem_of_mem_take hc)
    · exact fun c hc => h c (List.mem_of_mem_drop hc)

theorem isAscii_scientific (h : t.IsAscii) (e : Int) : IsAscii (Binary64.scientific t e) := by
  have hsign : ∀ negative, (exponentSign negative).isAscii = true := by decide
  have hexponent : IsAscii (exponentDigits e) :=
    isAscii_append.mpr ⟨isAscii_zeros _, isAscii_ofNat _⟩
  rw [scientific_eq]
  refine isAscii_append.mpr ⟨?_, isAscii_cons.mpr ⟨by decide, isAscii_cons.mpr ⟨hsign _, hexponent⟩⟩⟩
  split
  next d e rest =>
    obtain ⟨hd, hrest⟩ := isAscii_cons.mp h
    exact isAscii_cons.mpr ⟨hd, isAscii_cons.mpr ⟨by decide, hrest⟩⟩
  next => exact h

theorem isAscii_signed (h : t.IsAscii) (negative : Bool) : IsAscii (signed negative t) := by
  unfold signed
  split_ifs
  · exact isAscii_cons.mpr ⟨by decide, h⟩
  · exact h

theorem isAscii_toText (hfinite : x.isFinite = true) : x.toText.IsAscii := by
  by_cases hzero : x.magnitude = 0
  · rw [toText_of_zero hzero]
    exact isAscii_signed (by decide) _
  · rw [toText_eq hfinite hzero]
    refine isAscii_signed ?_ _
    unfold unsignedText
    dsimp only
    split_ifs
    · exact isAscii_positional (isAscii_ofNat _) _
    · exact isAscii_scientific (isAscii_ofNat _) _

theorem isAscii_renderFloat (x : Binary64) : (renderFloat x).IsAscii := by
  unfold renderFloat
  split_ifs with hnan hinfinite hnegative
  · decide
  · decide
  · decide
  · refine isAscii_toText ?_
    simp only [Binary64.isNaN, Binary64.isInfinite, Binary64.isFinite, decide_eq_true_eq] at *
    omega

theorem isAscii_lineBreak (style : Style) (level : Nat) : (style.lineBreak level).IsAscii := by
  unfold Style.lineBreak
  split
  next => exact List.forall_mem_nil _
  next =>
    refine isAscii_cons.mpr ⟨by decide, fun c hc => ?_⟩
    rw [List.eq_of_mem_replicate hc]
    decide

theorem isAscii_enclose (level : Nat) {left right : Char}
    (hleft : (CodePoint.ofChar left).isAscii = true) (hright : (CodePoint.ofChar right).isAscii = true)
    {texts : List Text} (h : ∀ t ∈ texts, t.IsAscii) :
    (enclose style level left right texts).IsAscii := by
  cases texts with
  | nil => exact isAscii_cons.mpr ⟨hleft, isAscii_cons.mpr ⟨hright, nofun⟩⟩
  | cons t texts =>
    have hinner : ∀ t' ∈ (t :: texts).map (style.lineBreak (level + 1) ++ ·), t'.IsAscii := by
      rw [List.forall_mem_map]
      exact fun t' ht' => isAscii_append.mpr ⟨isAscii_lineBreak style _, h t' ht'⟩
    refine isAscii_cons.mpr ⟨hleft, isAscii_append.mpr ⟨isAscii_join (by decide) hinner, ?_⟩⟩
    exact isAscii_append.mpr ⟨isAscii_lineBreak style _, isAscii_cons.mpr ⟨hright, nofun⟩⟩

mutual

theorem isAscii_renderAt (hafter : style.afterName.IsAscii) :
    ∀ (j : Json) (level : Nat), (renderAt style level j).IsAscii
  | .null, _ => (by decide : IsAscii "null")
  | .bool true, _ => (by decide : IsAscii "true")
  | .bool false, _ => (by decide : IsAscii "false")
  | .int n, _ => isAscii_ofInt n
  | .float x, _ => isAscii_renderFloat x
  | .text t, _ => isAscii_renderText t
  | .array items, level =>
    isAscii_enclose level (by decide) (by decide) (isAscii_renderItems hafter items (level + 1))
  | .object fields, level =>
    isAscii_enclose level (by decide) (by decide) (isAscii_renderFields hafter fields (level + 1))

theorem isAscii_renderItems (hafter : style.afterName.IsAscii) :
    ∀ (items : List Json) (level : Nat), ∀ t ∈ renderItems style level items, t.IsAscii
  | [], _ => nofun
  | item :: rest, level =>
    List.forall_mem_cons.mpr
      ⟨isAscii_renderAt hafter item level, isAscii_renderItems hafter rest level⟩

theorem isAscii_renderFields (hafter : style.afterName.IsAscii) :
    ∀ (fields : List (Text × Json)) (level : Nat), ∀ t ∈ renderFields style level fields, t.IsAscii
  | [], _ => nofun
  | (name, value) :: rest, level =>
    List.forall_mem_cons.mpr
      ⟨isAscii_append.mpr ⟨isAscii_renderText name,
          isAscii_append.mpr ⟨hafter, isAscii_renderAt hafter value level⟩⟩,
        isAscii_renderFields hafter rest level⟩

end

/-- **What is written is in ASCII.** -/
theorem isAscii_render (hafter : style.afterName.IsAscii) (j : Json) : (render style j).IsAscii :=
  isAscii_renderAt hafter j 0

end Json

end TopologyAudit
