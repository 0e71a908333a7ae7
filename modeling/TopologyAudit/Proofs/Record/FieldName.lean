import TopologyAudit.Proofs.Record.Reach
import TopologyAudit.Proofs.Text.Case

/-!
# Names on the wire

In a name on the wire each word but the first one begins with a capital letter, and there are no
other capitals. So the words are found again (`parted_wire`), and different names are different on
the wire, but for the two that make `handlesPII`: one does as a name that keeps its abbreviation,
the other as one with three words of one letter (`wire_eq_wire_iff`).

A record without that pair therefore has an entry on the wire for each attribute that it shows, in
their order, and no entry is overwritten (`keeps_attributes`).
-/

namespace TopologyAudit

namespace FieldName

/-- What stands between the words of a name. -/
abbrev underscore : CodePoint := CodePoint.ofChar '_'

/-- A small letter of ASCII with small letters and digits behind it. -/
def IsWord : Text → Prop
  | [] => False
  | c :: rest => c.isSmall = true ∧ ∀ d ∈ rest, d.isSmall = true ∨ d.isDigit = true

instance : DecidablePred IsWord
  | [] => inferInstanceAs (Decidable False)
  | c :: rest =>
    inferInstanceAs (Decidable
      (c.isSmall = true ∧ ∀ d ∈ rest, d.isSmall = true ∨ d.isDigit = true))

/-- One word or more, with an underscore between neighbours. -/
def IsSnakeCase (name : Text) : Prop :=
  ∃ words, words ≠ [] ∧ (∀ w ∈ words, IsWord w) ∧ name = Text.join [underscore] words

/-- The name that is on the wire what `handles_pii` is. -/
def spelledPii : Text := "handles_p_i_i"

/-- That two names are the two that are one on the wire. -/
def IsPair (a b : Text) : Prop :=
  a = handlesPii ∧ b = spelledPii ∨ a = spelledPii ∧ b = handlesPii

variable {a b name w : Text} {c d : CodePoint}

/-! ## Words -/

theorem val_of_isWord (h : IsWord w) (hd : d ∈ w) :
    (0x30 ≤ d.val ∧ d.val ≤ 0x39) ∨ (0x61 ≤ d.val ∧ d.val ≤ 0x7A) := by
  cases w with
  | nil => exact absurd hd List.not_mem_nil
  | cons c rest =>
    rcases List.mem_cons.mp hd with rfl | hmem
    · exact Or.inr (CodePoint.isSmall_iff.mp h.1)
    · exact (h.2 d hmem).symm.imp CodePoint.within_iff.mp CodePoint.isSmall_iff.mp

theorem underscore_notMem_of_isWord (h : IsWord w) : underscore ∉ w := by
  intro hmem
  have hval : underscore.val = 0x5F := rfl
  have hword := val_of_isWord h hmem
  omega

theorem isCapital_of_isWord (h : IsWord w) (hd : d ∈ w) : d.isCapital = false := by
  rw [Bool.eq_false_iff, Ne, CodePoint.isCapital_iff]
  have hword := val_of_isWord h hd
  omega

/-- Names are told by the pieces that they fall into. -/
theorem isSnakeCase_iff : IsSnakeCase name ↔ ∀ w ∈ Text.splitOn underscore name, IsWord w := by
  constructor
  · rintro ⟨words, hne, hwords, rfl⟩
    rwa [Text.splitOn_join hne fun w hw => underscore_notMem_of_isWord (hwords w hw)]
  · intro h
    refine ⟨Text.splitOn underscore name, Text.splitOn_ne_nil underscore name, h, ?_⟩
    rw [Text.splitOn_eq_splitOn]
    exact (List.intercalate_splitOn underscore).symm

instance : DecidablePred IsSnakeCase := fun _ => decidable_of_iff _ isSnakeCase_iff.symm

/-! ## Capitals -/

/-- The capital form of a small letter. -/
def capital (c : CodePoint) : CodePoint := CodePoint.ofNat (c.val - 0x20)

theorem val_capital (h : c.isSmall = true) : (capital c).val = c.val - 0x20 := by
  have hval := CodePoint.isSmall_iff.mp h
  exact CodePoint.val_ofNat (by omega)

theorem isCapital_capital (h : c.isSmall = true) : (capital c).isCapital = true := by
  have hval := CodePoint.isSmall_iff.mp h
  rw [CodePoint.isCapital_iff, val_capital h]
  omega

theorem lower_capital (h : c.isSmall = true) : (capital c).lower = [c] := by
  have hval := CodePoint.isSmall_iff.mp h
  rw [CodePoint.lower_of_isCapital (isCapital_capital h), val_capital h,
    Nat.sub_add_cancel (by omega), CodePoint.ofNat_val]

theorem title_of_isSmall (h : c.isSmall = true) : c.title = [capital c] := by
  have hascii := CodePoint.isAscii_of_isSmall h
  rw [CodePoint.title, if_pos hascii, CodePoint.upper, if_pos hascii, ← CodePoint.isSmall, if_pos h]
  rfl

/-- Lower case leaves the letters of words as they are. -/
theorem lowerAfter_of_small {t : Text} (h : ∀ d ∈ t, d.isSmall = true ∨ d.isDigit = true)
    (before : Text) : Text.lowerAfter before t = t := by
  induction t generalizing before with
  | nil => rfl
  | cons c rest ih =>
    obtain ⟨hc, hrest⟩ := List.forall_mem_cons.mp h
    rw [CodePoint.isSmall_iff, CodePoint.isDigit, CodePoint.within_iff] at hc
    have hascii : c.isAscii = true := CodePoint.isAscii_iff.mpr (by omega)
    have hcapital : c.isCapital = false := by
      rw [Bool.eq_false_iff, Ne, CodePoint.isCapital_iff]
      omega
    obtain ⟨image, himage, hlower, -⟩ := Text.lowerAfter_cons before c rest
    rw [himage, hlower hascii, CodePoint.lower_of_not_isCapital hascii hcapital, ih hrest,
      List.singleton_append]

/-! ## Words found again -/

/-- Each capital is taken for the beginning of a word. -/
def parted (t : Text) : Text :=
  t.flatMap fun c => if c.isCapital then underscore :: c.lower else [c]

theorem parted_append (t u : Text) : parted (t ++ u) = parted t ++ parted u :=
  List.flatMap_append

theorem parted_of_not_isCapital {t : Text} (h : ∀ d ∈ t, d.isCapital = false) : parted t = t := by
  induction t with
  | nil => rfl
  | cons c rest ih =>
    obtain ⟨hc, hrest⟩ := List.forall_mem_cons.mp h
    rw [parted, List.flatMap_cons, hc, ← parted, ih hrest]
    rfl

theorem parted_of_isWord (h : IsWord w) : parted w = w :=
  parted_of_not_isCapital fun _ hd => isCapital_of_isWord h hd

theorem parted_capitalize (h : IsWord w) : parted (Text.capitalize w) = underscore :: w := by
  cases w with
  | nil => exact h.elim
  | cons c rest =>
    have hrest : parted rest = rest :=
      parted_of_not_isCapital fun d hd => isCapital_of_isWord h (List.mem_cons_of_mem c hd)
    rw [Text.capitalize, title_of_isSmall h.1, lowerAfter_of_small h.2, parted_append, hrest,
      parted, List.flatMap_singleton, if_pos (isCapital_capital h.1), lower_capital h.1]
    rfl

/-- Words that are run together are those that were joined. -/
theorem parted_run {words : List Text} (hw : IsWord w) (hwords : ∀ u ∈ words, IsWord u) :
    parted (w ++ words.flatMap Text.capitalize) = Text.join [underscore] (w :: words) := by
  rw [parted_append, parted_of_isWord hw]
  -- each word becomes the first one of those behind it
  induction words generalizing w with
  | nil => rfl
  | cons u words ih =>
    obtain ⟨hu, hwords⟩ := List.forall_mem_cons.mp hwords
    have hjoin : Text.join [underscore] (w :: u :: words) =
        w ++ [underscore] ++ Text.join [underscore] (u :: words) := List.intercalate_cons_cons
    rw [List.flatMap_cons, parted_append, parted_capitalize hu, hjoin, ← ih hu hwords,
      List.append_assoc]
    rfl

/-- **A name is found again from what it is on the wire**, unless it is the one that keeps its
abbreviation: this is taken for the other name of the pair. -/
theorem parted_wire (h : IsSnakeCase name) :
    parted (wire name) = if name = handlesPii then spelledPii else name := by
  rw [wire]
  split
  next => decide
  next =>
    obtain ⟨words, hne, hwords, rfl⟩ := h
    rw [Text.splitOn_join hne fun w hw => underscore_notMem_of_isWord (hwords w hw)]
    obtain ⟨w, words, rfl⟩ := List.exists_cons_of_ne_nil hne
    obtain ⟨hw, hwords⟩ := List.forall_mem_cons.mp hwords
    exact parted_run hw hwords

theorem wire_spelledPii : wire spelledPii = wire handlesPii := by decide

/-- Names that are one on the wire are one name, or the pair. -/
theorem wire_eq_wire_iff (ha : IsSnakeCase a) (hb : IsSnakeCase b) :
    wire a = wire b ↔ a = b ∨ IsPair a b := by
  constructor
  · intro h
    have hparted := congrArg parted h
    rw [parted_wire ha, parted_wire hb] at hparted
    -- the name with the abbreviation is not found again, so it is looked at by itself
    by_cases hpa : a = handlesPii <;> by_cases hpb : b = handlesPii
    · exact Or.inl (hpa.trans hpb.symm)
    · rw [if_pos hpa, if_neg hpb] at hparted
      exact Or.inr (Or.inl ⟨hpa, hparted.symm⟩)
    · rw [if_neg hpa, if_pos hpb] at hparted
      exact Or.inr (Or.inr ⟨hparted, hpb⟩)
    · rw [if_neg hpa, if_neg hpb] at hparted
      exact Or.inl hparted
  · rintro (rfl | ⟨rfl, rfl⟩ | ⟨rfl, rfl⟩)
    · rfl
    · exact wire_spelledPii.symm
    · exact wire_spelledPii

end FieldName

/-! ## Records -/

namespace Value

open FieldName (IsSnakeCase handlesPii spelledPii)

variable {attributes : List (Text × Value)}

/-- That a record has its attributes under different names, that those not hidden are made of
words, and that the two names that are one on the wire are not both among them. -/
structure NamesFields (attributes : List (Text × Value)) : Prop where
  nodup : (attributes.map (·.1)).Nodup
  isSnakeCase : ∀ a ∈ attributes, FieldName.isHidden a.1 = false → IsSnakeCase a.1
  apart : ¬(handlesPii ∈ attributes.map (·.1) ∧ spelledPii ∈ attributes.map (·.1))

/-- Then what is shown has different names on the wire. -/
theorem NamesFields.nodup_wire (h : NamesFields attributes) :
    ((shownAttributes attributes).map fun a => FieldName.wire a.1).Nodup := by
  have hsublist : ((shownAttributes attributes).map (·.1)).Sublist (attributes.map (·.1)) :=
    List.filter_sublist.map _
  have hnames : ∀ name ∈ (shownAttributes attributes).map (·.1), IsSnakeCase name := by
    refine List.forall_mem_map.mpr fun a ha => ?_
    obtain ⟨hmem, hshown⟩ := List.mem_filter.mp ha
    rw [isShown, Bool.and_eq_true, Bool.not_eq_true'] at hshown
    exact h.isSnakeCase a hmem hshown.1
  have hwire : (((shownAttributes attributes).map (·.1)).map FieldName.wire).Nodup := by
    refine List.Nodup.map_on ?_ (hsublist.nodup h.nodup)
    intro m hm n hn heq
    refine ((FieldName.wire_eq_wire_iff (hnames m hm) (hnames n hn)).mp heq).resolve_right ?_
    rintro (⟨rfl, rfl⟩ | ⟨rfl, rfl⟩)
    · exact h.apart ⟨hsublist.subset hm, hsublist.subset hn⟩
    · exact h.apart ⟨hsublist.subset hn, hsublist.subset hm⟩
  rwa [List.map_map] at hwire

/-- What a record is on the wire when the names there are different: an entry for each attribute
that is shown. -/
theorem toWire_record_eq_ok_iff {form : Value}
    (h : ((shownAttributes attributes).map fun a => FieldName.wire a.1).Nodup) :
    (record attributes).toWire = .ok form ↔
      ∃ entries, form = .ofFields entries ∧ (entries.map (·.1)).Nodup ∧
        List.Forall₂ (fun a e => e.1 = FieldName.wire a.1 ∧ a.2.toWire = .ok e.2)
          (shownAttributes attributes) entries := by
  have hnodup : ∀ {values : List Value}, (shownAttributes attributes).length = values.length →
      ((((shownAttributes attributes).map fun a => FieldName.wire a.1).zip values).map
        (·.1)).Nodup := by
    intro values hlength
    rwa [List.map_fst_zip (by rw [List.length_map, hlength])]
  rw [toWire_eq_ok_iff]
  simp only [toWire_eq_ok_iff, Entries.forall₂_entry_iff]
  constructor
  · intro hshows
    cases hshows with
    | @record _ values hlength hvalues =>
      -- entries with different keys are set as they stand
      rw [Entries.ofList_of_nodup (hnodup hlength)]
      refine ⟨_, rfl, hnodup hlength, values, rfl, List.forall₂_map_left_iff.mp ?_⟩
      exact List.forall₂_iff_zip.mpr ⟨by rw [List.length_map, hlength], hvalues _ _⟩
  · rintro ⟨entries, rfl, hkeys, values, rfl, hvalues⟩
    have hzip := List.forall₂_iff_zip.mp (List.forall₂_map_left_iff (f := Prod.snd).mpr hvalues)
    rw [← Entries.ofList_of_nodup hkeys]
    exact .record hvalues.length_eq fun v u hvu => hzip.2 hvu

/-- **Names stay apart on the wire**, but for one pair, and a record without it loses nothing: it
has an entry on the wire for each attribute that is neither hidden nor null, and no other. -/
theorem keeps_attributes :
    (∀ a b, IsSnakeCase a → IsSnakeCase b →
        (FieldName.wire a = FieldName.wire b ↔ a = b ∨ FieldName.IsPair a b)) ∧
      (IsSnakeCase handlesPii ∧ IsSnakeCase spelledPii ∧
        FieldName.wire handlesPii = "handlesPII" ∧ FieldName.wire spelledPii = "handlesPII") ∧
      ∀ attributes, NamesFields attributes → ∀ form,
        (record attributes).toWire = .ok form ↔
          ∃ entries, form = .ofFields entries ∧ (entries.map (·.1)).Nodup ∧
            List.Forall₂ (fun a e => e.1 = FieldName.wire a.1 ∧ a.2.toWire = .ok e.2)
              (attributes.filter fun a => !FieldName.isHidden a.1 && !a.2.isNull) entries := by
  refine ⟨fun a b ha hb => FieldName.wire_eq_wire_iff ha hb, by decide, ?_⟩
  exact fun attributes hfields form => toWire_record_eq_ok_iff hfields.nodup_wire

/-- A record with names of the same letters, a hidden attribute and one without a value. -/
def lookalikes : List (Text × Value) :=
  [("_cache", .foreign "set" "\x7b1\x7d"), ("ab_c", .int 1), ("a_bc", .tuple [.null]),
    ("a_b_c", .null), ("handles_pi_i", .word (.severity .high)), ("handles_p_i_i", .bool true)]

/-- Words that are cut in other places are told apart by the capitals. With both names of the pair
the attribute that comes first is lost. -/
theorem keeps_attributes_of_lookalikes :
    FieldName.wire "ab_c" ≠ FieldName.wire "a_bc" ∧
      (NamesFields lookalikes ∧
        (record lookalikes).toWire = .ok (.ofFields [("abC", .int 1), ("aBc", .list [.null]),
          ("handlesPiI", .text "high"), ("handlesPII", .bool true)])) ∧
      (record [("handles_pii", .int 1), ("handles_p_i_i", .int 2)]).toWire =
        .ok (.ofFields [("handlesPII", .int 2)]) := by
  obtain ⟨hnames, -, hrecord⟩ := keeps_attributes
  have hfields : NamesFields lookalikes := ⟨by decide, by decide, by decide⟩
  refine ⟨?_, ⟨hfields, (hrecord lookalikes hfields _).mpr ⟨_, rfl, by decide, ?_⟩⟩, rfl⟩
  · intro h
    have hne : ¬(("ab_c" : Text) = "a_bc" ∨ FieldName.IsPair "ab_c" "a_bc") := by
      rw [FieldName.IsPair]
      decide
    exact hne ((hnames _ _ (by decide) (by decide)).mp h)
  · exact .cons ⟨by decide, rfl⟩ (.cons ⟨by decide, rfl⟩ (.cons ⟨by decide, rfl⟩
      (.cons ⟨by decide, rfl⟩ .nil)))

end Value

end TopologyAudit
