import TopologyAudit.Proofs.Source.Containment
import TopologyAudit.Proofs.Text.Case

/-!
# Which texts name a format

A text names a format if it is the name of the format in any mix of capital and small letters, with
white space in front of it and behind it (`SourceFormat.IsNamedBy`). The white space is that of
Unicode, the letters are those of ASCII: of the many code points that have a small form none becomes
a letter of `yaml` or `json` (`Text.lower_eq_iff`). All other texts are rejected, and then it does
not matter what the config is (`names_format_iff`).
-/

namespace TopologyAudit

/-! ## White space around a word -/

namespace Text

variable {front word back : Text}

/-- Only white space is taken away. -/
theorem exists_trim (t : Text) : ∃ front back, t = front ++ trim t ++ back ∧
    (∀ c ∈ front, c.isBlank = true) ∧ ∀ c ∈ back, c.isBlank = true := by
  refine ⟨t.takeWhile CodePoint.isBlank, (t.trimLeft.reverse.takeWhile CodePoint.isBlank).reverse,
    ?_, fun c hc => List.mem_takeWhile_imp hc,
    fun c hc => List.mem_takeWhile_imp (List.mem_reverse.mp hc)⟩
  have hright : t.trim ++ (t.trimLeft.reverse.takeWhile CodePoint.isBlank).reverse =
      t.trimLeft := by
    rw [trim, trimRight, ← List.reverse_append, List.takeWhile_append_dropWhile,
      List.reverse_reverse]
  rw [List.append_assoc, hright, trimLeft, List.takeWhile_append_dropWhile]

/-- What begins with no white space is left as it is from there on. -/
private theorem dropWhile_blanks (hfront : ∀ c ∈ front, c.isBlank = true)
    (hword : ∀ c ∈ word, c.isBlank = false) (hne : word ≠ []) (rest : Text) :
    (front ++ (word ++ rest)).dropWhile CodePoint.isBlank = word ++ rest := by
  obtain ⟨c, word, rfl⟩ := List.exists_cons_of_ne_nil hne
  rw [List.dropWhile_append_of_pos hfront, List.cons_append, List.dropWhile_cons_of_neg]
  rw [hword c (List.mem_cons_self ..)]
  exact Bool.false_ne_true

/-- A word without white space is what is left of the word with white space around it. -/
theorem trim_blanks (hfront : ∀ c ∈ front, c.isBlank = true) (hback : ∀ c ∈ back, c.isBlank = true)
    (hword : ∀ c ∈ word, c.isBlank = false) (hne : word ≠ []) :
    trim (front ++ word ++ back) = word := by
  have hleft : trimLeft (front ++ word ++ back) = word ++ back := by
    rw [trimLeft, List.append_assoc, dropWhile_blanks hfront hword hne]
  -- from behind the text is white space, the word, and nothing else
  have hright : (back.reverse ++ (word.reverse ++ [])).dropWhile CodePoint.isBlank =
      word.reverse ++ [] :=
    dropWhile_blanks (fun c hc => hback c (List.mem_reverse.mp hc))
      (fun c hc => hword c (List.mem_reverse.mp hc))
      (fun h => hne (List.reverse_eq_nil_iff.mp h)) []
  rw [List.append_nil] at hright
  rw [trim, hleft, trimRight, List.reverse_append, hright, List.reverse_reverse]

end Text

/-! ## Names -/

theorem CodePoint.isBlank_of_isLetter {c : CodePoint} (h : c.isLetter = true) :
    c.isBlank = false := by
  rw [isLetter, Bool.or_eq_true, within_iff, within_iff] at h
  simp only [isBlank, CodePointSet.contains, blankSet, List.any_cons, List.any_nil, within,
    Bool.or_false, Bool.or_eq_false_iff, Bool.and_eq_false_iff, decide_eq_false_iff_not]
  omega

/-- Both forms of a letter are letters. -/
theorem CodePoint.IsCaseOf.isLetter {c d : CodePoint} (h : c.IsCaseOf d) (hd : d.isSmall = true) :
    c.isLetter = true := by
  rw [CodePoint.isSmall_iff] at hd
  rw [CodePoint.isLetter, Bool.or_eq_true, within_iff, within_iff]
  rcases h with rfl | h <;> omega

namespace SourceFormat

/-- That a text is the name of a format in any case, with white space around it or without. -/
def IsNamedBy (f : SourceFormat) (t : Text) : Prop :=
  ∃ front word back, t = front ++ word ++ back ∧ (∀ c ∈ front, c.isBlank = true) ∧
    (∀ c ∈ back, c.isBlank = true) ∧ List.Forall₂ CodePoint.IsCaseOf word f.name

variable {f : SourceFormat} {t word : Text}

/-- The names have small letters, and none that comes from beyond ASCII. -/
theorem isSmall_of_mem_name (f : SourceFormat) :
    ∀ d ∈ f.name, d.isSmall = true ∧ ¬d.IsBeyond := by
  cases f <;> decide

theorem isLetter_of_isNamed (h : List.Forall₂ CodePoint.IsCaseOf word f.name) :
    ∀ c ∈ word, c.isLetter = true := by
  have hsmall := fun d hd => (f.isSmall_of_mem_name d hd).1
  generalize f.name = name at h hsmall
  induction h with
  | nil => exact fun _ hc => absurd hc List.not_mem_nil
  | cons hcase _ ih =>
    obtain ⟨hfirst, hrest⟩ := List.forall_mem_cons.mp hsmall
    exact List.forall_mem_cons.mpr ⟨hcase.isLetter hfirst, ih hrest⟩

/-- A format is found when what is left of the text is its name, in small letters. -/
theorem ofText?_eq_some : ofText? t = some f ↔ t.trim.lower = f.name := by
  have hne : yaml.name ≠ json.name := by decide
  rw [ofText?, all, List.find?_cons, List.find?_cons, List.find?_nil]
  cases f <;> grind

theorem ofText?_eq_some_iff : ofText? t = some f ↔ f.IsNamedBy t := by
  rw [ofText?_eq_some, Text.lower_eq_iff f.isSmall_of_mem_name]
  constructor
  · intro h
    obtain ⟨front, back, hsplit, hfront, hback⟩ := Text.exists_trim t
    exact ⟨front, t.trim, back, hsplit, hfront, hback, h⟩
  · rintro ⟨front, word, back, rfl, hfront, hback, h⟩
    have hne : word ≠ [] := by
      rintro rfl
      cases f <;> cases h
    rwa [Text.trim_blanks hfront hback
      (fun c hc => CodePoint.isBlank_of_isLetter (isLetter_of_isNamed h c hc)) hne]

theorem ofValue_text (t : Text) :
    ofValue (.text t) =
      match ofText? t with
      | some f => .ok f
      | none => .error (.unknown t) := rfl

/-- A text is accepted for a format if it names it, and not otherwise. -/
theorem ofValue_text_eq_ok : ofValue (.text t) = .ok f ↔ f.IsNamedBy t := by
  rw [← ofText?_eq_some_iff, ofValue_text]
  cases ofText? t <;> simp

theorem ofValue_text_of_not_named (h : ∀ f, ¬IsNamedBy f t) :
    ofValue (.text t) = .error (.unknown t) := by
  have hnone : ofText? t = none :=
    Option.eq_none_iff_forall_ne_some.mpr fun f hf => h f (ofText?_eq_some_iff.mp hf)
  rw [ofValue_text, hnone]

/-- Within the white space there are letters of ASCII only. -/
theorem IsNamedBy.isBlank_or_isLetter (h : f.IsNamedBy t) :
    ∀ c ∈ t, c.isBlank = true ∨ c.isLetter = true := by
  obtain ⟨front, word, back, rfl, hfront, hback, hword⟩ := h
  intro c hc
  rw [List.append_assoc, List.mem_append, List.mem_append] at hc
  rcases hc with hc | hc | hc
  · exact Or.inl (hfront c hc)
  · exact Or.inr (isLetter_of_isNamed hword c hc)
  · exact Or.inl (hback c hc)

/-- **The texts that name a format** are its name in any case with white space around it. Nothing
else in them but the white space is beyond ASCII, and all other texts are rejected, whatever the
config is. -/
theorem names_format_iff (t : Text) :
    (∀ f : SourceFormat, ofValue (.text t) = .ok f ↔ f.IsNamedBy t) ∧
      (∀ f : SourceFormat, f.IsNamedBy t → ∀ c ∈ t, c.isBlank = true ∨ c.isLetter = true) ∧
      ((∀ f, ¬IsNamedBy f t) → ofValue (.text t) = .error (.unknown t) ∧
        ∀ order config, Topology.parse order (.text t) config = .ok (.failure [.format t])) := by
  refine ⟨fun f => ofValue_text_eq_ok, fun f h => h.isBlank_or_isLetter, fun h => ?_⟩
  have hrejected := ofValue_text_of_not_named h
  exact ⟨hrejected, fun order config => Topology.parse_of_unknown hrejected⟩

/-- A name in mixed case between an ideographic space, a separator of units and a next line. -/
def spacedName : Text :=
  [CodePoint.ofNat 0x3000, CodePoint.ofNat 0x1F] ++ (("jSoN" : Text) ++ [CodePoint.ofNat 0x85])

/-- A name with a long s, whose capital form is the letter. -/
def longName : Text := ("J" : Text) ++ (CodePoint.ofNat 0x17F :: ("ON" : Text))

/-- A name and a space of no width. -/
def joinedName : Text := ("yaml" : Text) ++ [CodePoint.ofNat 0x200B]

/-- All white space may stand around a name. But the long s is no letter of a name, though it is
written as one in capitals, and the space of no width is no white space. -/
theorem names_format_of_lookalikes :
    (json.IsNamedBy spacedName ∧ ∀ c ∈ spacedName, c.isBlank = true ∨ c.isLetter = true) ∧
      (Text.upper longName = "JSON" ∧ (∀ f, ¬IsNamedBy f longName) ∧
        ofValue (.text longName) = .error (.unknown longName)) ∧
      (∀ f, ¬IsNamedBy f joinedName) ∧
      ∀ order config, Topology.parse order (.text joinedName) config =
        .ok (.failure [.format joinedName]) := by
  -- what is rejected names no format
  have hrejects : ∀ t : Text, ofText? t = none → ∀ f, ¬IsNamedBy f t := by
    intro t hnone f hnamed
    rw [← ofText?_eq_some_iff, hnone] at hnamed
    cases hnamed
  obtain ⟨haccepted, hletters, -⟩ := names_format_iff spacedName
  have hspaced := (haccepted .json).mp (by decide +kernel)
  have hlong := hrejects longName (by decide +kernel)
  have hjoined := hrejects joinedName (by decide +kernel)
  exact ⟨⟨hspaced, hletters .json hspaced⟩,
    ⟨by decide +kernel, hlong, ((names_format_iff longName).2.2 hlong).1⟩,
    hjoined, ((names_format_iff joinedName).2.2 hjoined).2⟩

end SourceFormat

end TopologyAudit
