import TopologyAudit.Proofs.Entries
import TopologyAudit.Proofs.Json.Ascii
import TopologyAudit.Proofs.Json.Printer

/-!
# What is written is read back

A text that is written for a value is read as that value wherever it stands (`ReadsAs`). For
words, numbers and strings this is a matter of their own; for arrays and objects it follows
from their items and fields, by induction on the list of them, whatever white space the layout
puts between them. Three things change on the way: texts have their surrogate pairs joined, a
value that is no number becomes the standard one, and of the fields of one name the last value
is kept (`reread`).
-/

namespace TopologyAudit.Json

variable {style : Style} {depth : Nat} {t rest : Text} {j : Json}

/-! ## Values that come back -/

mutual

/-- The value that a written value is read as. -/
def reread : Json → Json
  | .null => .null
  | .bool b => .bool b
  | .int n => .int n
  | .float x => .float (if x.isNaN then Binary64.nan else x)
  | .text t => .text t.joined
  | .array items => .array (rereadItems items)
  | .object fields => .object (Entries.ofList (rereadFields fields))

def rereadItems : List Json → List Json
  | [] => []
  | item :: rest => reread item :: rereadItems rest

def rereadFields : List (Text × Json) → List (Text × Json)
  | [] => []
  | (name, value) :: rest => (name.joined, reread value) :: rereadFields rest

end

mutual

/-- How deep arrays and objects are nested in a value. -/
def nesting : Json → Nat
  | .array items => nestingItems items + 1
  | .object fields => nestingFields fields + 1
  | _ => 0

def nestingItems : List Json → Nat
  | [] => 0
  | item :: rest => max (nesting item) (nestingItems rest)

def nestingFields : List (Text × Json) → Nat
  | [] => 0
  | (_, value) :: rest => max (nesting value) (nestingFields rest)

end

/-! ## White space -/

/-- That a text is white space. -/
def IsBlank (t : Text) : Prop := ∀ c ∈ t, isSpace c = true

theorem skipSpace_append {blank : Text} (h : IsBlank blank) (t : Text) :
    skipSpace (blank ++ t) = skipSpace t :=
  List.dropWhile_append_of_pos h

theorem skipSpace_cons {c : CodePoint} (h : isSpace c = false) (t : Text) :
    skipSpace (c :: t) = c :: t :=
  List.dropWhile_cons_of_neg (Bool.eq_false_iff.mp h)

theorem isBlank_lineBreak (style : Style) (level : Nat) : IsBlank (style.lineBreak level) := by
  unfold Style.lineBreak
  split
  next => exact List.forall_mem_nil _
  next =>
    refine List.forall_mem_cons.mpr ⟨by decide, fun c hc => ?_⟩
    rw [List.eq_of_mem_replicate hc]
    decide

/-- White space and what follows it do not continue a number if the latter does not. -/
theorem EndsNumber.blank_append {blank : Text} (hblank : IsBlank blank) (h : EndsNumber rest) :
    EndsNumber (blank ++ rest) := by
  cases blank with
  | nil => exact h
  | cons c blank =>
    intro d hd
    cases hd
    have hc := hblank c (List.mem_cons_self ..)
    simp only [isSpace, Bool.or_eq_true, beq_iff_eq] at hc
    rcases hc with ((rfl | rfl) | rfl) | rfl <;> decide

theorem endsNumber_cons {c : CodePoint} (h : c.isDigit = false ∧ (c == '.') = false ∧
    Decimal.isExponentLetter c = false) : EndsNumber (c :: rest) := by
  intro d hd
  cases hd
  exact h

/-! ## Texts of values -/

/-- That a text is read as a value wherever it stands, with so many levels of nesting allowed. -/
structure ReadsAs (depth : Nat) (t : Text) (j : Json) : Prop where
  start : ∃ c s, t = c :: s ∧ isSpace c = false ∧ (c == CodePoint.ofChar ']') = false
  read : ∀ fuel rest, 2 * t.length ≤ fuel → EndsNumber rest →
    readValue fuel depth (t ++ rest) = .ok (j, rest)

/-- That a code point begins a word or a number. -/
def BeginsAtom (c : CodePoint) : Prop :=
  ((c == '"') = false ∧ (c == '\x7b') = false ∧ (c == '[') = false) ∧
    isSpace c = false ∧ (c == ']') = false

instance (c : CodePoint) : Decidable (BeginsAtom c) :=
  inferInstanceAs (Decidable ((_ ∧ _ ∧ _) ∧ _ ∧ _))

theorem exists_fuel_of_le {c : CodePoint} {fuel : Nat} (h : 2 * (c :: t).length ≤ fuel) :
    ∃ fewer, fuel = fewer + 1 ∧ 2 * t.length + 1 ≤ fewer := by
  rw [List.length_cons] at h
  exact ⟨fuel - 1, by omega, by omega⟩

/-- Words and numbers take one step. -/
theorem ReadsAs.of_atom {c : CodePoint} {s : Text} (hc : BeginsAtom c)
    (h : ∀ rest, EndsNumber rest → readAtom (c :: s ++ rest) = .ok (j, rest)) :
    ReadsAs depth (c :: s) j := by
  obtain ⟨⟨hquote, hbrace, hbracket⟩, hstart⟩ := hc
  refine ⟨⟨c, s, rfl, hstart⟩, ?_⟩
  intro fuel rest hfuel hrest
  obtain ⟨fuel, rfl, -⟩ := exists_fuel_of_le hfuel
  rw [← h rest hrest, List.cons_append, readValue.eq_def]
  simp only [hquote, hbrace, hbracket, Bool.false_eq_true, if_false]

theorem readsAs_null : ReadsAs depth "null" .null :=
  .of_atom (by decide) fun _ _ => rfl

theorem readsAs_true : ReadsAs depth "true" (.bool true) :=
  .of_atom (by decide) fun _ _ => rfl

theorem readsAs_false : ReadsAs depth "false" (.bool false) :=
  .of_atom (by decide) fun _ _ => rfl

theorem readsAs_nan : ReadsAs depth "NaN" (.float Binary64.nan) :=
  .of_atom (by decide) fun _ _ => rfl

theorem readsAs_infinity : ReadsAs depth "Infinity" (.float (Binary64.infinity false)) :=
  .of_atom (by decide) fun _ _ => rfl

theorem readsAs_negInfinity : ReadsAs depth "-Infinity" (.float (Binary64.infinity true)) :=
  .of_atom (by decide) fun _ _ => rfl

theorem exists_of_takeWhole? {p : Text × Text} (h : takeWhole? t = some p) :
    ∃ c s, t = c :: s ∧ c.isDigit = true := by
  unfold takeWhole? at h
  split at h
  next => cases h
  next c s =>
    refine ⟨c, s, rfl, ?_⟩
    split_ifs at h with hzero hdigit
    · rw [eq_of_beq hzero]
      decide
    · exact hdigit

/-- What a number begins with. -/
theorem exists_of_readNumber {r : Json × Text} (h : readNumber t = .ok r) :
    ∃ c s, c.isDigit = true ∧ (t = c :: s ∨ t = CodePoint.ofChar '-' :: c :: s) := by
  rw [readNumber.eq_def] at h
  cases t with
  | nil => cases h
  | cons c t =>
    by_cases hminus : (c == CodePoint.ofChar '-') = true
    · simp only [hminus, if_true] at h
      split at h
      next => cases h
      next whole rest hwhole =>
        obtain ⟨d, s, rfl, hd⟩ := exists_of_takeWhole? hwhole
        exact ⟨d, s, hd, .inr (by rw [eq_of_beq hminus])⟩
    · simp only [hminus] at h
      split at h
      next => cases h
      next whole rest hwhole =>
        obtain ⟨d, s, heq, hd⟩ := exists_of_takeWhole? hwhole
        exact ⟨d, s, hd, .inl heq⟩

theorem startsWith_of_isDigit {word s : Text} {c : CodePoint} (hc : c.isDigit = true)
    (hword : word.head?.any (fun w => !w.isDigit) = true) : Text.startsWith (c :: s) word = false := by
  cases word with
  | nil => cases hword
  | cons w word =>
    rw [List.head?_cons, Option.any_some, Bool.not_eq_true'] at hword
    rw [Text.startsWith, List.isPrefixOf, BEq.comm, CodePoint.beq_of_isDigit hc hword, Bool.false_and]

/-- No word is taken for a number. -/
theorem readAtom_of_readNumber {r : Json × Text} (h : readNumber t = .ok r) :
    readAtom t = .ok r := by
  obtain ⟨c, s, hc, rfl | rfl⟩ := exists_of_readNumber h
  · have hword : ∀ word : Text, word.head?.any (fun w => !w.isDigit) = true →
        takeWord? word (c :: s) = none := by
      intro word hword
      rw [takeWord?, startsWith_of_isDigit hc hword]
      rfl
    simp only [readAtom, List.findSome?_cons, List.findSome?_nil, hword "null" (by decide),
      hword "true" (by decide), hword "false" (by decide), hword "NaN" (by decide),
      hword "Infinity" (by decide), hword "-Infinity" (by decide), Option.map_none, h]
  · have hword : ∀ word : Text, Text.startsWith (CodePoint.ofChar '-' :: c :: s) word = false →
        takeWord? word (CodePoint.ofChar '-' :: c :: s) = none := by
      intro word hword
      rw [takeWord?, hword]
      rfl
    have hinfinity : Text.startsWith (CodePoint.ofChar '-' :: c :: s) "-Infinity" = false :=
      @startsWith_of_isDigit "Infinity" s c hc (by decide)
    simp only [readAtom, List.findSome?_cons, List.findSome?_nil, hword "null" rfl,
      hword "true" rfl, hword "false" rfl, hword "NaN" rfl, hword "Infinity" rfl,
      hword "-Infinity" hinfinity, Option.map_none, h]

/-- Numbers are read as they are by the reader of numbers. -/
theorem ReadsAs.of_number (h : ∀ rest, EndsNumber rest → readNumber (t ++ rest) = .ok (j, rest)) :
    ReadsAs depth t j := by
  have hbegins : ∀ {c : CodePoint}, c.isDigit = true → BeginsAtom c := fun hc =>
    ⟨⟨CodePoint.beq_of_isDigit hc (by decide), CodePoint.beq_of_isDigit hc (by decide),
        CodePoint.beq_of_isDigit hc (by decide)⟩,
      by
        simp only [isSpace, Bool.or_eq_false_iff]
        exact ⟨⟨⟨CodePoint.beq_of_isDigit hc (by decide), CodePoint.beq_of_isDigit hc (by decide)⟩,
          CodePoint.beq_of_isDigit hc (by decide)⟩, CodePoint.beq_of_isDigit hc (by decide)⟩,
      CodePoint.beq_of_isDigit hc (by decide)⟩
  have hatom : ∀ rest, EndsNumber rest → readAtom (t ++ rest) = .ok (j, rest) :=
    fun rest hrest => readAtom_of_readNumber (h rest hrest)
  have hread := h [] nofun
  rw [List.append_nil] at hread
  obtain ⟨c, s, hc, rfl | rfl⟩ := exists_of_readNumber hread
  · exact .of_atom (hbegins hc) hatom
  · exact .of_atom (by decide) hatom

theorem renderText_append (t rest : Text) :
    renderText t ++ rest =
      CodePoint.ofChar '"' :: (t.flatMap escapeCodePoint ++ CodePoint.ofChar '"' :: rest) := by
  rw [renderText, List.append_assoc, List.append_assoc]
  rfl

/-- Strings are read by the reader of strings. -/
theorem readsAs_renderText (t : Text) : ReadsAs depth (renderText t) (.text t.joined) := by
  refine ⟨⟨_, _, rfl, by decide, by decide⟩, ?_⟩
  intro fuel rest hfuel hrest
  obtain ⟨fuel, rfl, -⟩ := exists_fuel_of_le hfuel
  rw [renderText_append, readValue.eq_def]
  simp only [beq_self_eq_true, if_true, readString_flatMap]
  rfl

/-! ## Arrays -/

/-- Texts with the same gap in front of each and commas between them. -/
def separated (gap : Text) (texts : List Text) : Text := Text.join "," (texts.map (gap ++ ·))

theorem separated_singleton (gap t : Text) : separated gap [t] = gap ++ t :=
  List.append_nil (gap ++ t)

theorem separated_cons_cons (gap t t' : Text) (ts : List Text) :
    separated gap (t :: t' :: ts) =
      gap ++ t ++ CodePoint.ofChar ',' :: separated gap (t' :: ts) := by
  rw [separated, List.map_cons, List.map_cons, Text.join, List.intersperse_cons_cons,
    List.flatten_cons, List.flatten_cons, ← Text.join, ← List.map_cons]
  rfl

theorem exists_separated_eq (gap t : Text) (ts : List Text) :
    ∃ behind, separated gap (t :: ts) = gap ++ (t ++ behind) := by
  cases ts with
  | nil => exact ⟨[], by rw [separated_singleton, List.append_nil]⟩
  | cons t' ts => exact ⟨_, by rw [separated_cons_cons, List.append_assoc]⟩

/-- White space in front of a value is passed over. -/
theorem ReadsAs.skipSpace_gap {gap : Text} (h : ReadsAs depth t j) (hgap : IsBlank gap)
    (rest : Text) : skipSpace (gap ++ t ++ rest) = t ++ rest := by
  obtain ⟨c, s, rfl, hspace, -⟩ := h.start
  rw [List.append_assoc, skipSpace_append hgap, List.cons_append, skipSpace_cons hspace]

theorem readItems_last {close : Text} {fuel : Nat} {acc : List Json} (h : ReadsAs depth t j)
    (hclose : IsBlank close) (hfuel : 2 * t.length ≤ fuel) :
    readItems (fuel + 1) depth (t ++ (close ++ CodePoint.ofChar ']' :: rest)) acc =
      .ok (.array (j :: acc).reverse, rest) := by
  have hends := EndsNumber.blank_append hclose
    (@endsNumber_cons rest (CodePoint.ofChar ']') (by decide))
  rw [readItems, h.read fuel _ hfuel hends]
  simp only [skipSpace_append hclose, skipSpace_cons (c := CodePoint.ofChar ']') (by decide),
    beq_self_eq_true, if_true]

theorem readItems_comma {fuel : Nat} {acc : List Json} (h : ReadsAs depth t j)
    (hfuel : 2 * t.length ≤ fuel) :
    readItems (fuel + 1) depth (t ++ CodePoint.ofChar ',' :: rest) acc =
      readItems fuel depth (skipSpace rest) (j :: acc) := by
  have hends := @endsNumber_cons rest (CodePoint.ofChar ',') (by decide)
  have hbracket : (CodePoint.ofChar ',' == CodePoint.ofChar ']') = false := by decide
  rw [readItems, h.read fuel _ hfuel hends]
  simp only [skipSpace_cons (c := CodePoint.ofChar ',') (by decide), hbracket, beq_self_eq_true,
    Bool.false_eq_true, if_false, if_true]

/-- What stands between two brackets is read item by item. -/
theorem readItems_of_readsAs {gap close rest : Text} (hgap : IsBlank gap) (hclose : IsBlank close)
    {texts : List Text} {items : List Json} (h : List.Forall₂ (ReadsAs depth) texts items)
    (hne : texts ≠ []) :
    ∀ {fuel : Nat} {acc : List Json}, 2 * (separated gap texts).length + 1 ≤ fuel →
      readItems fuel depth
          (skipSpace (separated gap texts ++ (close ++ CodePoint.ofChar ']' :: rest))) acc =
        .ok (.array (acc.reverse ++ items), rest) := by
  induction h with
  | nil => exact absurd rfl hne
  | @cons t j texts items hitem hitems ih =>
    intro fuel acc hfuel
    obtain ⟨fuel, rfl⟩ := Nat.exists_eq_add_of_le' (Nat.le_trans (Nat.le_add_left 1 _) hfuel)
    cases hitems with
    | nil =>
      rw [separated_singleton] at hfuel ⊢
      rw [List.length_append] at hfuel
      rw [hitem.skipSpace_gap hgap, readItems_last hitem hclose (by omega), List.reverse_cons]
    | cons hnext hrest =>
      rw [separated_cons_cons] at hfuel ⊢
      rw [List.length_append, List.length_append, List.length_cons] at hfuel
      rw [List.append_assoc, hitem.skipSpace_gap hgap, List.cons_append,
        readItems_comma hitem (by omega), ih (List.cons_ne_nil _ _) (by omega), List.reverse_cons,
        List.append_assoc, List.singleton_append]

theorem enclose_append (level : Nat) (left right : Char) {texts : List Text} (h : texts ≠ [])
    (rest : Text) :
    enclose style level left right texts ++ rest =
      CodePoint.ofChar left :: (separated (style.lineBreak (level + 1)) texts ++
        (style.lineBreak level ++ CodePoint.ofChar right :: rest)) := by
  obtain ⟨t, texts, rfl⟩ := List.exists_cons_of_ne_nil h
  rw [enclose, separated]
  simp only [List.cons_append, List.append_assoc, List.nil_append]

/-- What follows an opening bracket or brace takes no more steps than its length allows. -/
theorem length_separated_le (level : Nat) (left right : Char) {texts : List Text} (h : texts ≠ [])
    {fuel : Nat} (hfuel : 2 * (enclose style level left right texts).length ≤ fuel + 1) :
    2 * (separated (style.lineBreak (level + 1)) texts).length + 1 ≤ fuel := by
  have heq := @enclose_append style level left right texts h []
  rw [List.append_nil] at heq
  rw [heq, List.length_cons, List.length_append, List.length_append, List.length_cons] at hfuel
  omega

/-- **Arrays are read item by item.** -/
theorem ReadsAs.array {texts : List Text} {items : List Json} (level : Nat)
    (h : List.Forall₂ (ReadsAs depth) texts items) :
    ReadsAs (depth + 1) (enclose style level '[' ']' texts) (.array items) := by
  cases h with
  | nil =>
    refine ⟨⟨_, _, rfl, by decide, by decide⟩, ?_⟩
    intro fuel rest hfuel hrest
    obtain ⟨fuel, rfl, -⟩ := exists_fuel_of_le hfuel
    rfl
  | @cons t j texts items hitem hitems =>
    have hne := List.cons_ne_nil t texts
    refine ⟨⟨_, _, rfl, by decide, by decide⟩, ?_⟩
    intro fuel rest hfuel hrest
    obtain ⟨fuel, rfl, -⟩ := exists_fuel_of_le hfuel
    have hread := @readItems_of_readsAs depth _ _ rest (isBlank_lineBreak style (level + 1))
      (isBlank_lineBreak style level) _ _ (.cons hitem hitems) hne fuel []
      (length_separated_le level _ _ hne hfuel)
    -- the first code point that is no white space does not close the array
    obtain ⟨behind, hbody⟩ := exists_separated_eq (style.lineBreak (level + 1)) t texts
    obtain ⟨c, s, rfl, hspace, hclose⟩ := hitem.start
    rw [hbody, List.append_assoc, skipSpace_append (isBlank_lineBreak style (level + 1)),
      List.append_assoc, List.cons_append, skipSpace_cons hspace] at hread
    have hquote : (CodePoint.ofChar '[' == CodePoint.ofChar '"') = false := by decide
    have hbrace : (CodePoint.ofChar '[' == CodePoint.ofChar '\x7b') = false := by decide
    rw [enclose_append level _ _ hne, hbody, readValue.eq_def]
    simp only [hquote, hbrace, beq_self_eq_true, Bool.false_eq_true, if_false, if_true,
      List.append_assoc, skipSpace_append (isBlank_lineBreak style (level + 1)), List.cons_append,
      skipSpace_cons hspace, hclose, hread]
    rfl

/-! ## Objects -/

/-- That a style puts a colon and white space between a name and its value. -/
def Style.HasColon (style : Style) : Prop :=
  ∃ blank, IsBlank blank ∧ style.afterName = CodePoint.ofChar ':' :: blank

theorem hasColon_compact : Style.compact.HasColon := ⟨[], nofun, rfl⟩

theorem hasColon_readable : Style.readable.HasColon :=
  ⟨[CodePoint.ofChar ' '], List.forall_mem_singleton.mpr (by decide), rfl⟩

/-- That a text is read as a field of an object. -/
inductive ReadsAsField (style : Style) (depth : Nat) : Text → Text × Json → Prop
  | intro {name t : Text} {j : Json} (h : ReadsAs depth t j) :
    ReadsAsField style depth (renderText name ++ (style.afterName ++ t)) (name.joined, j)

variable {field : Text × Json} {fuel : Nat} {acc : List (Text × Json)}

/-- A field is read up to what follows its value. -/
theorem readFields_field (hcolon : style.HasColon) (h : ReadsAsField style depth t field)
    (hfuel : 2 * t.length ≤ fuel) (hends : EndsNumber rest) :
    readFields (fuel + 1) depth (t ++ rest) acc =
      match skipSpace rest with
      | [] => .error (.stopped .expectingComma [])
      | d :: rest' =>
        if d == '\x7d' then .ok (.object (Entries.ofList (field :: acc).reverse), rest')
        else if d == ',' then readFields fuel depth (skipSpace rest') (field :: acc)
        else .error (.stopped .expectingComma (d :: rest')) := by
  obtain ⟨blank, hblank, hafter⟩ := hcolon
  cases h with
  | @intro name t j h =>
    rw [List.length_append, List.length_append] at hfuel
    obtain ⟨c, s, rfl, hspace, -⟩ := h.start
    have hvalue := h.read fuel rest (by omega) hends
    have hcolon : isSpace (CodePoint.ofChar ':') = false := by decide
    rw [List.append_assoc, renderText_append, hafter, readFields.eq_def]
    simp only [beq_self_eq_true, if_true, readString_flatMap, List.reverse_nil, List.nil_append,
      List.cons_append, List.append_assoc, skipSpace_cons hcolon, skipSpace_append hblank,
      skipSpace_cons hspace]
    rw [List.cons_append] at hvalue
    rewrite [hvalue]
    rfl

theorem readFields_last {close : Text} (hcolon : style.HasColon)
    (h : ReadsAsField style depth t field) (hclose : IsBlank close) (hfuel : 2 * t.length ≤ fuel) :
    readFields (fuel + 1) depth (t ++ (close ++ CodePoint.ofChar '\x7d' :: rest)) acc =
      .ok (.object (Entries.ofList (field :: acc).reverse), rest) := by
  have hends := EndsNumber.blank_append hclose
    (@endsNumber_cons rest (CodePoint.ofChar '\x7d') (by decide))
  rw [readFields_field hcolon h hfuel hends, skipSpace_append hclose,
    skipSpace_cons (c := CodePoint.ofChar '\x7d') (by decide)]
  rfl

theorem readFields_comma (hcolon : style.HasColon) (h : ReadsAsField style depth t field)
    (hfuel : 2 * t.length ≤ fuel) :
    readFields (fuel + 1) depth (t ++ CodePoint.ofChar ',' :: rest) acc =
      readFields fuel depth (skipSpace rest) (field :: acc) := by
  have hends := @endsNumber_cons rest (CodePoint.ofChar ',') (by decide)
  rw [readFields_field hcolon h hfuel hends, skipSpace_cons (c := CodePoint.ofChar ',') (by decide)]
  rfl

/-- Fields begin with the quote of their name. -/
theorem ReadsAsField.exists_eq_cons (h : ReadsAsField style depth t field) :
    ∃ s, t = CodePoint.ofChar '"' :: s := by
  cases h with
  | intro => exact ⟨_, rfl⟩

theorem ReadsAsField.skipSpace_gap {gap : Text} (h : ReadsAsField style depth t field)
    (hgap : IsBlank gap) (rest : Text) : skipSpace (gap ++ t ++ rest) = t ++ rest := by
  obtain ⟨s, rfl⟩ := h.exists_eq_cons
  rw [List.append_assoc, skipSpace_append hgap, List.cons_append, skipSpace_cons (by decide)]

/-- What stands between two braces is read field by field. -/
theorem readFields_of_readsAsField {gap close : Text} (hcolon : style.HasColon)
    (hgap : IsBlank gap) (hclose : IsBlank close) {texts : List Text}
    {fields : List (Text × Json)} (h : List.Forall₂ (ReadsAsField style depth) texts fields)
    (hne : texts ≠ []) :
    ∀ {fuel : Nat} {acc : List (Text × Json)}, 2 * (separated gap texts).length + 1 ≤ fuel →
      readFields fuel depth
          (skipSpace (separated gap texts ++ (close ++ CodePoint.ofChar '\x7d' :: rest))) acc =
        .ok (.object (Entries.ofList (acc.reverse ++ fields)), rest) := by
  induction h with
  | nil => exact absurd rfl hne
  | @cons t field texts fields hfield hfields ih =>
    intro fuel acc hfuel
    obtain ⟨fuel, rfl⟩ := Nat.exists_eq_add_of_le' (Nat.le_trans (Nat.le_add_left 1 _) hfuel)
    cases hfields with
    | nil =>
      rw [separated_singleton] at hfuel ⊢
      rw [List.length_append] at hfuel
      rw [hfield.skipSpace_gap hgap, readFields_last hcolon hfield hclose (by omega),
        List.reverse_cons]
    | cons hnext hrest =>
      rw [separated_cons_cons] at hfuel ⊢
      rw [List.length_append, List.length_append, List.length_cons] at hfuel
      rw [List.append_assoc, hfield.skipSpace_gap hgap, List.cons_append,
        readFields_comma hcolon hfield (by omega), ih (List.cons_ne_nil _ _) (by omega),
        List.reverse_cons, List.append_assoc, List.singleton_append]

/-- **Objects are read field by field.** -/
theorem ReadsAs.object {texts : List Text} {fields : List (Text × Json)} (hcolon : style.HasColon)
    (level : Nat) (h : List.Forall₂ (ReadsAsField style depth) texts fields) :
    ReadsAs (depth + 1) (enclose style level '\x7b' '\x7d' texts)
      (.object (Entries.ofList fields)) := by
  cases h with
  | nil =>
    refine ⟨⟨_, _, rfl, by decide, by decide⟩, ?_⟩
    intro fuel rest hfuel hrest
    obtain ⟨fuel, rfl, -⟩ := exists_fuel_of_le hfuel
    rfl
  | @cons t field texts fields hfield hfields =>
    have hne := List.cons_ne_nil t texts
    refine ⟨⟨_, _, rfl, by decide, by decide⟩, ?_⟩
    intro fuel rest hfuel hrest
    obtain ⟨fuel, rfl, -⟩ := exists_fuel_of_le hfuel
    have hread := @readFields_of_readsAsField style depth rest _ _ hcolon
      (isBlank_lineBreak style (level + 1)) (isBlank_lineBreak style level) _ _
      (.cons hfield hfields) hne fuel [] (length_separated_le level _ _ hne hfuel)
    -- the first code point that is no white space is a quote, which does not close the object
    obtain ⟨behind, hbody⟩ := exists_separated_eq (style.lineBreak (level + 1)) t texts
    obtain ⟨s, rfl⟩ := hfield.exists_eq_cons
    have hspace : isSpace (CodePoint.ofChar '"') = false := by decide
    have hclose : (CodePoint.ofChar '"' == CodePoint.ofChar '\x7d') = false := by decide
    rw [hbody, List.append_assoc, skipSpace_append (isBlank_lineBreak style (level + 1)),
      List.append_assoc, List.cons_append, skipSpace_cons hspace] at hread
    have hquote : (CodePoint.ofChar '\x7b' == CodePoint.ofChar '"') = false := by decide
    rw [enclose_append level _ _ hne, hbody, readValue.eq_def]
    simp only [hquote, beq_self_eq_true, Bool.false_eq_true, if_false, if_true,
      List.append_assoc, skipSpace_append (isBlank_lineBreak style (level + 1)), List.cons_append,
      skipSpace_cons hspace, hclose, hread]
    rfl

/-! ## All values -/

theorem readsAs_int {n : Int} (h : (int n).IsWritable style) : ReadsAs depth (Text.ofInt n) (.int n) :=
  .of_number fun _ hrest => readNumber_ofInt (isWritable_int.mp h) hrest

/-- Doubles come back as they are, but all that are no numbers as one. -/
theorem readsAs_float (x : Binary64) :
    ReadsAs depth (renderFloat x) (.float (if x.isNaN then Binary64.nan else x)) := by
  unfold renderFloat
  split_ifs with hnan hinfinite hnegative
  · exact readsAs_nan
  · have hx : Binary64.infinity true = x := by
      rw [← Binary64.ofMagnitude_eq x, of_decide_eq_true hinfinite, hnegative]
      rfl
    rw [← hx]
    exact readsAs_negInfinity
  · have hx : Binary64.infinity false = x := by
      rw [← Binary64.ofMagnitude_eq x, of_decide_eq_true hinfinite, Bool.eq_false_iff.mpr hnegative]
      rfl
    rw [← hx]
    exact readsAs_infinity
  · refine .of_number fun _ hrest => readNumber_toText ?_ hrest
    simp only [Binary64.isNaN, Binary64.isInfinite, Binary64.isFinite, decide_eq_true_eq] at *
    omega

mutual

/-- **What is written is read back**, up to what `reread` says. -/
theorem readsAs_renderAt (hcolon : style.HasColon) :
    ∀ (j : Json) (level depth : Nat), j.IsWritable style → j.nesting ≤ depth →
      ReadsAs depth (renderAt style level j) j.reread
  | .null, _, _, _, _ => readsAs_null
  | .bool true, _, _, _, _ => readsAs_true
  | .bool false, _, _, _, _ => readsAs_false
  | .int _, _, _, h, _ => readsAs_int h
  | .float x, _, _, _, _ => readsAs_float x
  | .text t, _, _, _, _ => readsAs_renderText t
  | .array items, level, depth, h, hdepth => by
    obtain ⟨depth, rfl⟩ := Nat.exists_eq_add_of_le' (Nat.le_trans (Nat.le_add_left 1 _) hdepth)
    exact .array level (readsAs_renderItems hcolon items (level + 1) depth (isWritable_array.mp h)
      (Nat.le_of_succ_le_succ hdepth))
  | .object fields, level, depth, h, hdepth => by
    obtain ⟨depth, rfl⟩ := Nat.exists_eq_add_of_le' (Nat.le_trans (Nat.le_add_left 1 _) hdepth)
    exact .object hcolon level (readsAsField_renderFields hcolon fields (level + 1) depth
      (isWritable_object.mp h) (Nat.le_of_succ_le_succ hdepth))

theorem readsAs_renderItems (hcolon : style.HasColon) :
    ∀ (items : List Json) (level depth : Nat), (∀ item ∈ items, item.IsWritable style) →
      nestingItems items ≤ depth →
      List.Forall₂ (ReadsAs depth) (renderItems style level items) (rereadItems items)
  | [], _, _, _, _ => .nil
  | item :: rest, level, depth, h, hdepth => by
    obtain ⟨hitem, hrest⟩ := List.forall_mem_cons.mp h
    obtain ⟨hdepth, hdepth'⟩ := Nat.max_le.mp hdepth
    exact .cons (readsAs_renderAt hcolon item level depth hitem hdepth)
      (readsAs_renderItems hcolon rest level depth hrest hdepth')

theorem readsAsField_renderFields (hcolon : style.HasColon) :
    ∀ (fields : List (Text × Json)) (level depth : Nat),
      (∀ field ∈ fields, field.2.IsWritable style) → nestingFields fields ≤ depth →
      List.Forall₂ (ReadsAsField style depth) (renderFields style level fields)
        (rereadFields fields)
  | [], _, _, _, _ => .nil
  | (name, value) :: rest, level, depth, h, hdepth => by
    obtain ⟨hvalue, hrest⟩ := List.forall_mem_cons.mp h
    obtain ⟨hdepth, hdepth'⟩ := Nat.max_le.mp hdepth
    exact .cons (.intro (readsAs_renderAt hcolon value level depth hvalue hdepth))
      (readsAsField_renderFields hcolon rest level depth hrest hdepth')

end

theorem IsBlank.isAscii {blank : Text} (h : IsBlank blank) : blank.IsAscii := by
  intro c hc
  have hspace := h c hc
  simp only [isSpace, Bool.or_eq_true, beq_iff_eq] at hspace
  rcases hspace with ((rfl | rfl) | rfl) | rfl <;> decide

theorem Style.HasColon.isAscii (h : style.HasColon) : style.afterName.IsAscii := by
  obtain ⟨blank, hblank, hafter⟩ := h
  rw [hafter]
  exact Text.isAscii_cons.mpr ⟨by decide, hblank.isAscii⟩

/-- **A text that is written is read as the value**, with any white space behind it. -/
theorem read_render {blank : Text} (hcolon : style.HasColon) (h : j.IsWritable style)
    (hdepth : j.nesting ≤ nestingLimit) (hblank : IsBlank blank) :
    Json.read (render style j ++ blank) = .ok j.reread := by
  have hreads := readsAs_renderAt hcolon j 0 nestingLimit h hdepth
  have hends := @EndsNumber.blank_append [] blank hblank nofun
  rw [List.append_nil] at hends
  have hvalue := hreads.read (2 * (render style j ++ blank).length + 2) blank
    (by rw [List.length_append, render]; omega) hends
  have hrest : skipSpace blank = [] := by
    have hskip := skipSpace_append hblank []
    rwa [List.append_nil] at hskip
  obtain ⟨c, s, heq, hspace, -⟩ := hreads.start
  have hmark : isByteOrderMark c = false := by
    have hascii := of_decide_eq_true (isAscii_render hcolon.isAscii j c (by
      rw [render, heq]
      exact List.mem_cons_self ..))
    exact decide_eq_false (by omega)
  rw [render, heq, List.cons_append] at hvalue ⊢
  simp only [Json.read, readWhole, List.head?_cons, Option.any_some, hmark, Bool.false_eq_true,
    if_false, skipSpace_cons hspace, hvalue, hrest]
  rfl

end TopologyAudit.Json
