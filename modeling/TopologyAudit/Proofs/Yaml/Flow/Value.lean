import TopologyAudit.Proofs.Json.Reading
import TopologyAudit.Proofs.Yaml.Flow.Scalar

/-!
# Values of JSON that YAML reads

A value that is written on one line is a flow collection of YAML, or a scalar in one
(`IsFlow`), as long as its texts stay within the basic plane, its names are told apart and near
enough to their colons, and it holds no doubles. Such a line is in printed ASCII.
-/

namespace TopologyAudit.Json

open Yaml (Lexeme ScalarStyle)

/-! ## Texts on one line -/

/-- The text of a value on one line. -/
abbrev compact (j : Json) : Text := render Style.compact j

/-- The text of a field on one line. -/
def compactField (f : Text × Json) : Text := renderText f.1 ++ CodePoint.ofChar ':' :: compact f.2

/-- Texts with a comma in front of each. -/
def afterCommas (texts : List Text) : Text := texts.flatMap fun t => CodePoint.ofChar ',' :: t

theorem afterCommas_cons (t : Text) (ts : List Text) :
    afterCommas (t :: ts) = CodePoint.ofChar ',' :: (t ++ afterCommas ts) := List.flatMap_cons

theorem enclose_compact (level : Nat) (left right : Char) (texts : List Text) :
    enclose Style.compact level left right texts =
      CodePoint.ofChar left :: ((afterCommas texts).tail ++ [CodePoint.ofChar right]) := by
  have hjoin : ∀ (t : Text) (ts : List Text),
      separated [] (t :: ts) = t ++ afterCommas ts := by
    intro t ts
    induction ts generalizing t with
    | nil =>
      rw [separated_singleton, List.nil_append, afterCommas, List.flatMap_nil, List.append_nil]
    | cons t' ts ih => rw [separated_cons_cons, ih, afterCommas_cons, List.nil_append]
  cases texts with
  | nil => rfl
  | cons t ts =>
    show CodePoint.ofChar left :: (separated [] (t :: ts) ++ [CodePoint.ofChar right]) = _
    rw [hjoin, afterCommas_cons, List.tail_cons]

mutual

/-- On one line the level makes no difference. -/
theorem renderAt_compact : ∀ (j : Json) (level : Nat), renderAt Style.compact level j = compact j
  | .null, _ | .bool true, _ | .bool false, _ | .int _, _ | .float _, _ | .text _, _ => rfl
  | .array items, level => by
    rw [compact, render, renderAt, renderAt, enclose_compact, enclose_compact, renderItems_compact,
      renderItems_compact]
  | .object fields, level => by
    rw [compact, render, renderAt, renderAt, enclose_compact, enclose_compact,
      renderFields_compact, renderFields_compact]

theorem renderItems_compact : ∀ (items : List Json) (level : Nat),
    renderItems Style.compact level items = items.map compact
  | [], _ => rfl
  | item :: rest, level => by
    rw [renderItems, renderAt_compact item, renderItems_compact rest, List.map_cons]

theorem renderFields_compact : ∀ (fields : List (Text × Json)) (level : Nat),
    renderFields Style.compact level fields = fields.map compactField
  | [], _ => rfl
  | (name, value) :: rest, level => by
    rw [renderFields, renderAt_compact value, renderFields_compact rest, List.map_cons]
    rfl

end

theorem compact_array (items : List Json) :
    compact (.array items) = CodePoint.ofChar '[' ::
      ((afterCommas (items.map compact)).tail ++ [CodePoint.ofChar ']']) := by
  rw [compact, render, renderAt, enclose_compact, renderItems_compact]

theorem compact_object (fields : List (Text × Json)) :
    compact (.object fields) = CodePoint.ofChar '\x7b' ::
      ((afterCommas (fields.map compactField)).tail ++ [CodePoint.ofChar '\x7d']) := by
  rw [compact, render, renderAt, enclose_compact, renderFields_compact]

/-! ## Values -/

/-- That a value without parts is written as a scalar with a text. -/
inductive IsAtom : Json → Text → ScalarStyle → Prop
  | null : IsAtom .null "null" .plain
  | isTrue : IsAtom (.bool true) "true" .plain
  | isFalse : IsAtom (.bool false) "false" .plain
  | int {n : Int} (h : n.natAbs < 10 ^ Integer.digitLimit) : IsAtom (.int n) (Text.ofInt n) .plain
  | text {t : Text} (h : t.IsBasic) : IsAtom (.text t) t .marked

/-- That a name can be a key of a flow collection. -/
structure IsKey (name : Text) : Prop where
  isBasic : name.IsBasic
  /-- The colon is within the reach of the key. -/
  length_le : (renderText name).length ≤ Yaml.Lexer.keyReach

/-- That a value is a flow collection of YAML when it is written on one line, or a scalar in
one. -/
inductive IsFlow : Json → Prop
  | atom {j : Json} {t : Text} {style : ScalarStyle} (h : IsAtom j t style) : IsFlow j
  | array {items : List Json} (h : ∀ item ∈ items, IsFlow item) : IsFlow (.array items)
  | object {fields : List (Text × Json)} (hnodup : (fields.map (·.1)).Nodup)
    (hkeys : ∀ f ∈ fields, IsKey f.1) (h : ∀ f ∈ fields, IsFlow f.2) : IsFlow (.object fields)

/-- That a value is an array or an object. -/
inductive IsCollection : Json → Prop
  | array (items : List Json) : IsCollection (.array items)
  | object (fields : List (Text × Json)) : IsCollection (.object fields)

theorem IsFlow.of_array {items : List Json} (h : IsFlow (.array items)) :
    ∀ item ∈ items, IsFlow item := by
  cases h with
  | atom hatom => cases hatom
  | array h => exact h

theorem IsFlow.of_object {fields : List (Text × Json)} (h : IsFlow (.object fields)) :
    (fields.map (·.1)).Nodup ∧ (∀ f ∈ fields, IsKey f.1) ∧ ∀ f ∈ fields, IsFlow f.2 := by
  cases h with
  | atom hatom => cases hatom
  | object hnodup hkeys h => exact ⟨hnodup, hkeys, h⟩

theorem nesting_le_nestingItems {items : List Json} :
    ∀ item ∈ items, item.nesting ≤ nestingItems items := by
  induction items with
  | nil => exact List.forall_mem_nil _
  | cons item items ih =>
    rw [nestingItems, List.forall_mem_cons]
    exact ⟨Nat.le_max_left _ _, fun other hother =>
      Nat.le_trans (ih other hother) (Nat.le_max_right _ _)⟩

theorem nesting_le_nestingFields {fields : List (Text × Json)} :
    ∀ f ∈ fields, f.2.nesting ≤ nestingFields fields := by
  induction fields with
  | nil => exact List.forall_mem_nil _
  | cons f fields ih =>
    rw [nestingFields, List.forall_mem_cons]
    exact ⟨Nat.le_max_left _ _, fun other hother =>
      Nat.le_trans (ih other hother) (Nat.le_max_right _ _)⟩

theorem isPlainWord_ofInt (n : Int) : Yaml.IsPlainWord (Text.ofInt n) := by
  have hword : ∀ n : Nat, ∀ c ∈ Text.ofNat n, Yaml.isWord c = true := fun n c hc => by
    rw [Yaml.isWord, (Text.IsDigits.ofNat n).isDigit c hc]
    rfl
  have hstart : ∀ n : Nat, ∃ d rest, Text.ofNat n = d :: rest ∧ d.isDigit = true := fun n => by
    obtain ⟨d, rest, heq⟩ := List.exists_cons_of_ne_nil (Text.IsDigits.ofNat n).ne_nil
    exact ⟨d, rest, heq, (Text.IsDigits.ofNat n).isDigit d (heq ▸ List.mem_cons_self ..)⟩
  cases n with
  | ofNat n =>
    obtain ⟨d, rest, heq, hd⟩ := hstart n
    exact ⟨hword n, .inl ⟨d, rest, heq, CodePoint.beq_of_isDigit hd (by decide)⟩⟩
  | negSucc n =>
    obtain ⟨d, rest, heq, hd⟩ := hstart (n + 1)
    exact ⟨List.forall_mem_cons.mpr ⟨by decide, hword (n + 1)⟩,
      .inr ⟨d, rest, congrArg (CodePoint.ofChar '-' :: ·) heq, hd⟩⟩

/-- Words and integers stand as they are. -/
theorem IsAtom.isPlainWord {j : Json} {t : Text} (h : IsAtom j t .plain) :
    compact j = t ∧ Yaml.IsPlainWord t := by
  cases h with
  | null => exact ⟨rfl, by decide, .inl ⟨_, _, rfl, by decide⟩⟩
  | isTrue => exact ⟨rfl, by decide, .inl ⟨_, _, rfl, by decide⟩⟩
  | isFalse => exact ⟨rfl, by decide, .inl ⟨_, _, rfl, by decide⟩⟩
  | @int n _ => exact ⟨rfl, isPlainWord_ofInt n⟩

/-- Texts stand between quotes. -/
theorem IsAtom.isBasic {j : Json} {t : Text} (h : IsAtom j t .marked) :
    compact j = renderText t ∧ t.IsBasic := by
  cases h with
  | text hbasic => exact ⟨rfl, hbasic⟩

theorem IsAtom.nesting {j : Json} {t : Text} {style : ScalarStyle} (h : IsAtom j t style) :
    j.nesting = 0 := by
  cases h <;> rfl

theorem IsAtom.length_pos {j : Json} {t : Text} {style : ScalarStyle} (h : IsAtom j t style) :
    0 < (compact j).length := by
  cases style with
  | plain =>
    obtain ⟨heq, hword⟩ := h.isPlainWord
    rw [heq]
    exact List.length_pos_iff.mpr hword.ne_nil
  | marked =>
    rw [h.isBasic.1]
    exact List.length_pos_iff.mpr (List.cons_ne_nil _ _)

theorem IsAtom.graphic {j : Json} {t : Text} {style : ScalarStyle} (h : IsAtom j t style) :
    ∀ c ∈ compact j, c.within 0x20 0x7E = true := by
  cases style with
  | plain =>
    obtain ⟨heq, hword⟩ := h.isPlainWord
    rw [heq]
    exact fun c hc => Yaml.graphic_of_isWord (hword.isWord c hc)
  | marked =>
    obtain ⟨heq, hbasic⟩ := h.isBasic
    rw [heq]
    exact Yaml.graphic_renderText hbasic

theorem graphic_afterCommas {texts : List Text}
    (h : ∀ t ∈ texts, ∀ c ∈ t, c.within 0x20 0x7E = true) :
    ∀ c ∈ (afterCommas texts).tail, c.within 0x20 0x7E = true := by
  intro c hc
  obtain ⟨t, ht, hc⟩ := List.mem_flatMap.mp (List.mem_of_mem_tail hc)
  rcases List.mem_cons.mp hc with rfl | hc
  · decide
  · exact h t ht c hc

/-- **What is written on one line is printed ASCII.** -/
theorem IsFlow.graphic {j : Json} (h : j.IsFlow) : ∀ c ∈ compact j, c.within 0x20 0x7E = true := by
  induction h with
  | atom h => exact h.graphic
  | array _ ih =>
    rw [compact_array, List.forall_mem_cons, List.forall_mem_append, List.forall_mem_singleton]
    exact ⟨by decide, graphic_afterCommas (List.forall_mem_map.mpr ih), by decide⟩
  | object _ hkeys _ ih =>
    rw [compact_object, List.forall_mem_cons, List.forall_mem_append, List.forall_mem_singleton]
    refine ⟨by decide, graphic_afterCommas (List.forall_mem_map.mpr fun f hf => ?_), by decide⟩
    exact List.forall_mem_append.mpr ⟨Yaml.graphic_renderText (hkeys f hf).isBasic,
      List.forall_mem_cons.mpr ⟨by decide, ih f hf⟩⟩

/-! ## Tokens -/

mutual

/-- The tokens of a value. -/
def lexemes : Json → List Lexeme
  | .null => [.scalar "null" .plain]
  | .bool true => [.scalar "true" .plain]
  | .bool false => [.scalar "false" .plain]
  | .int n => [.scalar (Text.ofInt n) .plain]
  | .float x => [.scalar (renderFloat x) .plain]
  | .text t => [.scalar t .marked]
  | .array items => .flowSequenceStart :: ((itemLexemes items).tail ++ [.flowSequenceEnd])
  | .object fields => .flowMappingStart :: ((fieldLexemes fields).tail ++ [.flowMappingEnd])

/-- The tokens of items, with a comma in front of each. -/
def itemLexemes : List Json → List Lexeme
  | [] => []
  | item :: rest => .flowEntry :: (lexemes item ++ itemLexemes rest)

/-- The tokens of fields with a comma in front of each. -/
def fieldLexemes : List (Text × Json) → List Lexeme
  | [] => []
  | (name, value) :: rest =>
    .flowEntry :: .key :: .scalar name .marked :: .value :: (lexemes value ++ fieldLexemes rest)

end

/-- The tokens of parts with a comma in front of each. -/
def lexemesAfterCommas (parts : List (List Lexeme)) : List Lexeme :=
  parts.flatMap fun part => .flowEntry :: part

theorem lexemesAfterCommas_cons (part : List Lexeme) (parts : List (List Lexeme)) :
    lexemesAfterCommas (part :: parts) = .flowEntry :: (part ++ lexemesAfterCommas parts) :=
  List.flatMap_cons

theorem itemLexemes_eq (items : List Json) :
    itemLexemes items = lexemesAfterCommas (items.map lexemes) := by
  induction items with
  | nil => rfl
  | cons item rest ih => rw [itemLexemes, ih, List.map_cons, lexemesAfterCommas_cons]

/-- The tokens of a field. -/
def lexemesOfField (f : Text × Json) : List Lexeme :=
  [.key, .scalar f.1 .marked, .value] ++ f.2.lexemes

theorem fieldLexemes_eq (fields : List (Text × Json)) :
    fieldLexemes fields = lexemesAfterCommas (fields.map lexemesOfField) := by
  induction fields with
  | nil => rfl
  | cons f rest ih =>
    rw [fieldLexemes, ih, List.map_cons, lexemesAfterCommas_cons]
    rfl

theorem IsAtom.lexemes {j : Json} {t : Text} {style : ScalarStyle} (h : IsAtom j t style) :
    j.lexemes = [.scalar t style] := by
  cases h <;> rfl

end TopologyAudit.Json
