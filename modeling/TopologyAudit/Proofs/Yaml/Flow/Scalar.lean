import Mathlib.Data.List.TakeWhile
import TopologyAudit.Proofs.Json.Escape
import TopologyAudit.Proofs.Outcome
import TopologyAudit.Proofs.Yaml.Flow.Line

/-!
# JSON's scalars as YAML

A string of JSON is a scalar between double quotes. Its escapes stand for the same code points
in both languages, as long as none of them is half of a surrogate pair that stands for a code
point beyond `FFFF`; and its spaces, which YAML takes in runs of their own, come back as they
are (`scanQuoted_renderText`). Words and integers are plain scalars, which a sign of a flow
collection ends (`scanPlain_word`).
-/

namespace TopologyAudit

/-- That a text stays within the basic plane. -/
def Text.IsBasic (t : Text) : Prop := ∀ c ∈ t, c.val ≤ 0xFFFF

instance (t : Text) : Decidable t.IsBasic := inferInstanceAs (Decidable (∀ c ∈ t, c.val ≤ 0xFFFF))

namespace Yaml

open Text (EndsLine)
open Json (Escaped escapeCodePoint renderText unicodeEscape)
open Cursor (onLine)

variable {c : CodePoint} {t rest acc fuel : Text} {size : Nat} {began : Mark}

/-! ## Escapes -/

/-- That a text is read, behind a backslash, as a code point. -/
def IsEscape (c : CodePoint) (e : Text) : Prop :=
  (∀ x ∈ e, x.within 0x20 0x7E = true) ∧
    ∀ {size : Nat} {rest : Text} (began : Mark), EndsLine size (e ++ rest) →
      takeEscape began (onLine size (e ++ rest)) = .ok ([c], onLine size rest)

/-- The letters of JSON's escapes stand for the same code points in YAML. -/
theorem escapeValue?_of_json {e : CodePoint} (h : Json.escapeValue? e = some c) :
    escapeValue? e = some c ∧ e.within 0x20 0x7E = true ∧ isSpace c = false := by
  unfold Json.escapeValue? at h
  split_ifs at h with hself hb hf hn hr ht
  · simp only [Bool.or_eq_true, beq_iff_eq] at hself
    cases h
    rcases hself with (rfl | rfl) | rfl <;> decide
  · cases h
    rw [eq_of_beq hb]
    decide
  · cases h
    rw [eq_of_beq hf]
    decide
  · cases h
    rw [eq_of_beq hn]
    decide
  · cases h
    rw [eq_of_beq hr]
    decide
  · cases h
    rw [eq_of_beq ht]
    decide

theorem isEscape_short {e : CodePoint} (h : Json.escapeValue? e = some c) : IsEscape c [e] := by
  obtain ⟨hvalue, hgraphic, -⟩ := escapeValue?_of_json h
  refine ⟨List.forall_mem_singleton.mpr hgraphic, fun began hline => ?_⟩
  rw [List.singleton_append] at hline ⊢
  rw [takeEscape, Cursor.peek_onLine]
  simp only [hvalue, Cursor.next_onLine hline]
  rfl

/-- The digits of an escape by number. -/
def fourDigits (n : Nat) : Text :=
  [Text.digit (n / 0x1000), Text.digit (n / 0x100 % 16), Text.digit (n / 16 % 16),
    Text.digit (n % 16)]

theorem value_fourDigits {n : Nat} (h : n < 0x10000) : Integer.value 16 (fourDigits n) = n := by
  have hdigit : ∀ {d : Nat}, d < 16 → Integer.digitValue? 16 (Text.digit d) = some d :=
    Integer.digitValue?_digit (Nat.le_refl 16)
  simp only [Integer.value, fourDigits, List.foldl_cons, List.foldl_nil,
    hdigit (show n / 0x1000 < 16 by omega), hdigit (show n / 0x100 % 16 < 16 by omega),
    hdigit (show n / 16 % 16 < 16 by omega), hdigit (show n % 16 < 16 by omega)]
  omega

theorem forall_mem_fourDigits {P : CodePoint → Prop} (h : ∀ {d : Nat}, d < 16 → P (Text.digit d))
    {n : Nat} (hn : n < 0x10000) : ∀ x ∈ fourDigits n, P x := by
  simp only [fourDigits, List.forall_mem_cons]
  exact ⟨h (by omega), h (by omega), h (by omega), h (by omega), nofun⟩

theorem takeNumberedEscape_four (h : c.val < 0x10000)
    (hline : EndsLine size (fourDigits c.val ++ rest)) :
    takeNumberedEscape began 4 (onLine size (fourDigits c.val ++ rest)) =
      .ok (c, onLine size rest) := by
  have hlength : (fourDigits c.val).length = 4 := rfl
  have htake : ((fourDigits c.val ++ rest).take 4).takeWhile CodePoint.isHexDigit =
      fourDigits c.val := by
    have hfour : (fourDigits c.val ++ rest).take 4 = fourDigits c.val := rfl
    rw [hfour]
    refine List.takeWhile_eq_self_iff.mpr (forall_mem_fourDigits (fun hd => ?_) h)
    rw [CodePoint.isHexDigit, Text.hexValue?_digit hd]
    rfl
  have hadvance := Cursor.advance_onLine hline
  rw [hlength] at hadvance
  have hpoint : CodePoint.ofNat? c.val = some c := dif_pos c.val_lt
  unfold takeNumberedEscape
  simp only [Cursor.rest_onLine, htake, hlength, Nat.lt_irrefl, if_false, value_fourDigits h,
    hpoint, hadvance]

theorem isEscape_numbered (h : c.val < 0x10000) :
    IsEscape c (CodePoint.ofChar 'u' :: fourDigits c.val) := by
  have hdigit : ∀ {d : Nat}, d < 16 → (Text.digit d).within 0x20 0x7E = true := by decide
  refine ⟨List.forall_mem_cons.mpr ⟨by decide, forall_mem_fourDigits hdigit h⟩,
    fun began hline => ?_⟩
  rw [List.cons_append] at hline ⊢
  have hvalue : escapeValue? (CodePoint.ofChar 'u') = none := by decide
  have hwidth : escapeWidth? (CodePoint.ofChar 'u') = some 4 := by decide
  rw [takeEscape, Cursor.peek_onLine]
  simp only [hvalue, hwidth, Cursor.next_onLine hline, takeNumberedEscape_four h hline.tail]
  rfl

/-- Within the basic plane a code point of a string stands for itself, or an escape stands for
it. Spaces stand for themselves. -/
theorem escapeCodePoint_basic (h : c.val ≤ 0xFFFF) :
    (escapeCodePoint c = [c] ∧ c.within 0x20 0x7E = true ∧ (c == '"') = false ∧
        (c == '\\') = false) ∨
      ∃ e, escapeCodePoint c = CodePoint.ofChar '\\' :: e ∧ IsEscape c e ∧ isSpace c = false := by
  have hspace : ∀ {e : Text}, escapeCodePoint c = CodePoint.ofChar '\\' :: e →
      isSpace c = false := by
    intro e he
    refine Bool.eq_false_iff.mpr fun hc => ?_
    obtain rfl : c = CodePoint.ofChar ' ' := eq_of_beq hc
    have hself : escapeCodePoint (CodePoint.ofChar ' ') = [CodePoint.ofChar ' '] := by decide
    rw [hself] at he
    cases he
  have hescaped := Json.escaped_escapeCodePoint c
  generalize he : escapeCodePoint c = e at hescaped hspace ⊢
  cases hescaped with
  | literal hrange hquote hslash => exact .inl ⟨rfl, hrange, hquote, hslash⟩
  | short _ _ hvalue => exact .inr ⟨_, rfl, isEscape_short hvalue, hspace rfl⟩
  | numbered hbmp =>
    rw [Json.unicodeEscape_eq hbmp] at hspace ⊢
    exact .inr ⟨_, rfl, isEscape_numbered hbmp, hspace rfl⟩
  | pair hhigh hlow hjoin =>
    have hbeyond := Json.le_val_joinSurrogates hhigh hlow
    rw [hjoin] at hbeyond
    omega

theorem graphic_escapeCodePoint (h : c.val ≤ 0xFFFF) :
    ∀ x ∈ escapeCodePoint c, x.within 0x20 0x7E = true := by
  rcases escapeCodePoint_basic h with ⟨heq, hc, -⟩ | ⟨e, heq, hescape, -⟩
  · rw [heq]
    exact List.forall_mem_singleton.mpr hc
  · rw [heq]
    exact List.forall_mem_cons.mpr ⟨by decide, hescape.1⟩

theorem graphic_renderText (h : t.IsBasic) : ∀ x ∈ renderText t, x.within 0x20 0x7E = true := by
  have hquote : ∀ x ∈ Text.ofString "\"", x.within 0x20 0x7E = true := by decide
  rw [renderText]
  refine List.forall_mem_append.mpr ⟨hquote, List.forall_mem_append.mpr ⟨?_, hquote⟩⟩
  exact List.forall_mem_flatMap.mpr fun c hc => graphic_escapeCodePoint (h c hc)

theorem length_le_length_escapes (t : Text) : t.length ≤ (t.flatMap escapeCodePoint).length := by
  induction t with
  | nil => exact Nat.le_refl 0
  | cons c t ih =>
    have hpos : 0 < (escapeCodePoint c).length := by
      refine List.length_pos_iff.mpr ?_
      have hescaped := Json.escaped_escapeCodePoint c
      generalize escapeCodePoint c = e at hescaped ⊢
      rcases hescaped with _ | _ | h | ⟨hhigh, -⟩
      · exact List.cons_ne_nil _ _
      · exact List.cons_ne_nil _ _
      · rw [Json.unicodeEscape_eq h]
        exact List.cons_ne_nil _ _
      · rw [Json.unicodeEscape_eq
          (Json.val_lt_of_isSurrogate (Json.isSurrogate_of_isHighSurrogate hhigh))]
        exact List.cons_ne_nil _ _
    rw [List.flatMap_cons, List.length_append, List.length_cons]
    omega

/-- There are more steps than code points to take. -/
theorem length_lt_steps (t : Text) (size : Nat) (rest : Text) :
    t.length < (onLine size (t.flatMap escapeCodePoint ++ rest)).steps.length := by
  have hlength := length_le_length_escapes t
  rw [Cursor.steps, Cursor.rest_onLine, List.length_cons, List.length_append]
  omega

/-! ## Between quotes -/

section Run

variable {isDouble : Bool} {f : CodePoint}

theorem takeQuotedRun_plain (h : EndsLine size (c :: rest)) (hc : isQuotedPlain c = true) :
    takeQuotedRun isDouble began (f :: fuel) (onLine size (c :: rest)) acc =
      takeQuotedRun isDouble began (f :: fuel) (onLine size rest) (c :: acc) := by
  rw [takeQuotedRun, takeQuotedRun, Cursor.takeWhile_onLine h, Cursor.takeWhile_onLine h.tail,
    List.takeWhile_cons_of_pos hc, List.dropWhile_cons_of_pos hc]
  simp only [List.reverse_cons, List.append_assoc, List.singleton_append]

/-- What is not plain between quotes ends a run. -/
theorem takeWhile_isQuotedPlain (h : EndsLine size (c :: rest)) (hc : isQuotedPlain c = false) :
    (onLine size (c :: rest)).takeWhile isQuotedPlain = ([], onLine size (c :: rest)) := by
  rw [Cursor.takeWhile_onLine h, List.takeWhile_cons_of_neg (Bool.eq_false_iff.mp hc),
    List.dropWhile_cons_of_neg (Bool.eq_false_iff.mp hc)]

theorem takeQuotedRun_apostrophe (h : EndsLine size (CodePoint.ofChar '\'' :: rest)) :
    takeQuotedRun true began (f :: fuel) (onLine size (CodePoint.ofChar '\'' :: rest)) acc =
      takeQuotedRun true began fuel (onLine size rest) (CodePoint.ofChar '\'' :: acc) := by
  rw [takeQuotedRun, takeWhile_isQuotedPlain h (by decide)]
  simp only [Cursor.peek_onLine, Cursor.next_onLine h, beq_self_eq_true, Bool.not_true,
    Bool.false_and, Bool.true_and, Bool.true_or, Bool.false_eq_true, if_false, if_true,
    List.reverse_nil, List.nil_append]

theorem takeQuotedRun_escape {e : Text} (he : IsEscape c e)
    (h : EndsLine size (CodePoint.ofChar '\\' :: (e ++ rest))) :
    takeQuotedRun true began (f :: fuel) (onLine size (CodePoint.ofChar '\\' :: (e ++ rest))) acc =
      takeQuotedRun true began fuel (onLine size rest) (c :: acc) := by
  have hquote : (CodePoint.ofChar '\\' == CodePoint.ofChar '\'') = false := by decide
  rw [takeQuotedRun, takeWhile_isQuotedPlain h (by decide)]
  simp only [Cursor.peek_onLine, hquote, Cursor.next_onLine h, he.2 began h.tail,
    beq_self_eq_true, Bool.not_true, Bool.false_and, Bool.and_false, Bool.or_false, Bool.and_self,
    Bool.false_eq_true, if_false, if_true, List.reverse_nil, List.nil_append]
  rfl

/-- A run ends at a space and at the closing quote. -/
theorem takeQuotedRun_stop (h : EndsLine size (c :: rest)) (hc : isSpace c = true ∨ c = '"') :
    takeQuotedRun true began (f :: fuel) (onLine size (c :: rest)) acc =
      .ok (acc, onLine size (c :: rest)) := by
  have hplain : isQuotedPlain c = false ∧ (c == CodePoint.ofChar '\'') = false ∧
      (c == CodePoint.ofChar '\\') = false := by
    rcases hc with hc | rfl
    · rw [eq_of_beq hc]
      decide
    · decide
  rw [takeQuotedRun, takeWhile_isQuotedPlain h hplain.1]
  simp only [Cursor.peek_onLine, hplain.2, Bool.and_false, Bool.false_and, Bool.or_false,
    Bool.not_true, Bool.false_eq_true, if_false, List.reverse_nil, List.nil_append]
  rfl

end Run

/-- A code point that stands for itself is plain, a space or an apostrophe. -/
theorem isQuotedPlain_of_literal (hc : c.within 0x20 0x7E = true) (hquote : (c == '"') = false)
    (hslash : (c == '\\') = false) :
    isQuotedPlain c = true ∧ isSpace c = false ∨ isSpace c = true ∨ c = '\'' := by
  by_cases hspace : isSpace c = true
  · exact .inr (.inl hspace)
  · by_cases happ : c = '\''
    · exact .inr (.inr happ)
    · refine .inl ⟨?_, Bool.eq_false_iff.mpr hspace⟩
      rw [isQuotedPlain, hquote, hslash, isBlankOrEnd_of_graphic hc, Bool.eq_false_iff.mpr hspace,
        beq_eq_false_iff_ne.mpr happ]
      rfl

/-- A code point that is no space. -/
def isInk (c : CodePoint) : Bool := !isSpace c

theorem isInk_eq_true : isInk c = true ↔ isSpace c = false := by
  rw [isInk, Bool.not_eq_true']

/-- What is written for the end of a text ends the line. -/
theorem endsLine_escapes_of_append {t' : Text}
    (h : EndsLine size ((t ++ t').flatMap escapeCodePoint ++ rest)) :
    EndsLine size (t'.flatMap escapeCodePoint ++ rest) := by
  rw [List.flatMap_append, List.append_assoc] at h
  exact h.of_append

/-- A run takes the text up to its first space. -/
theorem takeQuotedRun_escapes (h : t.IsBasic) :
    ∀ {fuel acc : Text}, t.length < fuel.length →
      EndsLine size (t.flatMap escapeCodePoint ++ CodePoint.ofChar '"' :: rest) →
      takeQuotedRun true began fuel
          (onLine size (t.flatMap escapeCodePoint ++ CodePoint.ofChar '"' :: rest)) acc =
        .ok ((t.takeWhile isInk).reverse ++ acc,
          onLine size ((t.dropWhile isInk).flatMap escapeCodePoint ++
            CodePoint.ofChar '"' :: rest)) := by
  induction t with
  | nil =>
    intro fuel acc hfuel hline
    obtain ⟨f, fuel, rfl⟩ := List.exists_cons_of_length_pos (Nat.zero_lt_of_lt hfuel)
    exact takeQuotedRun_stop hline (.inr rfl)
  | cons c t ih =>
    intro fuel acc hfuel hline
    obtain ⟨hc, ht⟩ := List.forall_mem_cons.mp h
    obtain ⟨f, fuel, rfl⟩ := List.exists_cons_of_length_pos (Nat.zero_lt_of_lt hfuel)
    rw [List.length_cons, List.length_cons] at hfuel
    rw [List.flatMap_cons, List.append_assoc] at hline ⊢
    -- behind a code point that is no space the run goes on
    have hgo : isSpace c = false → ∀ {fuel : Text}, t.length < fuel.length →
        EndsLine size (t.flatMap escapeCodePoint ++ CodePoint.ofChar '"' :: rest) →
        takeQuotedRun true began fuel
            (onLine size (t.flatMap escapeCodePoint ++ CodePoint.ofChar '"' :: rest)) (c :: acc) =
          .ok (((c :: t).takeWhile isInk).reverse ++ acc,
            onLine size (((c :: t).dropWhile isInk).flatMap escapeCodePoint ++
              CodePoint.ofChar '"' :: rest)) := by
      intro hspace fuel hfuel hline
      have hpass := isInk_eq_true.mpr hspace
      rw [ih ht hfuel hline, List.takeWhile_cons_of_pos hpass, List.dropWhile_cons_of_pos hpass,
        List.reverse_cons, List.append_assoc, List.singleton_append]
    rcases escapeCodePoint_basic hc with ⟨heq, hgraphic, hquote, hslash⟩ | ⟨e, heq, hescape, hspace⟩
    · rw [heq, List.singleton_append] at hline ⊢
      rcases isQuotedPlain_of_literal hgraphic hquote hslash with ⟨hplain, hspace⟩ | hspace | rfl
      · rw [takeQuotedRun_plain hline hplain]
        exact hgo hspace (Nat.lt_of_succ_lt hfuel) hline.tail
      · have hstop : ¬isInk c = true := by simp [isInk, hspace]
        rw [takeQuotedRun_stop hline (.inl hspace), List.takeWhile_cons_of_neg hstop,
          List.dropWhile_cons_of_neg hstop, List.flatMap_cons, heq]
        rfl
      · rw [takeQuotedRun_apostrophe hline]
        exact hgo (by decide) (Nat.lt_of_succ_lt_succ hfuel) hline.tail
    · rw [heq, List.cons_append] at hline ⊢
      rw [takeQuotedRun_escape hescape hline]
      exact hgo hspace (Nat.lt_of_succ_lt_succ hfuel) hline.tail.of_append

/-- The spaces in front of a text are those in front of what is written for it. -/
theorem takeWhile_isBlank_escapes (h : t.IsBasic) (rest : Text) :
    (t.flatMap escapeCodePoint ++ CodePoint.ofChar '"' :: rest).takeWhile isBlank =
        t.takeWhile isSpace ∧
      (t.flatMap escapeCodePoint ++ CodePoint.ofChar '"' :: rest).dropWhile isBlank =
        (t.dropWhile isSpace).flatMap escapeCodePoint ++ CodePoint.ofChar '"' :: rest := by
  induction t with
  | nil => exact ⟨rfl, rfl⟩
  | cons c t ih =>
    obtain ⟨hc, ht⟩ := List.forall_mem_cons.mp h
    rw [List.flatMap_cons, List.append_assoc]
    by_cases hspace : isSpace c = true
    · obtain rfl : c = CodePoint.ofChar ' ' := eq_of_beq hspace
      have hself : escapeCodePoint (CodePoint.ofChar ' ') = [CodePoint.ofChar ' '] := by decide
      have hblank : isBlank (CodePoint.ofChar ' ') = true := by decide
      rw [hself, List.singleton_append, List.takeWhile_cons_of_pos hblank,
        List.dropWhile_cons_of_pos hblank, List.takeWhile_cons_of_pos hspace,
        List.dropWhile_cons_of_pos hspace, (ih ht).1, (ih ht).2]
      exact ⟨rfl, rfl⟩
    · -- whatever is written for another code point does not begin with a blank
      have hbegins : ∃ x e, escapeCodePoint c = x :: e ∧ isBlank x = false := by
        rcases escapeCodePoint_basic hc with ⟨heq, hgraphic, -⟩ | ⟨e, heq, -⟩
        · exact ⟨c, [], heq, by rw [isBlank_of_graphic hgraphic, Bool.eq_false_iff.mpr hspace]⟩
        · exact ⟨_, e, heq, by decide⟩
      obtain ⟨x, e, heq, hx⟩ := hbegins
      rw [List.takeWhile_cons_of_neg hspace, List.dropWhile_cons_of_neg hspace, List.flatMap_cons,
        heq, List.cons_append, List.takeWhile_cons_of_neg (Bool.eq_false_iff.mp hx),
        List.dropWhile_cons_of_neg (Bool.eq_false_iff.mp hx), List.append_assoc]
      exact ⟨rfl, rfl⟩

theorem takeQuotedSpace_escapes (h : t.IsBasic)
    (hline : EndsLine size (t.flatMap escapeCodePoint ++ CodePoint.ofChar '"' :: rest)) :
    takeQuotedSpace began
        (onLine size (t.flatMap escapeCodePoint ++ CodePoint.ofChar '"' :: rest)) =
      .ok (t.takeWhile isSpace,
        onLine size ((t.dropWhile isSpace).flatMap escapeCodePoint ++
          CodePoint.ofChar '"' :: rest)) := by
  obtain ⟨htake, hdrop⟩ := takeWhile_isBlank_escapes h rest
  rw [takeQuotedSpace, Cursor.takeWhile_onLine hline, htake, hdrop]
  -- what stands behind the spaces is on the line, and there is at least the closing quote
  have hafter : EndsLine size
      ((t.dropWhile isSpace).flatMap escapeCodePoint ++ CodePoint.ofChar '"' :: rest) := by
    refine @endsLine_escapes_of_append (t.takeWhile isSpace) _ _ _ ?_
    rwa [List.takeWhile_append_dropWhile]
  obtain ⟨x, after, heq⟩ := List.exists_cons_of_ne_nil
    (@Json.escapes_ne_nil rest (t.dropWhile isSpace))
  rw [heq] at hafter ⊢
  simp only [Cursor.peek_onLine, isEnd_of_graphic hafter.head, isBreak_of_graphic hafter.head,
    Bool.false_eq_true, if_false]
  rfl

/-- The spaces in front of a text and the code points up to the next space. -/
def spacedWord (t : Text) : Text := t.takeWhile isSpace ++ (t.dropWhile isSpace).takeWhile isInk

/-- What stands behind the spaced word. -/
def behindWord (t : Text) : Text := (t.dropWhile isSpace).dropWhile isInk

theorem spacedWord_append_behindWord (t : Text) : spacedWord t ++ behindWord t = t := by
  rw [spacedWord, behindWord, List.append_assoc, List.takeWhile_append_dropWhile,
    List.takeWhile_append_dropWhile]

theorem behindWord_suffix (t : Text) : behindWord t <:+ t :=
  (List.dropWhile_suffix _).trans (List.dropWhile_suffix _)

/-- A space goes into the word. -/
theorem length_behindWord_le (hc : isSpace c = true) :
    (behindWord (c :: t)).length ≤ t.length := by
  rw [behindWord, List.dropWhile_cons_of_pos hc]
  exact (behindWord_suffix t).length_le

/-- A run ends at a space. -/
theorem isSpace_of_mem_head?_dropWhile (t : Text) :
    ∀ c ∈ (t.dropWhile isInk).head?, isSpace c = true := by
  intro c hc
  have hnot := List.head?_dropWhile_not isInk t
  rw [hc] at hnot
  simpa [isInk] using hnot

theorem takeQuotedFrom_quote {f : CodePoint} (h : EndsLine size (CodePoint.ofChar '"' :: rest)) :
    takeQuotedFrom true '"' began (f :: fuel) (onLine size (CodePoint.ofChar '"' :: rest)) acc =
      .ok (acc.reverse, onLine size rest) := by
  rw [takeQuotedFrom, Cursor.peek_onLine, beq_self_eq_true, if_pos rfl, Cursor.next_onLine h]

/-- Where a space stands, a spaced word is taken. -/
theorem takeQuotedFrom_space {f : CodePoint} (h : Text.IsBasic (c :: t)) (hc : isSpace c = true)
    (hline : EndsLine size ((c :: t).flatMap escapeCodePoint ++ CodePoint.ofChar '"' :: rest)) :
    takeQuotedFrom true '"' began (f :: fuel)
        (onLine size ((c :: t).flatMap escapeCodePoint ++ CodePoint.ofChar '"' :: rest)) acc =
      takeQuotedFrom true '"' began fuel
        (onLine size ((behindWord (c :: t)).flatMap escapeCodePoint ++
          CodePoint.ofChar '"' :: rest))
        ((spacedWord (c :: t)).reverse ++ acc) := by
  have hpeek : ((onLine size ((c :: t).flatMap escapeCodePoint ++
      CodePoint.ofChar '"' :: rest)).peek == CodePoint.ofChar '"') = false := by
    obtain rfl : c = CodePoint.ofChar ' ' := eq_of_beq hc
    have hself : escapeCodePoint (CodePoint.ofChar ' ') = [CodePoint.ofChar ' '] := by decide
    rw [List.flatMap_cons, hself]
    rfl
  rw [takeQuotedFrom, hpeek, if_neg Bool.false_ne_true, takeQuotedSpace_escapes h hline,
    spacedWord, behindWord, List.reverse_append, List.append_assoc]
  have hsplit : (c :: t).takeWhile isSpace ++ (c :: t).dropWhile isSpace = c :: t :=
    List.takeWhile_append_dropWhile
  generalize (c :: t).takeWhile isSpace = spaces at hsplit ⊢
  generalize (c :: t).dropWhile isSpace = after at hsplit ⊢
  have hbasic : Text.IsBasic after := fun c hc => h c (hsplit ▸ List.mem_append_right _ hc)
  have hafter : EndsLine size (after.flatMap escapeCodePoint ++ CodePoint.ofChar '"' :: rest) :=
    endsLine_escapes_of_append (hsplit ▸ hline)
  simp only [Outcome.ok_bind, takeQuotedRun_escapes hbasic (length_lt_steps after size _) hafter]

/-- Spaced words make up a text. -/
theorem takeQuotedFrom_escapes (n : Nat) :
    ∀ {t fuel acc : Text}, t.length ≤ n → t.IsBasic → (∀ c ∈ t.head?, isSpace c = true) →
      t.length < fuel.length →
      EndsLine size (t.flatMap escapeCodePoint ++ CodePoint.ofChar '"' :: rest) →
      takeQuotedFrom true '"' began fuel
          (onLine size (t.flatMap escapeCodePoint ++ CodePoint.ofChar '"' :: rest)) acc =
        .ok (acc.reverse ++ t, onLine size rest) := by
  induction n with
  | zero =>
    intro t fuel acc hn _ _ hfuel hline
    obtain rfl := List.length_eq_zero_iff.mp (Nat.le_zero.mp hn)
    obtain ⟨f, fuel, rfl⟩ := List.exists_cons_of_length_pos (Nat.zero_lt_of_lt hfuel)
    rw [List.append_nil]
    exact takeQuotedFrom_quote hline
  | succ n ih =>
    intro t fuel acc hn h hhead hfuel hline
    cases t with
    | nil => exact ih (Nat.zero_le n) h hhead hfuel hline
    | cons c t =>
      obtain ⟨f, fuel, rfl⟩ := List.exists_cons_of_length_pos (Nat.zero_lt_of_lt hfuel)
      have hc := hhead c rfl
      have hsplit := spacedWord_append_behindWord (c :: t)
      have hshorter := length_behindWord_le (t := t) hc
      rw [List.length_cons] at hn hfuel
      rw [List.length_cons] at hfuel
      rw [takeQuotedFrom_space h hc hline,
        ih (by omega) (fun x hx => h x ((behindWord_suffix _).subset hx))
          (isSpace_of_mem_head?_dropWhile _) (by omega)
          (endsLine_escapes_of_append (hsplit.symm ▸ hline)),
        List.reverse_append, List.reverse_reverse, List.append_assoc, hsplit]

/-- **A string of JSON is read as its text** between double quotes. -/
theorem scanQuoted_renderText (h : t.IsBasic) (hline : EndsLine size (renderText t ++ rest)) :
    scanQuoted true (onLine size (renderText t ++ rest)) =
      .ok (.scalar t .marked, onLine size rest) := by
  have hrender : renderText t ++ rest =
      CodePoint.ofChar '"' :: (t.flatMap escapeCodePoint ++ CodePoint.ofChar '"' :: rest) := by
    rw [renderText, List.append_assoc, List.append_assoc]
    rfl
  rw [hrender] at hline ⊢
  have hfuel : t.length < (onLine size (CodePoint.ofChar '"' ::
      (t.flatMap escapeCodePoint ++ CodePoint.ofChar '"' :: rest))).steps.length :=
    Nat.lt_succ_of_lt (length_lt_steps t size _)
  have hsplit : t.takeWhile isInk ++ t.dropWhile isInk = t := List.takeWhile_append_dropWhile
  have hhead := isSpace_of_mem_head?_dropWhile t
  rw [scanQuoted]
  simp only [if_true, Cursor.next_onLine hline, Outcome.ok_bind,
    takeQuotedRun_escapes h hfuel hline.tail, List.append_nil]
  generalize t.takeWhile isInk = run at hsplit ⊢
  generalize t.dropWhile isInk = left at hsplit hhead ⊢
  have hleft : EndsLine size (left.flatMap escapeCodePoint ++ CodePoint.ofChar '"' :: rest) :=
    endsLine_escapes_of_append (hsplit ▸ hline.tail)
  have hbasic : Text.IsBasic left := fun c hc => h c (hsplit ▸ List.mem_append_right _ hc)
  rw [takeQuotedFrom_escapes left.length (Nat.le_refl _) hbasic hhead
    (length_lt_steps left size _) hleft, List.reverse_reverse, hsplit]
  rfl

/-! ## Plain -/

/-- Where a word of letters, digits, dashes and low lines stands among the code points. -/
theorem val_of_isWord (h : isWord c = true) :
    c.val = 0x2D ∨ (0x30 ≤ c.val ∧ c.val ≤ 0x39) ∨ (0x41 ≤ c.val ∧ c.val ≤ 0x5A) ∨ c.val = 0x5F ∨
      (0x61 ≤ c.val ∧ c.val ≤ 0x7A) := by
  simp only [isWord, CodePoint.isDigit, CodePoint.isLetter, CodePoint.within, Bool.or_eq_true,
    Bool.and_eq_true, decide_eq_true_eq, beq_iff_eq] at h
  rcases h with ((h | h | h) | rfl) | rfl
  · exact .inr (.inl h)
  · exact .inr (.inr (.inl h))
  · exact .inr (.inr (.inr (.inr h)))
  · exact .inl rfl
  · exact .inr (.inr (.inr (.inl rfl)))

theorem graphic_of_isWord (h : isWord c = true) : c.within 0x20 0x7E = true := by
  have hval := val_of_isWord h
  rw [CodePoint.within, Bool.and_eq_true, decide_eq_true_eq, decide_eq_true_eq]
  omega

/-- What has a property is none of the characters that have it not. -/
theorem has_eq_false {p : CodePoint → Bool} {chars : String} (h : p c = true)
    (hchars : ∀ d ∈ Text.ofString chars, p d = false) : Text.has chars c = false := by
  refine Bool.eq_false_iff.mpr fun hmem => ?_
  have hnot := hchars c (List.contains_iff_mem.mp hmem)
  exact absurd h (Bool.eq_false_iff.mp hnot)

theorem beq_of_isWord (h : isWord c = true) {d : CodePoint} (hd : isWord d = false) :
    (c == d) = false := by
  refine beq_eq_false_iff_ne.mpr ?_
  rintro rfl
  exact absurd h (Bool.eq_false_iff.mp hd)

/-- That a text is a word: letters, digits, low lines and dashes, where a dash in front goes
before a digit. -/
structure IsPlainWord (t : Text) : Prop where
  isWord : ∀ c ∈ t, isWord c = true
  start : (∃ c rest, t = c :: rest ∧ (c == '-') = false) ∨
    ∃ d rest, t = CodePoint.ofChar '-' :: d :: rest ∧ d.isDigit = true

theorem IsPlainWord.ne_nil (h : IsPlainWord t) : t ≠ [] := by
  rcases h.start with ⟨c, rest, rfl, -⟩ | ⟨d, rest, rfl, -⟩
  · exact List.cons_ne_nil _ _
  · exact List.cons_ne_nil _ _

theorem isSpace_of_isFlowSign (h : isFlowSign c = true) : isSpace c = false := by
  refine Bool.eq_false_iff.mpr fun hspace => ?_
  obtain rfl : c = CodePoint.ofChar ' ' := eq_of_beq hspace
  exact absurd h (by decide)

/-- A run of letters, digits and dashes goes up to the sign of a flow collection. -/
theorem plainRun_word {word : Text} (h : ∀ c ∈ word, isWord c = true) (hc : isFlowSign c = true) :
    plainRun true (word ++ c :: rest) = word := by
  induction word with
  | nil =>
    rw [List.nil_append, plainRun, hc]
    simp
  | cons w word ih =>
    obtain ⟨hw, hword⟩ := List.forall_mem_cons.mp h
    have hblank : isBlankOrEnd w = false := by
      rw [isBlankOrEnd_of_graphic (graphic_of_isWord hw)]
      exact beq_of_isWord hw (by decide)
    rw [List.cons_append, plainRun, ih hword, hblank, beq_of_isWord hw (by decide),
      isFlowSign, has_eq_false hw (by decide), beq_of_isWord hw (by decide)]
    simp

/-- No space is taken where none stands. -/
theorem takePlainSpace_none (h : EndsLine size (c :: rest)) (hc : isSpace c = false) :
    takePlainSpace (onLine size (c :: rest)) = ([], false, onLine size (c :: rest)) := by
  rw [takePlainSpace, Cursor.takeWhile_onLine h,
    List.takeWhile_cons_of_neg (Bool.eq_false_iff.mp hc),
    List.dropWhile_cons_of_neg (Bool.eq_false_iff.mp hc)]
  simp only [Cursor.peek_onLine, isBreak_of_graphic h.head, Bool.false_eq_true, if_false]

/-- **A word is read as a plain scalar**, up to the sign of a flow collection. -/
theorem scanPlain_word {word : Text} {indent : Int} (h : IsPlainWord word)
    (hc : isFlowSign c = true) (hline : EndsLine size (word ++ c :: rest)) :
    scanPlain true indent (onLine size (word ++ c :: rest)) =
      ⟨word.reverse, (onLine size (c :: rest)).mark, false, onLine size (c :: rest)⟩ := by
  have hhash : ((onLine size (word ++ c :: rest)).peek == CodePoint.ofChar '#') = false := by
    obtain ⟨w, word, rfl⟩ := List.exists_cons_of_ne_nil h.ne_nil
    exact beq_of_isWord (h.isWord w (List.mem_cons_self ..)) (by decide)
  have hempty : word.isEmpty = false := by
    rw [List.isEmpty_eq_false_iff]
    exact h.ne_nil
  have hspace := takePlainSpace_none hline.of_append (isSpace_of_isFlowSign hc)
  rw [scanPlain, Cursor.steps, takePlainFrom, hhash]
  simp only [Bool.false_eq_true, if_false, Cursor.rest_onLine, plainRun_word h.isWord hc, hempty,
    Cursor.advance_onLine hline, hspace, List.isEmpty_nil, Bool.true_or, if_true, List.reverse_nil,
    List.append_nil]

end Yaml

end TopologyAudit
