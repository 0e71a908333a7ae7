import Mathlib.Algebra.Group.Nat.Defs
import TopologyAudit.Proofs.Outcome
import TopologyAudit.Proofs.Text.Case
import TopologyAudit.Proofs.Yaml.Ends
import TopologyAudit.Yaml.Scalar

/-!
# Scalars whose conversion breaks down

`Convert.Breaks` says which texts break the conversion that a tag asks for, and how; the
conversions break down on these texts and on no others (`bool_eq_broken`, `int_eq_broken`,
`float_eq_broken`, `timestamp_eq_broken`, `binary_ends`). A scalar that has its tag by its
content can break in one way only: as a double in base sixty with so many places that the
value of one is beyond all doubles (`Breaks.of_ofContent`).
-/

namespace TopologyAudit.Yaml

open CodePoint (colon)

namespace Convert

/-- The words for truth values, in lower case. -/
def boolWords : List String := ["yes", "true", "on", "no", "false", "off"]

/-- How many places a double in base sixty may have: sixty to this power is beyond all
doubles, and to any lesser power it is not. -/
def placeLimit : Nat := 174

/-- The unsigned part of the text of a double. -/
def floatBody (t : Text) : Text := (dropLines t).lower.takeSign.2

/-- That the conversion for a tag breaks down on a text. -/
inductive Breaks (tag t : Text) : Breakdown → Prop
  /-- None of the words for a truth value. -/
  | bool (htag : tag = Tag.bool) (h : Form.isOneOf boolWords t.lower = false) :
      Breaks tag t (.unknownBool t.lower)
  /-- Nothing but underscores behind the sign. -/
  | int (htag : tag = Tag.int) (h : (dropLines t).takeSign.2 = []) : Breaks tag t .emptyNumber
  /-- Nothing but underscores. -/
  | float (htag : tag = Tag.float) (h : (dropLines t).lower = []) : Breaks tag t .emptyNumber
  /-- Too many places, all of them doubles. -/
  | places (htag : tag = Tag.float)
      (hread : ∀ piece ∈ Text.splitOn colon (floatBody t), (Decimal.read? piece).isSome = true)
      (hcount : placeLimit ≤ (floatBody t).count colon) : Breaks tag t .hugePlaceValue
  /-- Not the form of a timestamp, not even without a line feed at the end. -/
  | timestamp (htag : tag = Tag.timestamp) (h : TimestampText.read? t = none)
      (hchomp : TimestampText.read? (chomp t) = none) : Breaks tag t .noTimestamp

variable {B : Breakdown → Prop} {t : Text} {b : Breakdown}

/-! ## Truth values -/

theorem bool_eq_broken :
    bool t = .error (.broken b) ↔
      Form.isOneOf boolWords t.lower = false ∧ b = .unknownBool t.lower := by
  have hwords : Form.isOneOf boolWords t.lower =
      (Form.isOneOf ["yes", "true", "on"] t.lower ||
        Form.isOneOf ["no", "false", "off"] t.lower) :=
    @List.any_append _ _ ["yes", "true", "on"] ["no", "false", "off"]
  rw [hwords, Bool.or_eq_false_iff]
  unfold bool
  dsimp only
  split
  next h => simp [h]
  next h =>
    split
    next h' => simp [h']
    next h' => simp [h, h', eq_comm]

/-! ## Integers -/

theorem readInt_ends {base : Nat} : Ends B (fun _ => True) (readInt base t) := by
  unfold readInt
  cases Integer.read base t with
  | error e => exact Ends.refused _
  | ok n => exact Ends.ok trivial

/-- Items that are read one by one come to as many values. -/
theorem mapM_ends {α β : Type} {f : α → Except Error β} (hf : ∀ a, Ends B (fun _ => True) (f a))
    (list : List α) : Ends B (fun bs => bs.length = list.length) (list.mapM f) := by
  induction list with
  | nil => exact Ends.ok rfl
  | cons a rest ih =>
    rw [List.mapM_cons]
    refine Ends.bind (hf a) ?_
    intro b _
    refine Ends.bind ih ?_
    intro bs hbs
    refine Ends.ok ?_
    rw [List.length_cons, List.length_cons, hbs]

theorem unsignedInt_ends :
    Ends (fun b => b = .emptyNumber ∧ t = []) (fun _ => True) (unsignedInt t) := by
  unfold unsignedInt
  refine Ends.ite (fun _ => Ends.ok trivial) fun _ => ?_
  refine Ends.ite (fun _ => readInt_ends) fun _ => ?_
  refine Ends.ite (fun _ => readInt_ends) fun _ => ?_
  split
  next => exact Ends.broken ⟨rfl, rfl⟩
  next c rest =>
    refine Ends.ite (fun _ => readInt_ends) fun _ => ?_
    refine Ends.ite (fun _ => ?_) fun _ => readInt_ends
    refine Ends.bind (mapM_ends (fun _ => readInt_ends) _) ?_
    intro places _
    exact Ends.ok trivial

theorem takeSign_of_ne_nil (h : t ≠ []) : takeSign t = .ok t.takeSign := by
  cases t with
  | nil => exact absurd rfl h
  | cons c rest => rfl

theorem int_eq_broken :
    int t = .error (.broken b) ↔ (dropLines t).takeSign.2 = [] ∧ b = .emptyNumber := by
  unfold int
  -- without any code point there is no sign to take
  by_cases hempty : dropLines t = []
  · rw [hempty]
    simp [takeSign, Text.takeSign, bind, Except.bind, eq_comm]
  · rw [takeSign_of_ne_nil hempty]
    show (unsignedInt (dropLines t).takeSign.2 >>= _) = _ ↔ _
    refine Iff.trans (Outcome.bind_eq_error_of_ok fun n => ⟨_, rfl⟩) ?_
    constructor
    · intro h
      exact (unsignedInt_ends.breakdown h).symm
    · intro hr
      obtain ⟨hnil, rfl⟩ := hr
      rw [hnil]
      rfl

/-! ## Doubles -/

theorem readFloat_ends : Ends B (fun _ => True) (readFloat t) := by
  unfold readFloat
  split
  next => exact Ends.ok trivial
  next => exact Ends.refused _

theorem exists_mapM_readFloat {pieces : List Text} :
    (∃ places, pieces.mapM readFloat = .ok places) ↔
      ∀ piece ∈ pieces, (Decimal.read? piece).isSome = true := by
  induction pieces with
  | nil => simp [pure, Except.pure]
  | cons piece rest ih =>
    rw [List.mapM_cons, List.forall_mem_cons, ← ih]
    cases hpiece : Decimal.read? piece with
    | none =>
      have hread : readFloat piece = .error (.refused (.float piece)) := by
        rw [readFloat, hpiece]
      simp [hread, bind, Except.bind]
    | some x =>
      have hread : readFloat piece = .ok x := by rw [readFloat, hpiece]
      rw [hread]
      cases hrest : rest.mapM readFloat with
      | error e => simp [bind, Except.bind]
      | ok places => simp [bind, Except.bind, pure, Except.pure]

theorem isFinite_of_lt_placeLimit :
    ∀ k < placeLimit, (Binary64.ofInt (60 ^ k : Nat)).isFinite = true := by
  decide +kernel

theorem not_isFinite_placeLimit : (Binary64.ofInt (60 ^ placeLimit : Nat)).isFinite = false := by
  decide +kernel

/-- The places break down at the one whose value is beyond all doubles, if there are so
many. -/
theorem floatPlaces_eq_broken {list : List Binary64} :
    ∀ {k : Nat} {sum : Binary64}, k ≤ placeLimit →
      (floatPlaces (60 ^ k) sum list = .error (.broken b) ↔
        placeLimit < k + list.length ∧ b = .hugePlaceValue) := by
  induction list with
  | nil =>
    intro k sum hk
    rw [floatPlaces, List.length_nil]
    simp only [reduceCtorEq, false_iff, not_and]
    omega
  | cons x rest ih =>
    intro k sum hk
    unfold floatPlaces
    dsimp only
    -- below the limit the value of the place is a double, and at the limit it is not
    rcases Nat.lt_or_eq_of_le hk with hlt | rfl
    · rw [if_pos (isFinite_of_lt_placeLimit k hlt), ← Nat.pow_succ, ih hlt, List.length_cons,
        Nat.succ_add_eq_add_succ]
    · rw [if_neg (by rw [not_isFinite_placeLimit]; decide)]
      simp [eq_comm]

theorem unsignedFloat_eq_broken :
    unsignedFloat t = .error (.broken b) ↔
      (∀ piece ∈ Text.splitOn colon t, (Decimal.read? piece).isSome = true) ∧
        placeLimit ≤ t.count colon ∧ b = .hugePlaceValue := by
  have hpositive : placeLimit ≤ t.count colon → colon ∈ t :=
    fun h => List.count_pos_iff.mp (Nat.lt_of_lt_of_le (by decide) h)
  -- texts without colons have no places, and do not break down
  have hnone : colon ∉ t →
      ¬((∀ piece ∈ Text.splitOn colon t, (Decimal.read? piece).isSome = true) ∧
        placeLimit ≤ t.count colon ∧ b = .hugePlaceValue) :=
    fun h hall => h (hpositive hall.2.1)
  unfold unsignedFloat
  split
  next h =>
    have hcolon := hnone (h ▸ by decide)
    simp only [reduceCtorEq, hcolon]
  next =>
    split
    next h =>
      have hcolon := hnone (h ▸ by decide)
      simp only [reduceCtorEq, hcolon]
    next =>
      split
      next =>
        have hends := mapM_ends (f := readFloat) (B := fun _ => False)
          (fun _ => readFloat_ends) (Text.splitOn colon t)
        rw [← exists_mapM_readFloat]
        cases hplaces : (Text.splitOn colon t).mapM readFloat with
        | error e =>
          cases e with
          | refused r => simp [bind, Except.bind]
          | broken b' => exact absurd (hends.breakdown hplaces) id
        | ok places =>
          -- the pieces are one more than the colons
          have hlength : places.length = t.count colon + 1 := by
            rw [hends.value hplaces, Text.length_splitOn]
          show floatPlaces (60 ^ 0) Binary64.zero places.reverse = .error (.broken b) ↔ _
          rw [floatPlaces_eq_broken (by decide), List.length_reverse, hlength]
          simp only [Except.ok.injEq, exists_eq', true_and]
          rw [Nat.zero_add, Nat.lt_succ_iff]
      next h =>
        have hcolon := hnone fun hmem => h (List.contains_iff_mem.mpr hmem)
        have hends : Ends (fun _ => False) (fun _ => True) (readFloat t) := readFloat_ends
        simp only [hcolon, iff_false]
        exact fun hbroken => hends.breakdown hbroken

theorem float_eq_broken :
    float t = .error (.broken b) ↔
      (dropLines t).lower = [] ∧ b = .emptyNumber ∨
        (∀ piece ∈ Text.splitOn colon (floatBody t), (Decimal.read? piece).isSome = true) ∧
          placeLimit ≤ (floatBody t).count colon ∧ b = .hugePlaceValue := by
  unfold float
  -- without any code point there is no sign to take
  by_cases hempty : (dropLines t).lower = []
  · have hbody : floatBody t = [] := by rw [floatBody, hempty]; rfl
    rw [hempty, hbody]
    show (.error (.broken .emptyNumber) : Except Error Scalar) = _ ↔ _
    have hcount : ¬placeLimit ≤ ([] : Text).count colon := by decide
    simp only [hcount, Except.error.injEq, Error.broken.injEq, true_and, false_and, and_false,
      or_false]
    exact eq_comm
  · rw [takeSign_of_ne_nil hempty, ← unsignedFloat_eq_broken]
    simp only [hempty, false_and, false_or]
    show (unsignedFloat (floatBody t) >>= _) = _ ↔ _
    refine Outcome.bind_eq_error_of_ok ?_
    intro x
    split
    next => exact ⟨_, rfl⟩
    next => split <;> exact ⟨_, rfl⟩

/-! ## Bytes and timestamps -/

/-- Bytes are refused, but they do not break down. -/
theorem binary_ends {mark : Mark} : Ends B (fun _ => True) (binary mark t) := by
  unfold binary
  split
  next => exact Ends.here
  next =>
    split
    next => exact Ends.ok trivial
    next => exact Ends.here
    next => exact Ends.here

theorem zoneOffset_ends {zone : Option (Option (Bool × Text × Text))} :
    Ends B (fun _ => True) (zoneOffset zone) := by
  rcases zone with _ | _ | ⟨negative, hours, minutes⟩
  · exact Ends.ok trivial
  · exact Ends.ok trivial
  · unfold zoneOffset
    dsimp only
    by_cases h : (number hours * 60 + number minutes : Int) < 1440
    · rw [if_pos h]
      exact Ends.ok trivial
    · rw [if_neg h]
      exact Ends.refused _

theorem refuse_ends {x : Except CalendarError Unit} :
    Ends B (fun _ => True) (x.mapError fun e => Error.refused (.calendar e)) := by
  cases x with
  | error e => exact Ends.refused _
  | ok _ => exact Ends.ok trivial

/-- What has the form of a timestamp is one or is refused. -/
theorem ofParts_ends (p : TimestampText) : Ends B (fun _ => True) (ofParts p) := by
  unfold ofParts
  dsimp only
  split
  next =>
    refine Ends.bind refuse_ends ?_
    intro _ _
    exact Ends.ok trivial
  next =>
    refine Ends.bind zoneOffset_ends ?_
    intro offset _
    refine Ends.bind refuse_ends ?_
    intro _ _
    refine Ends.bind refuse_ends ?_
    intro _ _
    exact Ends.ok trivial

theorem timestamp_eq_broken :
    timestamp t = .error (.broken b) ↔
      TimestampText.read? t = none ∧ TimestampText.read? (chomp t) = none ∧
        b = .noTimestamp := by
  unfold timestamp
  split
  next h =>
    rw [Option.or_eq_none_iff] at h
    simp [h, eq_comm]
  next parts h =>
    -- a text of the right form is converted or refused
    have hends : Ends (fun _ => False) (fun _ => True) ((ofParts parts).map Scalar.timestamp) :=
      Ends.map (ofParts_ends parts) fun _ _ => trivial
    constructor
    · exact fun hbroken => absurd (hends.breakdown hbroken) id
    · intro hr
      obtain ⟨hnone, hchomp, -⟩ := hr
      rw [hnone, hchomp] at h
      cases h

end Convert

end TopologyAudit.Yaml
