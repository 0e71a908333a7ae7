import Mathlib.Data.List.Forall2
import TopologyAudit.Proofs.Topology.Declaration

/-!
# Checks that meet their declaration

The result of a check *fits* what is declared of a value (`Fits`) when it is a value that the
declaration reads, or issues that show each offending place once and in order. Results that
are put together fit what is put together of the declarations, one lemma a combination. A
check meets a kind (`Meets`) when its results fit on every tree: the checks of plain values by
a look at each case, the check of configs as a combination of those.
-/

namespace TopologyAudit

namespace Checked

variable {α β : Type}

theorem issues_map (f : α → β) (x : Checked α) : (x.map f).issues = x.issues := by
  cases x <;> rfl

theorem issues_under (step : Step) (x : Checked α) :
    (x.under step).issues = x.issues.map (Issue.under step) := by
  cases x <;> rfl

/-- Two checks together have the issues of both. -/
theorem issues_both (x : Checked α) (y : Checked β) : (x.both y).issues = x.issues ++ y.issues := by
  cases x <;> cases y <;> simp [both, issues]

/-- Issues one step further down. -/
theorem mem_issues_under {step : Step} {x : Checked α} {i : Issue} :
    i ∈ (x.under step).issues ↔ ∃ q, i.path = step :: q ∧ ⟨q, i.mismatch⟩ ∈ x.issues := by
  rw [issues_under, List.mem_map]
  constructor
  · intro hr
    obtain ⟨j, hj, rfl⟩ := hr
    exact ⟨j.path, rfl, hj⟩
  · intro hr
    obtain ⟨q, hq, hi⟩ := hr
    refine ⟨_, hi, ?_⟩
    rw [Issue.under, ← hq]

end Checked

/-- The words of the model are written in small letters and underscores. -/
theorem Word.within_of_mem_name {w : Word} : ∀ c ∈ w.name, c.within 0x5F 0x7A = true := by
  cases w with
  | kind k => cases k <;> decide
  | protocol p => cases p <;> decide
  | format f => cases f <;> decide
  | severity s => cases s <;> decide
  | impact i => cases i <;> decide

namespace Schema

/-! ## Conforming trees offend nowhere -/

/-- What is read is not rejected. -/
theorem Reads.not_rejects {k : Kind} {t : Tree} {v : Value} {m : Mismatch} (h : Reads k t v) :
    ¬Rejects k t m := by
  intro hm
  cases hm with
  | text hno => cases h; exact hno _ rfl
  | truth hno => cases h; exact hno _ rfl
  | integer hno => cases h; exact hno _ rfl
  | negative hn =>
    cases h with
    | natural hn' => omega
  | number hint hfloat =>
    cases h with
    | integer => exact hint _ rfl
    | double => exact hfloat _ rfl
  | tooLarge hn =>
    cases h with
    | integer hn' => exact absurd hn' (by rw [hn]; simp)
  | @unicode _ t hc =>
    -- no word of the model holds a surrogate
    cases h with
    | @word _ w =>
      obtain ⟨c, hc, hs⟩ := hc
      have hsmall := Word.within_of_mem_name c hc
      simp only [CodePoint.isSurrogate, CodePoint.within, Bool.and_eq_true,
        decide_eq_true_eq] at hs hsmall
      omega
  | unknown _ hno =>
    cases h with
    | word hw => exact hno _ hw rfl
  | word hno => cases h; exact hno _ rfl
  | listOf hno =>
    cases h with
    | listOf hitems =>
      rw [hno] at hitems
      cases hitems
  | part hno => cases h; exact hno _ rfl

theorem Reads.not_offends_plain {k : Kind} {t : Tree} {v : Value} (h : Reads k t v)
    (hk : k.IsPlain) : ∀ p m, ¬Offends k t p m :=
  fun _ _ hoffends => h.not_rejects ((offends_plain hk).mp hoffends).2

/-- Each member of a list has a partner in another one of its length. -/
theorem exists_mem_zip {α β : Type} {a : α} :
    ∀ {as : List α} {bs : List β}, as.length = bs.length → a ∈ as → ∃ b, (a, b) ∈ as.zip bs := by
  intro as bs hlength ha
  obtain ⟨n, hn, rfl⟩ := List.mem_iff_getElem.mp ha
  have hn' : n < bs.length := hlength ▸ hn
  refine ⟨bs[n], List.mem_iff_getElem.mpr ⟨n, ?_, List.getElem_zip⟩⟩
  rw [List.length_zip]
  omega

/-- What is read offends nowhere. -/
theorem Reads.not_offends {k : Kind} {t : Tree} {v : Value} (h : Reads k t v) :
    ∀ p m, ¬Offends k t p m := by
  induction h with
  | text t => exact (Reads.text t).not_offends_plain trivial
  | truth b => exact (Reads.truth b).not_offends_plain trivial
  | natural hn => exact (Reads.natural hn).not_offends_plain trivial
  | integer hn => exact (Reads.integer hn).not_offends_plain trivial
  | double x => exact (Reads.double x).not_offends_plain trivial
  | word hw => exact (Reads.word hw).not_offends_plain trivial
  | null => exact fun p m h => (offends_nullable.mp h).1 rfl
  | value _ _ ih => exact fun p m h => ih p m (offends_nullable.mp h).2
  | listOf hitems hlength _ ih =>
    intro p m h
    rcases offends_listOf.mp h with ⟨hnone, -⟩ | ⟨ts, position, u, q, hitems', hu, -, h⟩
    · rw [hitems] at hnone
      cases hnone
    · obtain rfl := Option.some.inj (hitems.symm.trans hitems')
      obtain ⟨v, hv⟩ := exists_mem_zip hlength (List.mem_of_getElem? hu)
      exact ih u v hv q m h
  | part hlength _ habsent ih =>
    intro p m h
    rcases offends_part.mp h with ⟨hno, -⟩ | ⟨entries, heq, f, hf, h⟩
    · exact hno _ rfl
    · cases heq
      obtain ⟨v, hv⟩ := exists_mem_zip hlength hf
      cases h with
      | value hfound h => exact ih f v hv _ _ hfound _ _ h
      | missing hrequired hnone =>
        rw [habsent f v hv hnone] at hrequired
        cases hrequired

/-! ## Results that fit -/

/-- That the result of a check is right about a value: what it accepts is read so, and it has
an issue for each offending place, in order. -/
structure Fits {α : Type} (x : Checked α) (reads : α → Prop)
    (offends : List Step → Mismatch → Prop) : Prop where
  reads : ∀ {a}, x = .ok a → reads a
  /-- A failure has an issue to show. -/
  succeeds : x.issues = [] → ∃ a, x = .ok a
  mem_issues : ∀ i, i ∈ x.issues ↔ offends i.path i.mismatch
  ordered : x.issues.Pairwise IssueBefore

section Results

variable {α β : Type} {x : Checked α} {y : Checked β} {r : α → Prop} {s : β → Prop}
  {o o' : List Step → Mismatch → Prop}

/-- A value fits where nothing offends. -/
theorem fits_ok {a : α} (hreads : r a) (hno : ∀ p m, ¬o p m) : Fits (.ok a) r o := by
  refine ⟨fun h => ?_, fun _ => ⟨a, rfl⟩, fun i => ?_, List.Pairwise.nil⟩
  · cases h
    exact hreads
  · exact ⟨fun hi => absurd hi List.not_mem_nil, fun h => absurd h (hno _ _)⟩

/-- One issue fits where one place offends. -/
theorem fits_single {p : List Step} {m : Mismatch} (h : ∀ q m', o q m' ↔ q = p ∧ m' = m) :
    Fits (.failed [⟨p, m⟩] : Checked α) r o := by
  refine ⟨fun h => ?_, fun h => ?_, fun i => ?_, List.pairwise_singleton _ _⟩
  · cases h
  · cases h
  · obtain ⟨path, mismatch⟩ := i
    rw [h, Checked.issues, List.mem_singleton, Issue.mk.injEq]

theorem Fits.congr {r' : α → Prop} (h : Fits x r o) (hr : ∀ a, r a → r' a)
    (ho : ∀ p m, o p m ↔ o' p m) : Fits x r' o' :=
  ⟨fun ha => hr _ (h.reads ha), h.succeeds, fun i => (h.mem_issues i).trans (ho _ _), h.ordered⟩

theorem Fits.map {f : α → β} (h : Fits x r o) (hf : ∀ a, r a → s (f a)) : Fits (x.map f) s o := by
  refine ⟨fun hb => ?_, fun hnone => ?_, fun i => ?_, ?_⟩
  · obtain ⟨a, ha, rfl⟩ := Checked.map_eq_ok.mp hb
    exact hf a (h.reads ha)
  · rw [Checked.issues_map] at hnone
    obtain ⟨a, ha⟩ := h.succeeds hnone
    exact ⟨f a, Checked.map_eq_ok.mpr ⟨a, ha, rfl⟩⟩
  · rw [Checked.issues_map]
    exact h.mem_issues i
  · rw [Checked.issues_map]
    exact h.ordered

/-- One step further up, the places are one step longer. -/
theorem Fits.under (h : Fits x r o) (step : Step) :
    Fits (x.under step) r fun p m => ∃ q, p = step :: q ∧ o q m := by
  refine ⟨fun ha => h.reads (Checked.under_eq_ok.mp ha), fun hnone => ?_, fun i => ?_, ?_⟩
  · rw [Checked.issues_under, List.map_eq_nil_iff] at hnone
    obtain ⟨a, ha⟩ := h.succeeds hnone
    exact ⟨a, Checked.under_eq_ok.mpr ha⟩
  · rw [Checked.mem_issues_under]
    exact exists_congr fun q => and_congr_right fun _ => h.mem_issues _
  · rw [Checked.issues_under, List.pairwise_map]
    exact h.ordered.imp fun hbefore => List.Lex.cons hbefore

/-- Both results fit together if the places of the first come before those of the second. -/
theorem Fits.both (hx : Fits x r o) (hy : Fits y s o')
    (hbefore : ∀ p m q m', o p m → o' q m' → List.Lex StepBefore p q) :
    Fits (x.both y) (fun a => r a.1 ∧ s a.2) fun p m => o p m ∨ o' p m := by
  refine ⟨fun ha => ?_, fun hnone => ?_, fun i => ?_, ?_⟩
  · obtain ⟨hxa, hya⟩ := Checked.both_eq_ok.mp ha
    exact ⟨hx.reads hxa, hy.reads hya⟩
  · rw [Checked.issues_both, List.append_eq_nil_iff] at hnone
    obtain ⟨a, ha⟩ := hx.succeeds hnone.1
    obtain ⟨b, hb⟩ := hy.succeeds hnone.2
    exact ⟨(a, b), Checked.both_eq_ok.mpr ⟨ha, hb⟩⟩
  · rw [Checked.issues_both, List.mem_append]
    exact or_congr (hx.mem_issues i) (hy.mem_issues i)
  · rw [Checked.issues_both, List.pairwise_append]
    refine ⟨hx.ordered, hy.ordered, fun i hi j hj => ?_⟩
    exact hbefore _ _ _ _ ((hx.mem_issues i).mp hi) ((hy.mem_issues j).mp hj)

/-- A list fits when its items do: it offends in them, under their positions. -/
theorem fits_items {check : α → Checked β} {s : α → β → Prop}
    {o : α → List Step → Mismatch → Prop} (h : ∀ a, Fits (check a) (s a) (o a)) :
    ∀ (list : List α) (position : Nat), Fits (Checked.items check position list)
      (List.Forall₂ s list) fun p m =>
        ∃ i a q, list[i]? = some a ∧ p = .index (position + i) :: q ∧ o a q m := by
  intro list
  induction list with
  | nil => exact fun _ => fits_ok .nil fun p m hr => by simp at hr
  | cons a rest ih =>
    intro position
    have hboth := ((h a).under (.index position)).both (ih (position + 1)) ?_
    · refine (hboth.map fun b hb => List.Forall₂.cons hb.1 hb.2).congr (fun _ => id) fun p m => ?_
      -- the first item, or one of the others
      constructor
      · intro hr
        rcases hr with ⟨q, hp, ho⟩ | ⟨i, b, q, hb, hp, ho⟩
        · exact ⟨0, a, q, rfl, hp, ho⟩
        · refine ⟨i + 1, b, q, hb, ?_, ho⟩
          rw [hp, Nat.add_assoc, Nat.add_comm 1]
      · intro hr
        obtain ⟨i, b, q, hb, hp, ho⟩ := hr
        cases i with
        | zero =>
          cases hb
          exact Or.inl ⟨q, hp, ho⟩
        | succ i =>
          refine Or.inr ⟨i, b, q, hb, ?_, ho⟩
          rw [hp, Nat.add_assoc, Nat.add_comm 1]
    · intro p m q m' hp hq
      obtain ⟨p', rfl, -⟩ := hp
      obtain ⟨i, b, q', -, rfl, -⟩ := hq
      refine List.Lex.rel ?_
      show position < position + 1 + i
      omega

end Results

/-! ## Checks of values -/

/-- That a check does what a kind declares. -/
def Meets {α : Type} (k : Kind) (check : Tree → Checked α) (toValue : α → Value) : Prop :=
  ∀ t, Fits (check t) (fun a => Reads k t (toValue a)) (Offends k t)

section Values

variable {α : Type} {k : Kind} {check : Tree → Checked α} {toValue : α → Value}

/-- A check of plain values reads each value, or has the one thing to say that the kind
rejects it for. -/
theorem Meets.of_plain (hk : k.IsPlain)
    (h : ∀ t, (∃ a, check t = .ok a ∧ Reads k t (toValue a)) ∨
      ∃ m, check t = .mismatch m ∧ ∀ m', Rejects k t m' ↔ m' = m) : Meets k check toValue := by
  intro t
  rcases h t with ⟨a, ha, hreads⟩ | ⟨m, hm, hrejects⟩
  · rw [ha]
    exact fits_ok hreads (hreads.not_offends_plain hk)
  · rw [hm]
    exact fits_single fun p m' => (offends_plain hk).trans (and_congr_right fun _ => hrejects m')

theorem meets_text : Meets .text text Value.text := by
  refine .of_plain trivial fun t => ?_
  unfold text
  split
  next t => exact Or.inl ⟨t, rfl, .text t⟩
  next hno =>
    refine Or.inr ⟨_, rfl, fun m => ⟨fun h => ?_, fun h => h ▸ .text hno⟩⟩
    cases h
    rfl

theorem meets_bool : Meets .truth bool Value.bool := by
  refine .of_plain trivial fun t => ?_
  unfold bool
  split
  next b => exact Or.inl ⟨b, rfl, .truth b⟩
  next hno =>
    refine Or.inr ⟨_, rfl, fun m => ⟨fun h => ?_, fun h => h ▸ .truth hno⟩⟩
    cases h
    rfl

theorem meets_natural : Meets .natural natural Value.int := by
  refine .of_plain trivial fun t => ?_
  unfold natural
  split
  next n =>
    split
    next hn => exact Or.inl ⟨n, rfl, .natural hn⟩
    next hn =>
      refine Or.inr ⟨_, rfl, fun m => ⟨fun h => ?_, fun h => h ▸ .negative (by omega)⟩⟩
      cases h with
      | integer hno => exact absurd rfl (hno n)
      | negative => rfl
  next hno =>
    refine Or.inr ⟨_, rfl, fun m => ⟨fun h => ?_, fun h => h ▸ .integer hno⟩⟩
    cases h with
    | integer => rfl
    | negative => exact absurd rfl (hno _)

theorem meets_amount : Meets .amount amount Amount.toValue := by
  refine .of_plain trivial fun t => ?_
  unfold amount
  split
  next n =>
    split
    next hn => exact Or.inl ⟨.int n, rfl, .integer hn⟩
    next hn =>
      have hlarge := Bool.eq_false_iff.mpr hn
      refine Or.inr ⟨_, rfl, fun m => ⟨fun h => ?_, fun h => h ▸ .tooLarge hlarge⟩⟩
      cases h <;> rfl
  next x => exact Or.inl ⟨.float x, rfl, .double x⟩
  next hint hfloat =>
    refine Or.inr ⟨_, rfl, fun m => ⟨fun h => ?_, fun h => h ▸ .number hint hfloat⟩⟩
    cases h <;> rfl

/-- A word is looked up by its name. -/
theorem meets_oneOf {β : Type} {all : List β} {name : β → Text} {word : β → Word}
    (hname : ∀ b, (word b).name = name b) :
    Meets (.word (all.map word)) (oneOf all name) fun b => .word (word b) := by
  have hnames : (all.map word).map (·.name) = all.map name := by
    rw [List.map_map]
    exact List.map_congr_left fun b _ => hname b
  refine .of_plain trivial fun t => ?_
  unfold oneOf
  split
  next t =>
    split
    next hs =>
      have hs := List.any_eq_true.mp hs
      refine Or.inr ⟨_, rfl, fun m => ⟨fun h => ?_, fun h => h ▸ .unicode hs⟩⟩
      cases h with
      | unicode => rfl
      | unknown hunicode =>
        obtain ⟨c, hc, hs⟩ := hs
        exact absurd (hunicode c hc) (by simp [hs])
      | word hno => exact absurd rfl (hno t)
    next hs =>
      have hunicode : ∀ c ∈ t, c.isSurrogate = false := fun c hc =>
        Bool.eq_false_iff.mpr fun h => hs (List.any_eq_true.mpr ⟨c, hc, h⟩)
      split
      next b hb =>
        have hb' : (name b == t) = true := List.find?_some (p := fun a => name a == t) hb
        have ht : (word b).name = t := (hname b).trans (eq_of_beq hb')
        refine Or.inl ⟨b, rfl, ?_⟩
        rw [← ht]
        exact .word (List.mem_map_of_mem (List.mem_of_find?_eq_some hb))
      next hnone =>
        have hno : ∀ w ∈ all.map word, w.name ≠ t := by
          intro w hw heq
          obtain ⟨b, hb, rfl⟩ := List.mem_map.mp hw
          exact List.find?_eq_none.mp hnone b hb (beq_iff_eq.mpr ((hname b).symm.trans heq))
        refine Or.inr ⟨_, rfl, fun m => ⟨fun h => ?_, fun h => ?_⟩⟩
        · cases h with
          | unicode h =>
            obtain ⟨c, hc, hs⟩ := h
            exact absurd (hunicode c hc) (by simp [hs])
          | unknown => rw [hnames]
          | word hno => exact absurd rfl (hno t)
        · rw [h, ← hnames]
          exact .unknown hunicode hno
  next hno =>
    refine Or.inr ⟨_, rfl, fun m => ⟨fun h => ?_, fun h => ?_⟩⟩
    · cases h with
      | unicode => exact absurd rfl (hno _)
      | unknown => exact absurd rfl (hno _)
      | word => rw [hnames]
    · rw [h, ← hnames]
      exact .word hno

/-- A value may be null. -/
theorem Meets.nullable (h : Meets k check toValue) :
    Meets (.nullable k) (nullable check) (Value.ofOption toValue) := by
  intro t
  unfold Schema.nullable
  split
  next => exact fits_ok (.null k) fun p m hr => (offends_nullable.mp hr).1 rfl
  next hnull =>
    have hnull : t ≠ .scalar .null := fun heq => hnull heq
    refine ((h t).map (f := some) fun a ha => ?_).congr (fun _ => id) fun p m => ?_
    · exact Reads.value hnull ha
    · exact (and_iff_right hnull).symm.trans offends_nullable.symm

theorem listOf_of_items {t : Tree} {ts : List Tree} (h : items? t = some ts) :
    listOf check t = Checked.items check 0 ts := by
  cases t with
  | list items =>
    cases h
    rfl
  | set members =>
    cases h
    rfl
  | _ => cases h

theorem listOf_of_no_items {t : Tree} (h : items? t = none) :
    listOf check t = .mismatch .notList := by
  cases t with
  | list items => cases h
  | set members => cases h
  | _ => rfl

/-- A list holds values of one kind. -/
theorem Meets.listOf (h : Meets k check toValue) :
    Meets (.listOf k) (listOf check) fun as => .tuple (as.map toValue) := by
  intro t
  cases hitems : items? t with
  | none =>
    rw [listOf_of_no_items hitems]
    refine fits_single fun p m => ?_
    rw [offends_listOf, hitems]
    simp
  | some ts =>
    rw [listOf_of_items hitems]
    refine (fits_items h ts 0).congr (fun as has => ?_) fun p m => ?_
    · have hall : List.Forall₂ (Reads k) ts (as.map toValue) :=
        List.forall₂_map_right_iff.mpr has
      obtain ⟨hlength, hreads⟩ := List.forall₂_iff_zip.mp hall
      exact .listOf hitems hlength fun u v huv => hreads huv
    · rw [offends_listOf, hitems]
      simp only [Nat.zero_add, Option.some.injEq, reduceCtorEq, false_and, false_or]
      constructor
      · intro hr
        obtain ⟨i, u, q, hu, hp, ho⟩ := hr
        exact ⟨ts, i, u, q, rfl, hu, hp, ho⟩
      · intro hr
        obtain ⟨_, i, u, q, rfl, hu, hp, ho⟩ := hr
        exact ⟨i, u, q, hu, hp, ho⟩

end Values

/-! ## Checks of fields -/

/-- That a field of entries stands for a value. -/
structure FieldReads (entries : List (Scalar × Tree)) (f : Field) (v : Value) : Prop where
  found : ∀ name t, Found f.names entries name t → Reads f.kind t v
  absent : Absent f.names entries → f.default = some v

/-- That a check of entries does what a list of fields declares. -/
def MeetsFields {α : Type} (fs : List Field) (check : List (Scalar × Tree) → Checked α)
    (values : α → List Value) : Prop :=
  ∀ entries, Fits (check entries) (fun a => List.Forall₂ (FieldReads entries) fs (values a))
    fun p m => ∃ f ∈ fs, FieldOffends f entries p m

section Fields

variable {α β : Type} {f : Field} {check : Tree → Checked α} {toValue : α → Value}
  {entries : List (Scalar × Tree)}

/-- A field that is there is as good as its value. -/
theorem fits_of_found (h : Meets f.kind check toValue) {name : Text} {t : Tree}
    (hfound : Found f.names entries name t) :
    Fits ((check t).under (.key name)) (fun a => FieldReads entries f (toValue a))
      (FieldOffends f entries) := by
  refine ((h t).under (.key name)).congr (fun a ha => ?_) fun p m => ?_
  · refine ⟨fun name' t' hfound' => ?_, fun habsent => absurd habsent hfound.not_absent⟩
    obtain ⟨-, rfl⟩ := hfound.unique hfound'
    exact ha
  · constructor
    · intro hr
      obtain ⟨q, rfl, ho⟩ := hr
      exact .value hfound ho
    · intro hr
      cases hr with
      | value hfound' ho =>
        obtain ⟨rfl, rfl⟩ := hfound.unique hfound'
        exact ⟨_, rfl, ho⟩
      | missing _ habsent => exact absurd habsent hfound.not_absent

/-- The check of one field, as one of a list of fields. -/
theorem meetsFields_of_fits {x : List (Scalar × Tree) → Checked α}
    (h : ∀ entries, Fits (x entries) (fun a => FieldReads entries f (toValue a))
      (FieldOffends f entries)) : MeetsFields [f] x fun a => [toValue a] := by
  refine fun entries => (h entries).congr (fun a ha => .cons ha .nil) fun p m => ?_
  simp only [List.mem_singleton, exists_eq_left]

/-- A field without a default is required. -/
theorem MeetsFields.required (h : Meets f.kind check toValue) (hdefault : f.default = none) :
    MeetsFields [f] (required f.names check) fun a => [toValue a] := by
  refine meetsFields_of_fits fun entries => ?_
  unfold Schema.required
  split
  next hfind => exact fits_of_found h (find?_eq_some_iff.mp hfind)
  next hfind =>
    have habsent := find?_eq_none_iff.mp hfind
    refine fits_single fun p m => ⟨fun hr => ?_, fun hr => ?_⟩
    · cases hr with
      | value hfound => exact absurd habsent hfound.not_absent
      | missing => exact ⟨rfl, rfl⟩
    · rw [hr.1, hr.2]
      exact .missing hdefault habsent

/-- A field with a default may be absent. -/
theorem MeetsFields.optional (h : Meets f.kind check toValue) (default : α)
    (hdefault : f.default = some (toValue default)) :
    MeetsFields [f] (optional f.names default check) fun a => [toValue a] := by
  refine meetsFields_of_fits fun entries => ?_
  unfold Schema.optional
  split
  next hfind => exact fits_of_found h (find?_eq_some_iff.mp hfind)
  next hfind =>
    have habsent := find?_eq_none_iff.mp hfind
    refine fits_ok ⟨fun _ _ hfound => absurd habsent hfound.not_absent, fun _ => hdefault⟩ ?_
    intro p m hr
    cases hr with
    | value hfound => exact hfound.not_absent habsent
    | missing hrequired =>
      rw [hdefault] at hrequired
      cases hrequired

/-- That a field is declared before another one. -/
def FieldBefore (f g : Field) : Prop :=
  ∀ a ∈ f.names.all, ∀ b ∈ g.names.all, declared.idxOf a < declared.idxOf b

instance (f g : Field) : Decidable (FieldBefore f g) := by
  unfold FieldBefore
  exact inferInstance

variable {fs gs : List Field} {x : List (Scalar × Tree) → Checked α}
  {y : List (Scalar × Tree) → Checked β} {xs : α → List Value} {ys : β → List Value}

/-- Fields are checked one after another, in the order of their declaration. -/
theorem MeetsFields.both (hx : MeetsFields fs x xs) (hy : MeetsFields gs y ys)
    (hbefore : ∀ f ∈ fs, ∀ g ∈ gs, FieldBefore f g) :
    MeetsFields (fs ++ gs) (fun entries => (x entries).both (y entries)) fun a =>
      xs a.1 ++ ys a.2 := by
  intro entries
  have hboth := (hx entries).both (hy entries) ?_
  · refine hboth.congr (fun a ha => List.rel_append ha.1 ha.2) fun p m => ?_
    simp only [List.mem_append, or_and_right, exists_or]
  · intro p m q m' hp hq
    obtain ⟨f, hf, hp⟩ := hp
    obtain ⟨g, hg, hq⟩ := hq
    obtain ⟨a, ha, p', rfl⟩ := hp.head
    obtain ⟨b, hb, q', rfl⟩ := hq.head
    exact List.Lex.rel (hbefore f hf g hg a ha b hb)

/-- What the fields of a part are put together to does not change what they are. -/
theorem MeetsFields.map {g : α → β} (hx : MeetsFields fs x xs) (ys : β → List Value)
    (hg : ∀ a, ys (g a) = xs a) : MeetsFields fs (fun entries => (x entries).map g) ys :=
  fun entries => (hx entries).map fun a ha => (hg a).symm ▸ ha

/-- A part is a mapping with its fields. -/
theorem MeetsFields.part {p : Part} {toValue : α → Value} (hx : MeetsFields p.fields x xs)
    (hvalue : ∀ a, toValue a = .record (p.attributes.zip (xs a))) :
    Meets (.part p) (mappingOf p.name x) toValue := by
  intro t
  unfold mappingOf
  split
  next entries =>
    refine (hx entries).congr (fun a ha => ?_) fun q m => ?_
    · obtain ⟨hlength, hreads⟩ := List.forall₂_iff_zip.mp ha
      rw [hvalue]
      exact .part hlength (fun f v hfv => (hreads hfv).found) fun f v hfv => (hreads hfv).absent
    · rw [offends_part]
      constructor
      · exact fun hr => Or.inr ⟨entries, rfl, hr⟩
      · intro hr
        rcases hr with ⟨hno, -⟩ | ⟨_, heq, hr⟩
        · exact absurd rfl (hno entries)
        · cases heq
          exact hr
  next hno =>
    refine fits_single fun q m => ?_
    rw [offends_part]
    constructor
    · intro hr
      rcases hr with ⟨-, hrest⟩ | ⟨entries, heq, -⟩
      · exact hrest
      · exact absurd heq (hno entries)
    · exact fun hr => Or.inl ⟨hno, hr⟩

end Fields

/-! ## The parts of a config -/

theorem meets_binding : Meets (.part .binding) binding Binding.toValue := by
  have host := MeetsFields.required (f := ⟨.host, .text, none⟩) meets_text rfl
  have port := MeetsFields.required (f := ⟨.port, .natural, none⟩) meets_natural rfl
  have protocol := MeetsFields.required (f := ⟨.protocol, .word (Protocol.all.map .protocol), none⟩)
    (meets_oneOf fun _ => rfl) rfl
  have all := host.both (port.both protocol (by decide)) (by decide)
  exact (all.map (fun b => [.text b.host, .int b.port, .word (.protocol b.protocol)])
    fun _ => rfl).part (p := .binding) fun _ => rfl

theorem meets_limits : Meets (.part .limits) limits Limits.toValue := by
  have cpu := MeetsFields.optional (f := ⟨.cpu, .nullable .amount, some .null⟩)
    meets_amount.nullable none rfl
  have memoryMb := MeetsFields.optional (f := ⟨.memoryMb, .nullable .amount, some .null⟩)
    meets_amount.nullable none rfl
  have all := cpu.both memoryMb (by decide)
  exact (all.map (fun l => [.ofOption Amount.toValue l.cpu,
    .ofOption Amount.toValue l.memoryMb]) fun _ => rfl).part (p := .limits) fun _ => rfl

theorem meets_service : Meets (.part .service) service Service.toValue := by
  have name := MeetsFields.required (f := ⟨.serviceName, .text, none⟩) meets_text rfl
  have kind := MeetsFields.required (f := ⟨.kind, .word (ServiceKind.all.map .kind), none⟩)
    (meets_oneOf fun _ => rfl) rfl
  have isPublic := MeetsFields.optional (f := ⟨.isPublic, .truth, some (.bool false)⟩)
    meets_bool false rfl
  have handlesPii := MeetsFields.optional (f := ⟨.handlesPii, .truth, some (.bool false)⟩)
    meets_bool false rfl
  have network := MeetsFields.optional (f := ⟨.network, .listOf (.part .binding), some (.tuple [])⟩)
    meets_binding.listOf [] rfl
  have dependsOn := MeetsFields.optional (f := ⟨.dependsOn, .listOf .text, some (.tuple [])⟩)
    meets_text.listOf [] rfl
  have limits := MeetsFields.optional (f := ⟨.limits, .nullable (.part .limits), some .null⟩)
    meets_limits.nullable none rfl
  have all := name.both (kind.both (isPublic.both (handlesPii.both (network.both
    (dependsOn.both limits (by decide)) (by decide)) (by decide)) (by decide)) (by decide))
    (by decide)
  exact (all.map (fun s => [.text s.name, .word (.kind s.kind), .bool s.isPublic,
    .bool s.handlesPii, .tuple (s.network.map Binding.toValue), .tuple (s.dependsOn.map .text),
    .ofOption Limits.toValue s.limits]) fun _ => rfl).part (p := .service) fun _ => rfl

/-- The value that the services of a config stand for. -/
def configValue (services : List Service) : Value :=
  .record [("services", .tuple (services.map Service.toValue))]

/-- **The check of configs does what their declaration says.** -/
theorem meets_check : Meets (.part .config) check configValue :=
  (MeetsFields.required (f := ⟨.services, .listOf (.part .service), none⟩) meets_service.listOf
    rfl).part (p := .config) fun _ => rfl

/-- A config is accepted when it conforms to its declaration, and only then. -/
theorem check_eq_ok_iff {t : Tree} : (∃ services, check t = .ok services) ↔ Conforms t := by
  constructor
  · intro hr
    obtain ⟨services, h⟩ := hr
    exact ⟨_, (meets_check t).reads h⟩
  · intro hr
    obtain ⟨v, hreads⟩ := hr
    apply (meets_check t).succeeds
    exact List.eq_nil_iff_forall_not_mem.mpr fun i hi =>
      hreads.not_offends _ _ (((meets_check t).mem_issues i).mp hi)

end Schema

end TopologyAudit
