import TopologyAudit.Proofs.Topology.Schema
import TopologyAudit.Record.Topology

/-!
# The declared shape of configs

What a config is declared to be, without saying how that is checked: a table of the parts
of a config with their fields (`Part.fields`). Three relations give it a meaning.
`Reads k t v` says that a tree conforms to a kind and which value it stands for.
`Reaches` follows a path into a tree and into the declaration at once, and `Offends` are the
paths at which the two do not agree: a value there is of the wrong kind (`Rejects`), or a
required field is absent.

Issues have an order, too: that of the paths, compared step by step, where fields come in
the order of their declaration and items in that of their positions.
-/

namespace TopologyAudit.Schema

/-- The parts of a config that are mappings. -/
inductive Part
  | config
  | service
  | binding
  | limits
deriving DecidableEq

/-- What a value is declared to be. -/
inductive Kind
  | text
  | truth
  | natural
  | amount
  | word (words : List Word)
  | nullable (k : Kind)
  | listOf (k : Kind)
  | part (p : Part)

/-- A field of a part. -/
structure Field where
  names : FieldName
  kind : Kind
  /-- What stands in for the field where it is absent, unless it is required. -/
  default : Option Value

namespace FieldName

/-- All names of a field, the preferred one first. -/
def all (f : FieldName) : List Text := f.name :: f.alternative.toList

/-- The name of the attribute that a field is kept in. -/
def attributeName (f : FieldName) : Text := f.alternative.getD f.name

end FieldName

namespace Part

def name : Part → Text
  | config => "ConfigDocument"
  | service => "ServiceDocument"
  | binding => "NetworkBindingDocument"
  | limits => "ResourceLimitsDocument"

/-- The fields of a part in the order of their declaration. -/
def fields : Part → List Field
  | config => [⟨.services, .listOf (.part service), none⟩]
  | service =>
    [⟨.serviceName, .text, none⟩, ⟨.kind, .word (ServiceKind.all.map .kind), none⟩,
      ⟨.isPublic, .truth, some (.bool false)⟩, ⟨.handlesPii, .truth, some (.bool false)⟩,
      ⟨.network, .listOf (.part binding), some (.tuple [])⟩,
      ⟨.dependsOn, .listOf .text, some (.tuple [])⟩,
      ⟨.limits, .nullable (.part limits), some .null⟩]
  | binding =>
    [⟨.host, .text, none⟩, ⟨.port, .natural, none⟩,
      ⟨.protocol, .word (Protocol.all.map .protocol), none⟩]
  | limits =>
    [⟨.cpu, .nullable .amount, some .null⟩, ⟨.memoryMb, .nullable .amount, some .null⟩]

/-- The names of the attributes that a part is kept in. -/
def attributes (p : Part) : List Text := p.fields.map (·.names.attributeName)

end Part

/-- The items of a value that may stand for a list: a list or a set. -/
def items? : Tree → Option (List Tree)
  | .list items => some items
  | .set members => some (members.map .scalar)
  | _ => none

/-- That entries have a value for a field, under the preferred name, or under the other one
where the preferred one is absent. -/
inductive Found (f : FieldName) (entries : List (Scalar × Tree)) : Text → Tree → Prop
  | preferred {t : Tree} (h : Tree.valueOf? entries f.name = some t) : Found f entries f.name t
  | alternative {other : Text} {t : Tree} (habsent : Tree.valueOf? entries f.name = none)
    (hother : f.alternative = some other) (h : Tree.valueOf? entries other = some t) :
    Found f entries other t

/-- That entries have a field under none of its names. -/
def Absent (f : FieldName) (entries : List (Scalar × Tree)) : Prop :=
  ∀ name ∈ f.all, Tree.valueOf? entries name = none

/-! ## Conforming trees -/

/-- That a tree conforms to a kind and stands for a value. -/
inductive Reads : Kind → Tree → Value → Prop
  | text (t : Text) : Reads .text (.scalar (.text t)) (.text t)
  | truth (b : Bool) : Reads .truth (.scalar (.bool b)) (.bool b)
  | natural {n : Int} (h : 0 ≤ n) : Reads .natural (.scalar (.int n)) (.int n)
  | integer {n : Int} (h : (Binary64.ofInt n).isFinite = true) :
    Reads .amount (.scalar (.int n)) (.int n)
  | double (x : Binary64) : Reads .amount (.scalar (.float x)) (.float x)
  | word {words : List Word} {w : Word} (h : w ∈ words) :
    Reads (.word words) (.scalar (.text w.name)) (.word w)
  | null (k : Kind) : Reads (.nullable k) (.scalar .null) .null
  | value {k : Kind} {t : Tree} {v : Value} (hnull : t ≠ .scalar .null) (h : Reads k t v) :
    Reads (.nullable k) t v
  | listOf {k : Kind} {t : Tree} {ts : List Tree} {vs : List Value} (hitems : items? t = some ts)
    (hlength : ts.length = vs.length) (h : ∀ u v, (u, v) ∈ ts.zip vs → Reads k u v) :
    Reads (.listOf k) t (.tuple vs)
  | part {p : Part} {entries : List (Scalar × Tree)} {vs : List Value}
    (hlength : p.fields.length = vs.length)
    (hfound : ∀ f v, (f, v) ∈ p.fields.zip vs → ∀ name t, Found f.names entries name t →
      Reads f.kind t v)
    (habsent : ∀ f v, (f, v) ∈ p.fields.zip vs → Absent f.names entries → f.default = some v) :
    Reads (.part p) (.mapping entries) (.record (p.attributes.zip vs))

/-- That a tree has the shape of a config. -/
def Conforms (t : Tree) : Prop := ∃ v, Reads (.part .config) t v

/-! ## Offending places -/

/-- That a value is not even on the face of it of a kind, and what is wrong with it. -/
inductive Rejects : Kind → Tree → Mismatch → Prop
  | text {u : Tree} (h : ∀ t, u ≠ .scalar (.text t)) : Rejects .text u .notText
  | truth {u : Tree} (h : ∀ b, u ≠ .scalar (.bool b)) : Rejects .truth u .notBool
  | integer {u : Tree} (h : ∀ n, u ≠ .scalar (.int n)) : Rejects .natural u .notInteger
  | negative {n : Int} (h : n < 0) : Rejects .natural (.scalar (.int n)) .negative
  | number {u : Tree} (hint : ∀ n, u ≠ .scalar (.int n)) (hfloat : ∀ x, u ≠ .scalar (.float x)) :
    Rejects .amount u .notNumber
  | tooLarge {n : Int} (h : (Binary64.ofInt n).isFinite = false) :
    Rejects .amount (.scalar (.int n)) .notNumber
  | unicode {words : List Word} {t : Text} (h : ∃ c ∈ t, c.isSurrogate = true) :
    Rejects (.word words) (.scalar (.text t)) .notUnicode
  | unknown {words : List Word} {t : Text} (hunicode : ∀ c ∈ t, c.isSurrogate = false)
    (h : ∀ w ∈ words, w.name ≠ t) :
    Rejects (.word words) (.scalar (.text t)) (.notOneOf (words.map (·.name)))
  | word {words : List Word} {u : Tree} (h : ∀ t, u ≠ .scalar (.text t)) :
    Rejects (.word words) u (.notOneOf (words.map (·.name)))
  | listOf {k : Kind} {u : Tree} (h : items? u = none) : Rejects (.listOf k) u .notList
  | part {p : Part} {u : Tree} (h : ∀ entries, u ≠ .mapping entries) :
    Rejects (.part p) u (.notMapping p.name)

/-- That a path leads from a tree of one kind to a tree of another one. Unknown keys, and
names that are passed over for a preferred one, lead nowhere. -/
inductive Reaches : Kind → Tree → List Step → Kind → Tree → Prop
  | here (k : Kind) (t : Tree) : Reaches k t [] k t
  | value {k k' : Kind} {t t' : Tree} {p : List Step} (hnull : t ≠ .scalar .null)
    (h : Reaches k t p k' t') : Reaches (.nullable k) t p k' t'
  | item {k k' : Kind} {t u t' : Tree} {ts : List Tree} {position : Nat} {p : List Step}
    (hitems : items? t = some ts) (hu : ts[position]? = some u) (h : Reaches k u p k' t') :
    Reaches (.listOf k) t (.index position :: p) k' t'
  | field {part : Part} {f : Field} {entries : List (Scalar × Tree)} {name : Text} {u t' : Tree}
    {k' : Kind} {p : List Step} (hf : f ∈ part.fields) (hfound : Found f.names entries name u)
    (h : Reaches f.kind u p k' t') : Reaches (.part part) (.mapping entries) (.key name :: p) k' t'

/-- That a place in a tree offends against a kind, and what was expected there. -/
inductive Offends (k : Kind) (t : Tree) : List Step → Mismatch → Prop
  | wrong {p : List Step} {k' : Kind} {u : Tree} {m : Mismatch} (h : Reaches k t p k' u)
    (hm : Rejects k' u m) : Offends k t p m
  | missing {p : List Step} {part : Part} {f : Field} {entries : List (Scalar × Tree)}
    (h : Reaches k t p (.part part) (.mapping entries)) (hf : f ∈ part.fields)
    (hrequired : f.default = none) (habsent : Absent f.names entries) :
    Offends k t (p ++ [.key f.names.name]) .missing

/-! ## The order of places -/

/-- The names of all fields in the order of their declaration. -/
def declared : List Text :=
  [Part.config, .service, .binding, .limits].flatMap fun p =>
    p.fields.flatMap fun f => f.names.all

/-- That a step comes before another one from the same place. -/
def StepBefore : Step → Step → Prop
  | .key a, .key b => declared.idxOf a < declared.idxOf b
  | .index i, .index j => i < j
  | _, _ => False

/-- That an issue comes before another one. -/
def IssueBefore (i j : Issue) : Prop := List.Lex StepBefore i.path j.path

/-! ## Looking fields up -/

theorem find?_eq_some_iff {f : FieldName} {entries : List (Scalar × Tree)} {name : Text}
    {t : Tree} : f.find? entries = some (name, t) ↔ Found f entries name t := by
  unfold FieldName.find?
  constructor
  · intro h
    split at h
    next u hu =>
      cases h
      exact .preferred hu
    next hnone =>
      split at h
      next => cases h
      next other hother =>
        obtain ⟨u, hu, heq⟩ := Option.map_eq_some_iff.mp h
        cases heq
        exact .alternative hnone hother hu
  · intro h
    cases h with
    | preferred h => rw [h]
    | alternative habsent hother h =>
      rw [habsent, hother]
      simp only
      rw [h]
      rfl

theorem find?_eq_none_iff {f : FieldName} {entries : List (Scalar × Tree)} :
    f.find? entries = none ↔ Absent f entries := by
  unfold FieldName.find? Absent FieldName.all
  cases hname : Tree.valueOf? entries f.name with
  | some t => simp [hname]
  | none => cases f.alternative <;> simp [hname]

/-- A field is found under one of its names. -/
theorem Found.mem_all {f : FieldName} {entries : List (Scalar × Tree)} {name : Text} {t : Tree}
    (h : Found f entries name t) : name ∈ f.all := by
  cases h with
  | preferred => exact List.mem_cons_self ..
  | alternative _ hother =>
    rw [FieldName.all, hother]
    exact List.mem_cons_of_mem _ (List.mem_singleton_self _)

/-- A field is not found and absent at once. -/
theorem Found.not_absent {f : FieldName} {entries : List (Scalar × Tree)} {name : Text} {t : Tree}
    (h : Found f entries name t) : ¬Absent f entries := by
  intro habsent
  have hnone := find?_eq_none_iff.mpr habsent
  rw [find?_eq_some_iff.mpr h] at hnone
  cases hnone

/-- A field is found in one way. -/
theorem Found.unique {f : FieldName} {entries : List (Scalar × Tree)} {name name' : Text}
    {t t' : Tree} (h : Found f entries name t) (h' : Found f entries name' t') :
    name = name' ∧ t = t' := by
  have heq := (find?_eq_some_iff.mpr h).symm.trans (find?_eq_some_iff.mpr h')
  cases heq
  exact ⟨rfl, rfl⟩

theorem mem_declared {part : Part} {f : Field} (hf : f ∈ part.fields) {name : Text}
    (hname : name ∈ f.names.all) : name ∈ declared := by
  refine List.mem_flatMap.mpr ⟨part, ?_, List.mem_flatMap.mpr ⟨f, hf, hname⟩⟩
  cases part <;> simp

/-! ## Where the parts of a value offend -/

/-- That a kind has no parts of its own. -/
def Kind.IsPlain : Kind → Prop
  | .text | .truth | .natural | .amount | .word _ => True
  | _ => False

/-- A value without parts offends at itself. -/
theorem offends_plain {k : Kind} (hk : k.IsPlain) {t : Tree} {p : List Step} {m : Mismatch} :
    Offends k t p m ↔ p = [] ∧ Rejects k t m := by
  constructor
  · intro h
    cases h with
    | wrong h hm =>
      cases h with
      | here => exact ⟨rfl, hm⟩
      | value => exact hk.elim
      | item => exact hk.elim
      | field => exact hk.elim
    | missing h =>
      cases h with
      | here => exact hk.elim
      | value => exact hk.elim
      | item => exact hk.elim
      | field => exact hk.elim
  · intro hr
    obtain ⟨rfl, hm⟩ := hr
    exact .wrong (.here k t) hm

/-- A value that may be null offends as it does where it may not, unless it is null. -/
theorem offends_nullable {k : Kind} {t : Tree} {p : List Step} {m : Mismatch} :
    Offends (.nullable k) t p m ↔ t ≠ .scalar .null ∧ Offends k t p m := by
  constructor
  · intro h
    cases h with
    | wrong h hm =>
      cases h with
      | here => cases hm
      | value hnull h => exact ⟨hnull, .wrong h hm⟩
    | missing h hf hrequired habsent =>
      cases h with
      | value hnull h => exact ⟨hnull, .missing h hf hrequired habsent⟩
  · intro hr
    obtain ⟨hnull, h⟩ := hr
    cases h with
    | wrong h hm => exact .wrong (.value hnull h) hm
    | missing h hf hrequired habsent => exact .missing (.value hnull h) hf hrequired habsent

/-- A list offends in its items; what is no list offends at itself. -/
theorem offends_listOf {k : Kind} {t : Tree} {p : List Step} {m : Mismatch} :
    Offends (.listOf k) t p m ↔
      (items? t = none ∧ p = [] ∧ m = .notList) ∨
        ∃ ts position u q, items? t = some ts ∧ ts[position]? = some u ∧
          p = .index position :: q ∧ Offends k u q m := by
  constructor
  · intro h
    cases h with
    | wrong h hm =>
      cases h with
      | here =>
        cases hm with
        | listOf hnone => exact Or.inl ⟨hnone, rfl, rfl⟩
      | item hitems hu h => exact Or.inr ⟨_, _, _, _, hitems, hu, rfl, .wrong h hm⟩
    | missing h hf hrequired habsent =>
      cases h with
      | item hitems hu h =>
        exact Or.inr ⟨_, _, _, _, hitems, hu, rfl, .missing h hf hrequired habsent⟩
  · intro hr
    rcases hr with ⟨hnone, rfl, rfl⟩ | ⟨ts, position, u, q, hitems, hu, rfl, h⟩
    · exact .wrong (.here _ _) (.listOf hnone)
    · cases h with
      | wrong h hm => exact .wrong (.item hitems hu h) hm
      | missing h hf hrequired habsent =>
        exact .missing (.item hitems hu h) hf hrequired habsent

/-- That entries offend in one field: in its value, or by its absence. -/
inductive FieldOffends (f : Field) (entries : List (Scalar × Tree)) : List Step → Mismatch → Prop
  | value {name : Text} {u : Tree} {q : List Step} {m : Mismatch}
    (hfound : Found f.names entries name u) (h : Offends f.kind u q m) :
    FieldOffends f entries (.key name :: q) m
  | missing (hrequired : f.default = none) (habsent : Absent f.names entries) :
    FieldOffends f entries [.key f.names.name] .missing

/-- A part offends in its fields; what is no mapping offends at itself. -/
theorem offends_part {part : Part} {t : Tree} {p : List Step} {m : Mismatch} :
    Offends (.part part) t p m ↔
      ((∀ entries, t ≠ .mapping entries) ∧ p = [] ∧ m = .notMapping part.name) ∨
        ∃ entries, t = .mapping entries ∧ ∃ f ∈ part.fields, FieldOffends f entries p m := by
  constructor
  · intro h
    cases h with
    | wrong h hm =>
      cases h with
      | here =>
        cases hm with
        | part hno => exact Or.inl ⟨hno, rfl, rfl⟩
      | field hf hfound h => exact Or.inr ⟨_, rfl, _, hf, .value hfound (.wrong h hm)⟩
    | missing h hf hrequired habsent =>
      cases h with
      | here => exact Or.inr ⟨_, rfl, _, hf, .missing hrequired habsent⟩
      | field hf' hfound h =>
        exact Or.inr ⟨_, rfl, _, hf', .value hfound (.missing h hf hrequired habsent)⟩
  · intro hr
    rcases hr with ⟨hno, rfl, rfl⟩ | ⟨entries, rfl, f, hf, h⟩
    · exact .wrong (.here _ _) (.part hno)
    · cases h with
      | value hfound h =>
        cases h with
        | wrong h hm => exact .wrong (.field hf hfound h) hm
        | missing h hf' hrequired habsent =>
          exact .missing (.field hf hfound h) hf' hrequired habsent
      | missing hrequired habsent => exact .missing (.here _ _) hf hrequired habsent

/-- A field offends under one of its names. -/
theorem FieldOffends.head {f : Field} {entries : List (Scalar × Tree)} {p : List Step}
    {m : Mismatch} (h : FieldOffends f entries p m) :
    ∃ name ∈ f.names.all, ∃ q, p = .key name :: q := by
  cases h with
  | value hfound => exact ⟨_, hfound.mem_all, _, rfl⟩
  | missing => exact ⟨_, List.mem_cons_self .., _, rfl⟩

end TopologyAudit.Schema
