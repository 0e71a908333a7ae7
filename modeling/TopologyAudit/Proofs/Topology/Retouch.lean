import Mathlib.Data.List.Count
import Mathlib.Data.List.Pairwise
import Mathlib.Logic.Relation
import TopologyAudit.Proofs.Topology.NormalForm

/-!
# What a config may hold besides

Edits of a tree that its topology does not show (`Retouch`): a key comes in that no field of the
part goes by; a name comes in that is passed over for the preferred one; the keys change their
order. They may be made anywhere in the tree. A tree stands for the same value before and after
each of them (`Retouch.reads_iff`), so that an accepted config may be retouched at will, and
taken for its normal form as well (`normal_of_accepted`).
-/

namespace TopologyAudit

namespace Tree

variable {entries entries' : List (Scalar × Tree)} {name : Text}

theorem valueOf?_append (front back : List (Scalar × Tree)) (name : Text) :
    valueOf? (front ++ back) name = (valueOf? front name).or (valueOf? back name) :=
  List.lookup_append

/-- A key that is not the one looked up is passed over. -/
theorem valueOf?_insert_ne {key : Scalar} (front back : List (Scalar × Tree)) (value : Tree)
    (h : key ≠ .text name) :
    valueOf? (front ++ (key, value) :: back) name = valueOf? (front ++ back) name := by
  have hne : (Scalar.text name == key) = false := beq_eq_false_iff_ne.mpr h.symm
  have hcons : valueOf? ((key, value) :: back) name = valueOf? back name := by
    rw [valueOf?, List.lookup_cons, hne]
    rfl
  rw [valueOf?_append, valueOf?_append, hcons]

/-- The value of another name is not looked at. -/
theorem valueOf?_exchange_ne {other : Text} {t t' : Tree} (front back : List (Scalar × Tree))
    (h : other ≠ name) :
    valueOf? (front ++ (.text name, t) :: back) other =
      valueOf? (front ++ (.text name, t') :: back) other := by
  have hne : Scalar.text name ≠ .text other := fun heq => h (Scalar.text.inj heq).symm
  rw [valueOf?_insert_ne front back t hne, valueOf?_insert_ne front back t' hne]

/-- Where one value is exchanged, it is what is found before and after, or nothing changes. -/
theorem valueOf?_exchange (front back : List (Scalar × Tree)) (t t' : Tree) (key : Text) :
    valueOf? (front ++ (.text name, t) :: back) key =
        valueOf? (front ++ (.text name, t') :: back) key ∨
      valueOf? (front ++ (.text name, t) :: back) key = some t ∧
        valueOf? (front ++ (.text name, t') :: back) key = some t' := by
  by_cases hkey : key = name
  · subst hkey
    rw [valueOf?_append, valueOf?_append, valueOf?_cons_self, valueOf?_cons_self]
    cases valueOf? front key with
    | none => exact Or.inr ⟨rfl, rfl⟩
    | some w => exact Or.inl rfl
  · exact Or.inl (valueOf?_exchange_ne front back hkey)

/-- Where a text stands once among the keys, it is looked up wherever it stands. -/
theorem valueOf?_eq_some_iff {value : Tree}
    (hcount : (entries.map (·.1)).count (.text name) ≤ 1) :
    valueOf? entries name = some value ↔ (.text name, value) ∈ entries := by
  induction entries with
  | nil => simp [valueOf?]
  | cons e rest ih =>
    obtain ⟨key, first⟩ := e
    by_cases hkey : key = .text name
    · subst hkey
      rw [List.map_cons, List.count_cons_self] at hcount
      -- it does not stand among the rest as well
      have hrest : (Scalar.text name, value) ∉ rest := fun hmem =>
        List.count_eq_zero.mp (Nat.le_zero.mp (Nat.le_of_succ_le_succ hcount))
          (List.mem_map_of_mem (f := Prod.fst) hmem)
      rw [valueOf?_cons_self, List.mem_cons, Prod.mk.injEq]
      simp only [Option.some.injEq, true_and, hrest, or_false, eq_comm]
    · rw [List.map_cons, List.count_cons_of_ne hkey] at hcount
      rw [← List.nil_append ((key, first) :: rest), valueOf?_insert_ne [] rest first hkey,
        List.nil_append, List.nil_append, ih hcount, List.mem_cons, Prod.mk.injEq]
      simp only [Ne.symm hkey, false_and, false_or]

/-- The order of the keys does not matter to a text that stands among them once. -/
theorem valueOf?_perm (h : entries.Perm entries')
    (hcount : (entries.map (·.1)).count (.text name) ≤ 1) :
    valueOf? entries name = valueOf? entries' name := by
  have hcount' : (entries'.map (·.1)).count (.text name) ≤ 1 := by
    rwa [← (h.map (·.1)).count_eq]
  refine Option.ext fun value => ?_
  rw [valueOf?_eq_some_iff hcount, valueOf?_eq_some_iff hcount', h.mem_iff]

end Tree

namespace Schema

/-- Edits that do not show. Each kind has its own known keys, so an edit is one of a tree of a
kind; lists and mappings are edited in their parts, too. -/
inductive Retouch : Kind → Tree → Tree → Prop
  /-- A key comes in that no field goes by. -/
  | unknown {p : Part} {front back : List (Scalar × Tree)} {key : Scalar} {value : Tree}
    (hkey : ∀ f ∈ p.fields, ∀ name ∈ f.names.all, key ≠ .text name) :
    Retouch (.part p) (.mapping (front ++ back)) (.mapping (front ++ (key, value) :: back))
  /-- The other name of a field comes in, which has a value under the preferred one. -/
  | shadowed {p : Part} {f : Field} {front back : List (Scalar × Tree)} {other : Text}
    {value : Tree} (hf : f ∈ p.fields) (hother : f.names.alternative = some other)
    (hname : (Tree.valueOf? (front ++ back) f.names.name).isSome = true) :
    Retouch (.part p) (.mapping (front ++ back)) (.mapping (front ++ (.text other, value) :: back))
  /-- The entries change their places. No text stands among the keys twice. -/
  | order {p : Part} {entries entries' : List (Scalar × Tree)}
    (hdistinct : ∀ name, (entries.map (·.1)).count (.text name) ≤ 1)
    (h : entries.Perm entries') : Retouch (.part p) (.mapping entries) (.mapping entries')
  /-- The value of a field is edited. -/
  | field {p : Part} {f : Field} {front back : List (Scalar × Tree)} {name : Text} {t t' : Tree}
    (hf : f ∈ p.fields) (hname : name ∈ f.names.all) (h : Retouch f.kind t t') :
    Retouch (.part p) (.mapping (front ++ (.text name, t) :: back))
      (.mapping (front ++ (.text name, t') :: back))
  /-- An item is edited. -/
  | item {k : Kind} {front back : List Tree} {t t' : Tree} (h : Retouch k t t') :
    Retouch (.listOf k) (.list (front ++ t :: back)) (.list (front ++ t' :: back))
  | value {k : Kind} {t t' : Tree} (h : Retouch k t t') : Retouch (.nullable k) t t'

/-! ## Names of fields -/

/-- No two fields of a part share a name. -/
theorem Part.pairwise_names (p : Part) :
    p.fields.Pairwise fun f g => ∀ name ∈ f.names.all, name ∉ g.names.all := by
  cases p <;> decide

theorem Part.field_eq_of_name {p : Part} {f g : Field} {name : Text} (hf : f ∈ p.fields)
    (hg : g ∈ p.fields) (hfname : name ∈ f.names.all) (hgname : name ∈ g.names.all) : f = g := by
  by_contra hne
  have : Std.Symm fun f g : Field => ∀ name ∈ f.names.all, name ∉ g.names.all :=
    ⟨fun f g h name hg hf => h name hf hg⟩
  exact p.pairwise_names.forall hf hg hne name hfname hgname

/-- The two names of a field are different. -/
theorem Part.name_ne_alternative (p : Part) :
    ∀ f ∈ p.fields, ∀ other ∈ f.names.alternative, other ≠ f.names.name := by
  cases p <;> decide

/-! ## Edits of entries -/

section Entries

variable {f : FieldName} {entries entries' : List (Scalar × Tree)}

/-- What is said of a field hangs on what is found under its names. -/
theorem said?_congr
    (h : ∀ name ∈ f.all, Tree.valueOf? entries name = Tree.valueOf? entries' name) :
    said? f entries = said? f entries' := by
  rw [FieldName.all, List.forall_mem_cons] at h
  unfold said?
  rw [h.1]
  cases hother : f.alternative with
  | none => rfl
  | some other =>
    rw [hother] at h
    rw [Option.bind_some, Option.bind_some, h.2 other (List.mem_singleton_self _)]

/-- If one value is exchanged, wherever it is found, that may be what is said of a field. -/
theorem said?_exchange {t t' : Tree}
    (h : ∀ name, Tree.valueOf? entries name = Tree.valueOf? entries' name ∨
      Tree.valueOf? entries name = some t ∧ Tree.valueOf? entries' name = some t') :
    said? f entries = said? f entries' ∨
      said? f entries = some t ∧ said? f entries' = some t' := by
  unfold said?
  rcases h f.name with heq | ⟨ht, ht'⟩
  · rw [heq]
    cases Tree.valueOf? entries' f.name with
    | some u => exact Or.inl rfl
    | none =>
      cases f.alternative with
      | none => exact Or.inl rfl
      | some other => exact h other
  · rw [ht, ht']
    exact Or.inr ⟨rfl, rfl⟩

/-- A part is read alike where its fields are. -/
theorem reads_part_congr {p : Part} {v : Value}
    (h : ∀ f ∈ p.fields, ∀ u, FieldReads entries f u ↔ FieldReads entries' f u) :
    Reads (.part p) (.mapping entries) v ↔ Reads (.part p) (.mapping entries') v := by
  rw [reads_part_iff, reads_part_iff]
  refine exists_congr fun vs => and_congr_right fun _ => ?_
  rw [List.forall₂_iff_zip, List.forall₂_iff_zip]
  refine and_congr_right fun _ => ?_
  exact forall₂_congr fun f u => imp_congr_right fun hfu => h f (List.of_mem_zip hfu).1 u

theorem reads_part_of_said? {p : Part} {v : Value}
    (h : ∀ f ∈ p.fields, said? f.names entries = said? f.names entries') :
    Reads (.part p) (.mapping entries) v ↔ Reads (.part p) (.mapping entries') v :=
  reads_part_congr fun f hf u => by rw [fieldReads_iff, fieldReads_iff, h f hf]

end Entries

/-! ## Edits of items -/

/-- A list is read item by item. -/
theorem reads_listOf_iff {k : Kind} {ts : List Tree} {v : Value} :
    Reads (.listOf k) (.list ts) v ↔ ∃ vs, v = .tuple vs ∧ List.Forall₂ (Reads k) ts vs := by
  constructor
  · intro h
    cases h with
    | @listOf _ _ ts' vs hitems hlength hreads =>
      cases hitems
      exact ⟨vs, rfl, List.forall₂_iff_zip.mpr ⟨hlength, fun huv => hreads _ _ huv⟩⟩
  · rintro ⟨vs, rfl, h⟩
    obtain ⟨hlength, hreads⟩ := List.forall₂_iff_zip.mp h
    exact .listOf rfl hlength fun _ _ huv => hreads huv

/-- One item is exchanged for another that is read alike. -/
theorem forall₂_exchange {k : Kind} {t t' : Tree} (h : ∀ v, Reads k t v ↔ Reads k t' v)
    {front back : List Tree} {vs : List Value} :
    List.Forall₂ (Reads k) (front ++ t :: back) vs ↔
      List.Forall₂ (Reads k) (front ++ t' :: back) vs := by
  induction front generalizing vs with
  | nil =>
    rw [List.nil_append, List.nil_append, List.forall₂_cons_left_iff, List.forall₂_cons_left_iff]
    exact exists₂_congr fun v _ => by rw [h v]
  | cons first front ih =>
    rw [List.cons_append, List.cons_append, List.forall₂_cons_left_iff,
      List.forall₂_cons_left_iff]
    exact exists₂_congr fun _ _ => by rw [ih]

/-- What is not null is read as the value that it may be. -/
theorem reads_nullable_iff {k : Kind} {t : Tree} {v : Value} (h : t ≠ .scalar .null) :
    Reads (.nullable k) t v ↔ Reads k t v := by
  constructor
  · intro hreads
    cases hreads with
    | null => exact absurd rfl h
    | value _ hreads => exact hreads
  · exact .value h

/-! ## Retouched trees -/

namespace Retouch

variable {k : Kind} {t t' : Tree}

/-- Only lists and mappings are edited. -/
theorem ne_null (h : Retouch k t t') : t ≠ .scalar .null ∧ t' ≠ .scalar .null := by
  induction h with
  | value _ ih => exact ih
  | _ => exact ⟨nofun, nofun⟩

/-- An edit does not change what a tree stands for. -/
theorem reads_iff (h : Retouch k t t') : ∀ v, Reads k t v ↔ Reads k t' v := by
  induction h with
  | @unknown p front back key value hkey =>
    refine fun v => reads_part_of_said? fun f hf => said?_congr fun name hname => ?_
    exact (Tree.valueOf?_insert_ne front back value (hkey f hf name hname)).symm
  | @shadowed p f front back other value hf hother hname =>
    refine fun v => reads_part_of_said? fun g hg => ?_
    by_cases hmem : other ∈ g.names.all
    -- of the field itself the preferred name still tells
    · have hother_mem : other ∈ f.names.all := by
        rw [FieldName.all, hother]
        exact List.mem_cons_of_mem _ (List.mem_singleton_self _)
      obtain rfl := Part.field_eq_of_name hf hg hother_mem hmem
      have hne : Scalar.text other ≠ .text f.names.name := fun heq =>
        p.name_ne_alternative f hf other hother (Scalar.text.inj heq)
      unfold said?
      rw [Tree.valueOf?_insert_ne front back value hne]
      obtain ⟨u, hu⟩ := Option.isSome_iff_exists.mp hname
      rw [hu, Option.some_or, Option.some_or]
    · refine said?_congr fun name hname => (Tree.valueOf?_insert_ne front back value ?_).symm
      exact fun heq => hmem (Scalar.text.inj heq ▸ hname)
  | order hdistinct hperm =>
    exact fun v => reads_part_of_said? fun f _ => said?_congr fun name _ =>
      Tree.valueOf?_perm hperm (hdistinct name)
  | @field p f front back name t t' hf hname _ ih =>
    refine fun v => reads_part_congr fun g hg u => ?_
    by_cases hmem : name ∈ g.names.all
    · obtain rfl := Part.field_eq_of_name hf hg hname hmem
      rw [fieldReads_iff, fieldReads_iff]
      rcases said?_exchange (f := f.names) (Tree.valueOf?_exchange front back t t') with
        heq | ⟨ht, ht'⟩
      · rw [heq]
      · rw [ht, ht']
        simp only [Option.some.injEq, exists_eq_left', ih u, reduceCtorEq, false_and]
    · have hsaid : said? g.names (front ++ (.text name, t) :: back) =
          said? g.names (front ++ (.text name, t') :: back) :=
        said?_congr fun key hkey => Tree.valueOf?_exchange_ne front back fun heq =>
          hmem (heq ▸ hkey)
      rw [fieldReads_iff, fieldReads_iff, hsaid]
  | @item k front back t t' _ ih =>
    intro v
    rw [reads_listOf_iff, reads_listOf_iff]
    exact exists_congr fun vs => and_congr_right fun _ => forall₂_exchange ih
  | value h ih =>
    intro v
    rw [reads_nullable_iff h.ne_null.1, reads_nullable_iff h.ne_null.2]
    exact ih v

end Retouch

/-- An edit leaves it at whether a config is accepted, and its services as they are. -/
theorem check_iff_of_retouch {t t' : Tree} {services : List Service}
    (h : Retouch (.part .config) t t') : check t = .ok services ↔ check t' = .ok services := by
  -- one direction, of any two trees that stand for the same values
  have hpass : ∀ {u u' : Tree}, (∀ v, Reads (.part .config) u v → Reads (.part .config) u' v) →
      check u = .ok services → check u' = .ok services := by
    intro u u' hreads hcheck
    have hread := hreads _ ((meets_check u).reads hcheck)
    obtain ⟨services', hcheck'⟩ := check_eq_ok_iff.mpr ⟨_, hread⟩
    have hnormal : normalConfig u = normalConfig u' :=
      (normalConfig_of_check hcheck).trans (hasNormal_config u' _ hread)
    rwa [services_eq_of_normalConfig_eq hcheck hcheck' hnormal]
  exact ⟨hpass fun v => (h.reads_iff v).mp, hpass fun v => (h.reads_iff v).mpr⟩

/-- Edits may be made and taken back in any number. -/
theorem check_iff_of_eqvGen {t t' : Tree} {services : List Service}
    (h : Relation.EqvGen (Retouch (.part .config)) t t') :
    check t = .ok services ↔ check t' = .ok services := by
  induction h with
  | rel _ _ h => exact check_iff_of_retouch h
  | refl _ => exact Iff.rfl
  | symm _ _ _ ih => exact ih.symm
  | trans _ _ _ _ _ ih ih' => exact ih.trans ih'

end Schema

namespace Topology

open Schema

/-- A config keeps what it says and gains nothing but defaults: the services of its topology go
on the wire in the normal form of its tree. Edits that do not show make no difference to the
topology, nor does it make one to take the normal form for the config; it is its own normal
form. -/
theorem normal_of_accepted (metadata : Metadata) (tree : Tree) (t : Topology)
    (h : ofTree metadata tree = .success t) :
    (∃ services, t.toValue.toWire.map Value.json = .ok t.wire ∧
      t.wire.field? "services" = some services ∧
        normalConfig tree = .object [("services", services)]) ∧
      (∀ tree', Relation.EqvGen (Retouch (.part .config)) tree tree' →
        ofTree metadata tree' = .success t) ∧
      ofTree metadata (Tree.ofJson (normalConfig tree)) = .success t ∧
      normalConfig (Tree.ofJson (normalConfig tree)) = normalConfig tree := by
  obtain ⟨hcheck, hmetadata⟩ := ofTree_eq_success_iff.mp h
  obtain ⟨services, hnormal, hshown⟩ := normalConfig_eq_object hcheck
  refine ⟨⟨services, t.toWire_toValue, hshown, hnormal⟩, fun tree' hedits => ?_, ?_,
    normalConfig_idem hcheck⟩
  · exact ofTree_eq_success_iff.mpr ⟨(check_iff_of_eqvGen hedits).mp hcheck, hmetadata⟩
  · exact ofTree_eq_success_iff.mpr ⟨check_normalConfig hcheck, hmetadata⟩

/-- A service with limits that no double holds and that are no number, and with a mark that is
passed over for the preferred one. -/
def gatewayEntries : List (Scalar × Tree) :=
  [(.text "resource_limits", .mapping [(.text "memory_mb", .scalar (.int 9007199254740993)),
      (.text "cpu", .scalar (.float Binary64.nan))]),
    (.text "handles_pii", .scalar (.int 1)), (.text "handlesPII", .scalar (.bool false)),
    (.text "type", .scalar (.text "api")), (.text "name", .scalar (.text "gateway"))]

/-- A service with a binding and with limits that are all null. -/
def storeEntries : List (Scalar × Tree) :=
  [(.text "name", .scalar (.text "store")), (.text "type", .scalar (.text "db")),
    (.text "resourceLimits", .mapping [(.text "cpu", .scalar .null)]),
    (.text "network", .list [.mapping [(.text "protocol", .scalar (.text "tcp")),
      (.text "port", .scalar (.int 0)), (.text "host", .scalar (.text ""))]])]

/-- A config with services in a list, the first of which has some entries. -/
def configOf (gateway : List (Scalar × Tree)) : Tree :=
  .mapping [(.text "services", .list [.mapping gateway, .mapping storeEntries])]

/-- What the config comes to. -/
def configNormal : Json :=
  .object [("services", .array [
    .object [("name", .text "gateway"), ("type", .text "api"), ("public", .bool false),
      ("handlesPII", .bool false), ("network", .array []), ("dependsOn", .array []),
      ("resourceLimits", .object [("cpu", .float Binary64.nan),
        ("memoryMb", .int 9007199254740993)])],
    .object [("name", .text "store"), ("type", .text "db"), ("public", .bool false),
      ("handlesPII", .bool false),
      ("network", .array [.object [("host", .text ""), ("port", .int 0),
        ("protocol", .text "tcp")]]),
      ("dependsOn", .array []), ("resourceLimits", .object [])]])]

/-- The services of the config, with their defaults, and the same after an unknown key has come
in at the top of a service. -/
theorem normal_of_accepted_gateway :
    let services : List Service :=
      [⟨"gateway", .api, false, false, [], [],
          some ⟨some (.float Binary64.nan), some (.int 9007199254740993)⟩⟩,
        ⟨"store", .db, false, false, [⟨"", 0, .tcp⟩], [], some ⟨none, none⟩⟩]
    let edited := configOf ((.text "owner", .list []) :: gatewayEntries)
    ofTree ⟨.yaml, none⟩ (configOf gatewayEntries) = .success ⟨services, ⟨.yaml, none⟩⟩ ∧
      normalConfig (configOf gatewayEntries) = configNormal ∧
      ofTree ⟨.yaml, none⟩ edited = .success ⟨services, ⟨.yaml, none⟩⟩ ∧
      ofTree ⟨.yaml, none⟩ (Tree.ofJson configNormal) = .success ⟨services, ⟨.yaml, none⟩⟩ := by
  intro services edited
  have haccepted : ofTree ⟨.yaml, none⟩ (configOf gatewayEntries) =
      .success ⟨services, ⟨.yaml, none⟩⟩ := by decide +kernel
  have hedited : Relation.EqvGen (Retouch (.part .config)) (configOf gatewayEntries) edited := by
    -- the edit of a service is one of an item of a field
    have hservice : Retouch (.part .service) (.mapping ([] ++ gatewayEntries))
        (.mapping ([] ++ (.text "owner", .list []) :: gatewayEntries)) := .unknown (by decide)
    have hservices := @Retouch.item (.part .service) [] [.mapping storeEntries] _ _ hservice
    exact .rel _ _ (@Retouch.field .config ⟨.services, .listOf (.part .service), none⟩ [] []
      "services" _ _ (List.mem_singleton_self _) (by decide) hservices)
  obtain ⟨-, hedits, hnormal, -⟩ := normal_of_accepted _ _ _ haccepted
  exact ⟨haccepted, rfl, hedits edited hedited, hnormal⟩

end Topology

end TopologyAudit
