import Mathlib.Data.List.Lex
import TopologyAudit.Proofs.Result
import TopologyAudit.Proofs.Text.Separator
import TopologyAudit.Proofs.Topology.Conformance
import TopologyAudit.Source.Parse

/-!
# What a rejected config is told

A config is accepted exactly when it conforms to its declaration. Any other one is rejected
with a report (`Reports`): an issue for each offending place, in order and each place once,
where the issues of a service are those of that service by itself. The message joins the
issues with a separator that no issue holds, since names of fields, numerals and the fixed
texts of mismatches are free of semicolons.
-/

namespace TopologyAudit

namespace Schema

/-! ## Names in paths -/

/-- A name in a path is one that a field of the part there was found under. -/
theorem Reaches.found_of_key {k k' : Kind} {t u : Tree} {path : List Step}
    (h : Reaches k t path k' u) :
    ∀ {p : List Step} {name : Text} {q : List Step}, path = p ++ .key name :: q →
      ∃ part entries f v, Reaches k t p (.part part) (.mapping entries) ∧ f ∈ part.fields ∧
        Found f.names entries name v := by
  induction h with
  | here => exact fun hp => absurd hp (by simp)
  | value hnull _ ih =>
    intro p name q hp
    obtain ⟨part, entries, f, v, hreach, hf, hfound⟩ := ih hp
    exact ⟨part, entries, f, v, .value hnull hreach, hf, hfound⟩
  | item hitems hu _ ih =>
    intro p name q hp
    cases p with
    | nil => cases hp
    | cons step p =>
      obtain ⟨rfl, hrest⟩ := List.cons.inj hp
      obtain ⟨part, entries, f, v, hreach, hf, hfound⟩ := ih hrest
      exact ⟨part, entries, f, v, .item hitems hu hreach, hf, hfound⟩
  | field hf hfound _ ih =>
    intro p name q hp
    cases p with
    | nil =>
      obtain ⟨hname, -⟩ := List.cons.inj hp
      cases hname
      exact ⟨_, _, _, _, .here _ _, hf, hfound⟩
    | cons step p =>
      obtain ⟨rfl, hrest⟩ := List.cons.inj hp
      obtain ⟨part, entries, g, v, hreach, hg, hgfound⟩ := ih hrest
      exact ⟨part, entries, g, v, .field hf hfound hreach, hg, hgfound⟩

/-- That a name may stand in a path behind another one: a field of the part there is found
under it, or is missing and would have had it for its preferred name. -/
def Names (t : Tree) (p : List Step) (name : Text) : Prop :=
  ∃ part entries f, Reaches (.part .config) t p (.part part) (.mapping entries) ∧
    f ∈ part.fields ∧ ((∃ v, Found f.names entries name v) ∨
      Absent f.names entries ∧ name = f.names.name)

/-- An offending place is named by nothing but fields. -/
theorem Offends.names {t : Tree} {path : List Step} {m : Mismatch}
    (h : Offends (.part .config) t path m) {p : List Step} {name : Text} {q : List Step}
    (hp : path = p ++ .key name :: q) : Names t p name := by
  cases h with
  | wrong h =>
    obtain ⟨part, entries, f, v, hreach, hf, hfound⟩ := h.found_of_key hp
    exact ⟨part, entries, f, hreach, hf, Or.inl ⟨v, hfound⟩⟩
  | missing h hf _ habsent =>
    -- the name is the last one of the path, or one on the way to the part
    rcases List.eq_nil_or_concat q with rfl | ⟨q', last, rfl⟩
    · obtain ⟨rfl, hname⟩ := List.append_inj' hp rfl
      cases hname
      exact ⟨_, _, _, h, hf, Or.inr ⟨habsent, rfl⟩⟩
    · rw [List.concat_eq_append, ← List.cons_append, ← List.append_assoc] at hp
      obtain ⟨hp, -⟩ := List.append_inj' hp rfl
      obtain ⟨part, entries, f, v, hreach, hf, hfound⟩ := h.found_of_key hp
      exact ⟨part, entries, f, hreach, hf, Or.inl ⟨v, hfound⟩⟩

theorem Names.mem_declared {t : Tree} {p : List Step} {name : Text} (h : Names t p name) :
    name ∈ declared := by
  obtain ⟨part, entries, f, -, hf, ⟨v, hfound⟩ | ⟨-, rfl⟩⟩ := h
  · exact Schema.mem_declared hf hfound.mem_all
  · exact Schema.mem_declared hf (List.mem_cons_self ..)

/-! ## Services apart -/

/-- Below a service, a config offends where the service by itself does. -/
theorem offends_service {entries : List (Scalar × Tree)} {name : Text} {u s : Tree}
    {items : List Tree} {position : Nat} (hfound : Found .services entries name u)
    (hitems : items? u = some items) (hs : items[position]? = some s) {q : List Step}
    {m : Mismatch} :
    Offends (.part .config) (.mapping entries) (.key name :: .index position :: q) m ↔
      Offends (.part .service) s q m := by
  rw [offends_part]
  constructor
  · intro hr
    rcases hr with ⟨hno, -⟩ | ⟨_, heq, f, hf, h⟩
    · exact absurd rfl (hno entries)
    · cases heq
      obtain rfl := List.mem_singleton.mp hf
      cases h with
      | value hfound' h =>
        obtain ⟨-, rfl⟩ := hfound.unique hfound'
        rcases offends_listOf.mp h with ⟨-, hq, -⟩ | ⟨items', position', s', q', hitems', hs', hq, h⟩
        · cases hq
        · cases hq
          obtain rfl := Option.some.inj (hitems.symm.trans hitems')
          obtain rfl := Option.some.inj (hs.symm.trans hs')
          exact h
  · intro h
    refine Or.inr ⟨entries, rfl, _, List.mem_singleton_self _, .value hfound ?_⟩
    exact offends_listOf.mpr (Or.inr ⟨items, position, s, q, hitems, hs, rfl, h⟩)

/-! ## The report -/

/-- What the issues of a tree have to be. -/
structure Reports (t : Tree) (issues : List Issue) : Prop where
  /-- Each offending place is reported, and nothing else is. -/
  mem : ∀ i, i ∈ issues ↔ Offends (.part .config) t i.path i.mismatch
  /-- No place is reported twice. -/
  nodup : (issues.map (·.path)).Nodup
  ordered : issues.Pairwise IssueBefore
  /-- Unknown names, and names passed over for a preferred one, are in no path. -/
  names : ∀ i ∈ issues, ∀ p name q, i.path = p ++ .key name :: q → Names t p name
  /-- Each service has the issues that it has by itself. -/
  apart : ∀ {entries name u items position s}, t = .mapping entries →
    Found .services entries name u → items? u = some items → items[position]? = some s →
      ∀ q m, (⟨.key name :: .index position :: q, m⟩ : Issue) ∈ issues ↔ ⟨q, m⟩ ∈ (service s).issues

/-- A step is not before itself. -/
theorem StepBefore.ne {a b : Step} (h : StepBefore a b) : a ≠ b := by
  intro heq
  cases b with
  | key name => exact absurd (heq ▸ h : StepBefore (.key name) (.key name)) (Nat.lt_irrefl _)
  | index n => exact absurd (heq ▸ h : StepBefore (.index n) (.index n)) (Nat.lt_irrefl _)

/-- Issues in order have different places. -/
theorem IssueBefore.path_ne {i j : Issue} (h : IssueBefore i j) : i.path ≠ j.path :=
  (List.Lex.imp (fun _ _ hbefore => StepBefore.ne hbefore) _ _ h).to_ne

/-- **The issues of a check are its report.** -/
theorem reports_issues (t : Tree) : Reports t (check t).issues := by
  have hmem := (meets_check t).mem_issues
  refine ⟨hmem, ?_, (meets_check t).ordered, fun i hi p name q hp => ?_, ?_⟩
  · rw [List.Nodup, List.pairwise_map]
    exact (meets_check t).ordered.imp fun h => h.path_ne
  · exact ((hmem i).mp hi).names hp
  · intro entries name u items position s ht hfound hitems hs q m
    subst ht
    rw [hmem, (meets_service s).mem_issues]
    exact offends_service hfound hitems hs

/-! ## Issues hold no semicolons -/

/-- What the separator of issues begins with. -/
abbrev semicolon : CodePoint := CodePoint.ofChar ';'

theorem semicolon_notMem_alternatives {words : List Text} (h : ∀ w ∈ words, semicolon ∉ w) :
    semicolon ∉ alternatives words := by
  have hquote : semicolon ∉ ("'" : Text) := by decide
  have hor : semicolon ∉ ("' or '" : Text) := by decide
  have hcomma : semicolon ∉ ("', " : Text) := by decide
  fun_induction alternatives words with
  | case1 => exact List.not_mem_nil
  | case2 word =>
    have hword := h word (List.mem_cons_self ..)
    simp only [List.mem_append, not_or]
    exact ⟨hquote, hword, hquote⟩
  | case3 word last =>
    have hword := h word (List.mem_cons_self ..)
    have hlast := h last (List.mem_cons_of_mem _ (List.mem_cons_self ..))
    simp only [List.mem_append, not_or]
    exact ⟨⟨⟨⟨hquote, hword⟩, hor⟩, hlast⟩, hquote⟩
  | case4 word rest _ _ ih =>
    have hword := h word (List.mem_cons_self ..)
    have hrest := ih fun w hw => h w (List.mem_cons_of_mem _ hw)
    simp only [List.mem_append, not_or]
    exact ⟨⟨⟨hquote, hword⟩, hcomma⟩, hrest⟩

/-- No word of the model holds a semicolon. -/
theorem semicolon_notMem_name (w : Word) : semicolon ∉ w.name :=
  fun hmem => absurd (Word.within_of_mem_name semicolon hmem) (by decide)

theorem Rejects.semicolon_notMem {k : Kind} {u : Tree} {m : Mismatch} (h : Rejects k u m) :
    semicolon ∉ m.message := by
  have hwords : ∀ words : List Word,
      semicolon ∉ Mismatch.message (.notOneOf (words.map (·.name))) := by
    intro words
    have hstart : semicolon ∉ ("Input should be " : Text) := by decide
    rw [Mismatch.message, List.mem_append, not_or]
    refine ⟨hstart, semicolon_notMem_alternatives fun name hname => ?_⟩
    obtain ⟨w, -, rfl⟩ := List.mem_map.mp hname
    exact semicolon_notMem_name w
  cases h with
  | unknown => exact hwords _
  | word => exact hwords _
  | @part p => cases p <;> decide
  | _ => decide

/-- A path is shown without semicolons if its names are names of fields. -/
theorem semicolon_notMem_pathText {path : List Step}
    (h : ∀ name, .key name ∈ path → name ∈ declared) : semicolon ∉ Issue.pathText path := by
  have hdeclared : ∀ name ∈ declared, semicolon ∉ name := by decide
  cases path with
  | nil => decide
  | cons step rest =>
    intro hmem
    rcases Text.mem_join hmem with hsep | ⟨part, hpart, hc⟩
    · exact absurd hsep (by decide)
    · obtain ⟨s, hs, rfl⟩ := List.mem_map.mp hpart
      cases s with
      | key name => exact hdeclared name (h name hs) hc
      | index n => exact absurd (Text.isDigit_of_mem_ofNat hc) (by decide)

theorem semicolon_notMem_message {t : Tree} {i : Issue}
    (h : Offends (.part .config) t i.path i.mismatch) : semicolon ∉ i.message := by
  have hcolon : semicolon ∉ (": " : Text) := by decide
  have hpath : semicolon ∉ Issue.pathText i.path := by
    refine semicolon_notMem_pathText fun name hname => ?_
    obtain ⟨p, q, hp⟩ := List.append_of_mem hname
    exact (h.names hp).mem_declared
  have hmismatch : semicolon ∉ i.mismatch.message := by
    obtain ⟨path, mismatch⟩ := i
    cases h with
    | wrong _ hm => exact hm.semicolon_notMem
    | missing => exact (by decide : semicolon ∉ Mismatch.missing.message)
  rw [Issue.message, List.mem_append, List.mem_append, not_or, not_or]
  exact ⟨⟨hpath, hcolon⟩, hmismatch⟩

end Schema

namespace Topology

/-- **Acceptance and aggregation.** A tree is accepted exactly when it conforms to the
declaration of configs, and then its services are what it reads as. Any other tree is
rejected with one message, which is put together of the issues of its report and can be
taken apart into them again. -/
theorem conforms_or_reports (metadata : Metadata) (tree : Tree) :
    ((∃ t, ofTree metadata tree = .success t) ↔ Schema.Conforms tree) ∧
      (∀ t, ofTree metadata tree = .success t → t.metadata = metadata ∧
        Schema.Reads (.part .config) tree (Schema.configValue t.services)) ∧
      (¬Schema.Conforms tree →
        ∃ issues, ofTree metadata tree = .failure [.schema issues] ∧ issues ≠ [] ∧
          Schema.Reports tree issues ∧
            ∃ body, (ParseError.schema issues).message = "Schema validation failed: " ++ body ∧
              Text.pieces "; " body = issues.map Issue.message) := by
  cases hcheck : Schema.check tree with
  | ok services =>
    have htree : ofTree metadata tree = .success ⟨services, metadata⟩ := by rw [ofTree, hcheck]
    have hreads := (Schema.meets_check tree).reads hcheck
    rw [htree]
    refine ⟨⟨fun _ => ⟨_, hreads⟩, fun _ => ⟨_, rfl⟩⟩, fun t ht => ?_, fun hnot => ?_⟩
    · obtain rfl := Result.success_inj.mp ht
      exact ⟨rfl, hreads⟩
    · exact absurd ⟨_, hreads⟩ hnot
  | failed issues =>
    have htree : ofTree metadata tree = .failure [.schema issues] := by rw [ofTree, hcheck]
    have hissues : (Schema.check tree).issues = issues := by rw [hcheck]; rfl
    rw [htree]
    refine ⟨⟨fun hr => ?_, fun hr => ?_⟩, fun t ht => ?_, fun _ => ?_⟩
    · obtain ⟨t, ht⟩ := hr
      cases ht
    · obtain ⟨services, hok⟩ := Schema.check_eq_ok_iff.mpr hr
      rw [hcheck] at hok
      cases hok
    · cases ht
    · have hreports : Schema.Reports tree issues := hissues ▸ Schema.reports_issues tree
      have hne : issues ≠ [] := by
        intro hnil
        obtain ⟨services, hok⟩ := (Schema.meets_check tree).succeeds (hissues.trans hnil)
        rw [hcheck] at hok
        cases hok
      refine ⟨issues, rfl, hne, hreports, _, rfl, ?_⟩
      refine Text.pieces_join (fun hnil => hne (List.map_eq_nil_iff.mp hnil)) fun part hpart => ?_
      obtain ⟨i, hi, rfl⟩ := List.mem_map.mp hpart
      exact Schema.semicolon_notMem_message ((hreports.mem i).mp hi)

/-- A field as it stands in a mapping. -/
def entry (name : Text) (value : Tree) : Scalar × Tree := (.text name, value)

/-- Two services with flaws, an unknown key, and a name passed over for a preferred one. -/
def flawedConfig : Tree :=
  .mapping [entry "services" (.list [
    .mapping [entry "name" (.scalar (.int 5)), entry "type" (.scalar (.text "web")),
      entry "handles_pii" (.scalar .null), entry "handlesPII" (.scalar (.int 1)),
      entry "owner" (.list [])],
    .mapping [entry "type" (.scalar (.text "db")),
      entry "network" (.list [.mapping [entry "host" (.scalar (.text "h")),
        entry "port" (.scalar (.int (-1))), entry "protocol" (.scalar (.text "tcp"))]]),
      entry "resource_limits" (.mapping [entry "cpu" (.scalar (.bool true))])]])]

/-- The flaws of both services, each at its place. -/
def flaws : List Issue :=
  let service (position : Nat) (rest : List Step) : List Step :=
    .key "services" :: .index position :: rest
  [⟨service 0 [.key "name"], .notText⟩,
    ⟨service 0 [.key "type"], .notOneOf ["api", "db", "queue", "cache"]⟩,
    ⟨service 0 [.key "handlesPII"], .notBool⟩,
    ⟨service 1 [.key "name"], .missing⟩,
    ⟨service 1 [.key "network", .index 0, .key "port"], .negative⟩,
    ⟨service 1 [.key "resource_limits", .key "cpu"], .notNumber⟩]

/-- The flaws of both services come out of the message, and nothing else does. -/
theorem conforms_or_reports_of_flawed_services :
    ofTree ⟨.yaml, none⟩ flawedConfig = .failure [.schema flaws] ∧
      Schema.Reports flawedConfig flaws ∧
      ∃ body, (ParseError.schema flaws).message = "Schema validation failed: " ++ body ∧
        Text.pieces "; " body =
          ["services.0.name: Input should be a valid string",
            "services.0.type: Input should be 'api', 'db', 'queue' or 'cache'",
            "services.0.handlesPII: Input should be a valid boolean",
            "services.1.name: Field required",
            "services.1.network.0.port: Input should be greater than or equal to 0",
            "services.1.resource_limits.cpu: Input should be a valid number"] := by
  have hfail : ofTree ⟨.yaml, none⟩ flawedConfig = .failure [.schema flaws] := by decide
  obtain ⟨haccepted, -, hrejected⟩ := conforms_or_reports ⟨.yaml, none⟩ flawedConfig
  have hnot : ¬Schema.Conforms flawedConfig := by
    rw [← haccepted, hfail]
    rintro ⟨t, ht⟩
    exact Result.success_ne_failure _ _ ht.symm
  obtain ⟨issues, hissues, -, hreports, body, hbody, hpieces⟩ := hrejected hnot
  rw [hfail] at hissues
  cases hissues
  exact ⟨hfail, hreports, body, hbody, hpieces.trans (by decide +kernel)⟩

end Topology

end TopologyAudit
