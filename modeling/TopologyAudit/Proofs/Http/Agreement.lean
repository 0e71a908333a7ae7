import TopologyAudit.Proofs.CommandLine.Run
import TopologyAudit.Proofs.Http.Answer
import TopologyAudit.Proofs.Record.Recovery
import TopologyAudit.Proofs.Source.Sets

/-!
# The command line agrees with the service

A config comes to the service within the body of a request, and to the command line in a file;
the report leaves the service without white space, if all of it is standard JSON, and the
command line over indented lines. On the way in neither changes a text that a file gives back
(`holds_toRequest`, `readConfig_of_holds`), and both reports are read as one value
(`Json.read_render`). What is left to tell the two apart is the order in which either process goes
through a set (`SetOrder.AgreesOn`). Where it is the same, and the service answers with a report or
with errors, a run that is asked for the same in JSON ends with the exit code that fits and prints
the same value (`agrees_of_served`); where it is not, the values may differ
(`disagrees_of_forked_service`).
-/

namespace TopologyAudit.Http

open Json (Style IsWritable)
open CommandLine (Surroundings Outcome)
open CommandLine.Command (analyzeGrammar diffGrammar analyzeName diffName arguments)

/-! ## Bodies -/

namespace Encoding

/-- The first bytes of an object are no mark, and none of them is zero. -/
theorem detect_object (rest : List UInt8) :
    detect (0x7B :: 0x22 :: rest) = (utf8, 0x7B :: 0x22 :: rest) := by
  match rest with
  | [] => rfl
  | [_] => rfl
  | _ :: _ :: _ => rfl

end Encoding

/-- The object with some texts under names. -/
def textsOf (fields : List (Text × Text)) : Json := .object (fields.map fun f => (f.1, .text f.2))

/-- That texts under names come back as they are: the names differ, and no surrogates make
pairs. -/
structure AreKept (fields : List (Text × Text)) : Prop where
  ne_nil : fields ≠ []
  names : (fields.map (·.1)).Nodup ∧ ∀ name ∈ fields.map (·.1), name.IsUnpaired
  texts : ∀ text ∈ fields.map (·.2), text.IsUnpaired

theorem isWritable_textsOf (fields : List (Text × Text)) :
    (textsOf fields).IsWritable Style.compact := by
  refine Json.isWritable_object.mpr fun f hf => ?_
  obtain ⟨field, -, rfl⟩ := List.mem_map.mp hf
  exact Json.isWritable_text _

theorem nesting_textsOf_le (fields : List (Text × Text)) : (textsOf fields).nesting ≤ 1 := by
  refine Json.nesting_object_le fun f hf => ?_
  obtain ⟨field, -, rfl⟩ := List.mem_map.mp hf
  exact Nat.le_refl 0

theorem rereadFields_textsOf {fields : List (Text × Text)}
    (hnames : ∀ name ∈ fields.map (·.1), name.IsUnpaired)
    (htexts : ∀ text ∈ fields.map (·.2), text.IsUnpaired) :
    Json.rereadFields (fields.map fun f => (f.1, .text f.2)) =
      fields.map fun f => (f.1, .text f.2) := by
  induction fields with
  | nil => rfl
  | cons f fields ih =>
    obtain ⟨hname, hnames⟩ := List.forall_mem_cons.mp hnames
    obtain ⟨htext, htexts⟩ := List.forall_mem_cons.mp htexts
    rw [List.map_cons, Json.rereadFields, ih hnames htexts, Json.reread,
      Text.joined_of_isUnpaired hname, Text.joined_of_isUnpaired htext]

theorem reread_textsOf {fields : List (Text × Text)} (h : AreKept fields) :
    (textsOf fields).reread = textsOf fields := by
  have hnodup : ((fields.map fun f => (f.1, Json.text f.2)).map (·.1)).Nodup := by
    rw [List.map_map]
    exact h.names.1
  rw [textsOf, Json.reread, rereadFields_textsOf h.names.2 h.texts, Entries.ofList_of_nodup hnodup]

/-- An object with fields begins with a brace and the quote of a name. -/
theorem exists_render_textsOf {fields : List (Text × Text)} (h : fields ≠ []) :
    ∃ t, Json.render Style.compact (textsOf fields) =
      CodePoint.ofChar '\x7b' :: CodePoint.ofChar '"' :: t := by
  match fields with
  | [] => exact absurd rfl h
  | [_] => exact ⟨_, rfl⟩
  | _ :: _ :: _ => exact ⟨_, rfl⟩

/-- Texts under names come back from the body that they are written to. -/
theorem Body.read_textsOf {fields : List (Text × Text)} (h : AreKept fields) :
    Body.read (Utf8.encode (Json.render Style.compact (textsOf fields))) =
      .json (textsOf fields) := by
  have hdepth : (textsOf fields).nesting ≤ Json.nestingLimit :=
    (nesting_textsOf_le fields).trans (by decide)
  have hread := @Json.read_render _ _ [] Json.hasColon_compact (isWritable_textsOf fields)
    hdepth nofun
  obtain ⟨t, ht⟩ := exists_render_textsOf h.ne_nil
  rw [List.append_nil, ht, reread_textsOf h] at hread
  have hdecode := Utf8.decodeAll_encode (CodePoint.ofChar '\x7b' :: CodePoint.ofChar '"' :: t)
  have hbytes : Utf8.encode (CodePoint.ofChar '\x7b' :: CodePoint.ofChar '"' :: t) =
      0x7B :: 0x22 :: Utf8.encode t := rfl
  rw [hbytes] at hdecode
  rw [ht, hbytes, Body.read, Encoding.detect_object]
  simp only [List.isEmpty_cons, Bool.false_eq_true, if_false, Encoding.decode?, hdecode, hread]

theorem isUnpaired_name (f : SourceFormat) : Text.IsUnpaired f.name := by
  cases f <;> decide

theorem formatField?_name {value : Json} {f : SourceFormat}
    (h : value.field? "format" = some (.text f.name)) : formatField? value = some f := by
  rw [formatField?, h]
  cases f <;> rfl

theorem isUnpaired_of_isStorable {t : Text} (h : t.IsStorable) : t.IsUnpaired := by
  refine List.Pairwise.isChain (List.pairwise_of_forall_mem_list ?_)
  intro c hc d _ hpair
  have hsurrogate := Json.isSurrogate_of_isHighSurrogate hpair.1
  rw [h.no_surrogate c hc] at hsurrogate
  exact Bool.false_ne_true hsurrogate

/-- The request for an analysis holds the config, unless surrogates in it make pairs. -/
theorem AnalyzeRequest.holds_toRequest {r : AnalyzeRequest} (h : r.config.IsUnpaired) :
    Body.holds? ofJson? r.toRequest.body = some r := by
  have hnames : List.Nodup [Text.ofString "config", "format"] ∧
      ∀ name ∈ [Text.ofString "config", "format"], name.IsUnpaired := by
    decide
  have hkept : AreKept [("config", r.config), ("format", r.format.name)] :=
    ⟨List.cons_ne_nil _ _, hnames, List.forall_mem_cons.mpr
      ⟨h, List.forall_mem_singleton.mpr (isUnpaired_name _)⟩⟩
  have hread : Body.read r.toRequest.body = .json (textsOf _) := Body.read_textsOf hkept
  have hformat := @formatField?_name (textsOf [("config", r.config), ("format", r.format.name)]) _ rfl
  rw [Body.holds?, hread]
  simp only [ofJson?, hformat]
  rfl

/-- The request for a comparison holds both configs, unless surrogates in them make pairs. -/
theorem DiffRequest.holds_toRequest {r : DiffRequest} (hold : r.oldConfig.IsUnpaired)
    (hnew : r.newConfig.IsUnpaired) : Body.holds? ofJson? r.toRequest.body = some r := by
  have hnames : List.Nodup [Text.ofString "oldConfig", "newConfig", "format"] ∧
      ∀ name ∈ [Text.ofString "oldConfig", "newConfig", "format"], name.IsUnpaired := by
    decide
  have hkept : AreKept [("oldConfig", r.oldConfig), ("newConfig", r.newConfig),
      ("format", r.format.name)] :=
    ⟨List.cons_ne_nil _ _, hnames, List.forall_mem_cons.mpr ⟨hold, List.forall_mem_cons.mpr
      ⟨hnew, List.forall_mem_singleton.mpr (isUnpaired_name _)⟩⟩⟩
  have hread : Body.read r.toRequest.body = .json (textsOf _) := Body.read_textsOf hkept
  have hformat := @formatField?_name (textsOf [("oldConfig", r.oldConfig),
    ("newConfig", r.newConfig), ("format", r.format.name)]) _ rfl
  rw [Body.holds?, hread]
  simp only [ofJson?, hformat]
  rfl

/-! ## Answers -/

/-- That a response carries a report: of a success or of a failure. -/
structure Response.Carries (report : Json) (isOk : Bool) (r : Response) : Prop where
  writable : report.IsWritable Style.compact
  status : r.status = if isOk then 200 else 400
  body : r.body = Json.render Style.compact report

theorem Response.Carries.readers {report : Json} {isOk : Bool} {r : Response}
    (h : r.Carries report isOk) (readers : Option Text) :
    Carries report isOk { r with allowOrigin := readers } :=
  ⟨h.writable, h.status, h.body⟩

/-- An answer that is no server error carries the report of the run that it comes from. -/
theorem Response.exists_carries {α : Type} {run : Except Breakdown (Report α)}
    {toJson : Report α → Json} {response : Response}
    (hbroken : ∀ b, run = .error b → response = serverError [])
    (hdone : ∀ report, run = .ok report →
      ∃ log, response = json (if report.isOk then 200 else 400) (toJson report) log)
    (hstatus : response.status ≠ 500) :
    ∃ report, run = .ok report ∧ response.Carries (toJson report) report.isOk := by
  cases run with
  | error b =>
    rw [hbroken b rfl] at hstatus
    exact absurd rfl hstatus
  | ok report =>
    obtain ⟨log, hanswer⟩ := hdone report rfl
    have hwritable : (toJson report).IsWritable Style.compact := by
      by_contra hunwritable
      rw [hanswer, json_of_not_isWritable hunwritable] at hstatus
      exact hstatus rfl
    refine ⟨report, rfl, ?_⟩
    rw [hanswer, json_of_isWritable hwritable]
    exact ⟨hwritable, rfl, rfl⟩

variable {order : SetOrder}

theorem AnalyzeRequest.exists_carries {r : AnalyzeRequest} (h : (r.answer order).status ≠ 500) :
    ∃ report, Analysis.run order (.text r.format.name) r.config = .ok report ∧
      (r.answer order).Carries (Analysis.toJson report) report.isOk := by
  refine Response.exists_carries ?_ ?_ h
  · intro b hrun
    rw [answer, hrun]
  · intro report hrun
    refine ⟨[r.logLine report], ?_⟩
    rw [answer, hrun]

theorem DiffRequest.exists_carries {r : DiffRequest} (h : (r.answer order).status ≠ 500) :
    ∃ report, Comparison.run order (.text r.format.name) (.text r.format.name) r.oldConfig
        r.newConfig = .ok report ∧
      (r.answer order).Carries (Comparison.toJson report) report.isOk := by
  refine Response.exists_carries ?_ ?_ h
  · intro b hrun
    rw [answer, hrun]
  · intro report hrun
    refine ⟨[r.logLine report], ?_⟩
    rw [answer, hrun]

/-- A request is answered as its endpoint answers what its body holds; who reads the answer is
left open. -/
theorem served_eq {α : Type} {settings : Settings} {q : Request} {e : Endpoint}
    {response : Response} {usage : Text} {ofJson? : Json → Option α} {answer : α → Response}
    {request : α} (hreaches : q.Reaches e)
    (hendpoint : e.answer order q.body = answerBody usage ofJson? answer q.body)
    (hbody : Body.holds? ofJson? q.body = some request)
    (hserve : serve order settings q = .ok response) :
    ∃ readers, response = { answer request with allowOrigin := readers } := by
  obtain ⟨readers, hanswer⟩ := serve_of_reaches order settings hreaches
  rw [hserve, hendpoint, answerBody_of_holds hbody, Except.ok.injEq] at hanswer
  exact ⟨readers, hanswer⟩

/-- The request for an analysis is answered. -/
theorem AnalyzeRequest.serve_toRequest (order : SetOrder) (settings : Settings)
    {r : AnalyzeRequest} (h : r.config.IsUnpaired) :
    ∃ response, serve order settings r.toRequest = .ok response ∧
      response.status = (r.answer order).status ∧ response.body = (r.answer order).body := by
  obtain ⟨readers, hserve⟩ := serve_of_reaches order settings r.reaches_toRequest
  obtain ⟨readers', hanswer⟩ := served_eq r.reaches_toRequest rfl (holds_toRequest h) hserve
  exact ⟨_, hserve.trans (congrArg _ hanswer), rfl, rfl⟩

/-- The request for a comparison is answered. -/
theorem DiffRequest.serve_toRequest (order : SetOrder) (settings : Settings) {r : DiffRequest}
    (hold : r.oldConfig.IsUnpaired) (hnew : r.newConfig.IsUnpaired) :
    ∃ response, serve order settings r.toRequest = .ok response ∧
      response.status = (r.answer order).status ∧ response.body = (r.answer order).body := by
  obtain ⟨readers, hserve⟩ := serve_of_reaches order settings r.reaches_toRequest
  obtain ⟨readers', hanswer⟩ := served_eq r.reaches_toRequest rfl (holds_toRequest hold hnew) hserve
  exact ⟨_, hserve.trans (congrArg _ hanswer), rfl, rfl⟩

/-! ## Agreement -/

/-- That a response and a run tell the same: the exit code fits the status, and the body and the
standard output are read as one value. -/
structure Response.AgreesWith (r : Response) (o : Outcome) : Prop where
  exit : r.status = 200 ∧ o.exit = 0 ∨ r.status = 400 ∧ o.exit = 1
  value : ∃ v, Json.read r.body = .ok v ∧ Json.read o.stdout = .ok v

/-- A report is read as one value from both layouts. -/
theorem Response.Carries.agreesWith {report : Json} {isOk : Bool} {r : Response}
    (h : r.Carries report isOk) (hdepth : report.nesting ≤ Json.nestingLimit) (stderr : Text) :
    r.AgreesWith ⟨Json.render Style.readable report ++ "\n", stderr, if isOk then 0 else 1⟩ := by
  have hblank : Json.IsBlank "\n" := by
    show ∀ c ∈ Text.ofString "\n", Json.isSpace c = true
    decide
  have hcompact := @Json.read_render _ _ [] Json.hasColon_compact h.writable hdepth nofun
  rw [List.append_nil, ← h.body] at hcompact
  refine ⟨?_, report.reread, hcompact,
    Json.read_render Json.hasColon_readable h.writable.of_compact hdepth hblank⟩
  rw [h.status]
  cases isOk with
  | true => exact .inl ⟨rfl, rfl⟩
  | false => exact .inr ⟨rfl, rfl⟩

/-- **The command line and the service agree.** Take texts that files give back, and whose sets
both programs go through in the same orders, as any two do if no set has two members. If the
service answers a request for an analysis or a comparison of them with a report or with errors, a
run on such files that is asked for the same in JSON does not break off, ends with the exit code
that fits, and prints the value that the service sends. The threshold of the log has to be known:
without one neither program starts. -/
theorem agrees_of_served (order : SetOrder) (w : Surroundings) (settings : Settings)
    {threshold : LogLevel} (hlevel : LogLevel.ofName? w.settings.logLevel = some threshold) :
    (∀ (f : SourceFormat) (t : Text), (∀ members ∈ f.sets t, members.length ≤ 1) →
      order.AgreesOn w.order f t) ∧
    (∀ (q : Request) (r : AnalyzeRequest) (file : Text) (response : Response),
      q.Reaches .analyze → Body.holds? AnalyzeRequest.ofJson? q.body = some r →
        order.AgreesOn w.order r.format r.config →
          r.config.IsStorable → w.Holds analyzeGrammar file r.config →
            serve order settings q = .ok response →
              response.status = 200 ∨ response.status = 400 →
                ∃ outcome, CommandLine.run w (arguments analyzeName [file] r.format) =
                  .ok outcome ∧ response.AgreesWith outcome) ∧
      ∀ (q : Request) (r : DiffRequest) (old new : Text) (response : Response),
        q.Reaches .diff → Body.holds? DiffRequest.ofJson? q.body = some r →
          order.AgreesOn w.order r.format r.oldConfig →
            order.AgreesOn w.order r.format r.newConfig →
              r.oldConfig.IsStorable → w.Holds diffGrammar old r.oldConfig →
                r.newConfig.IsStorable → w.Holds diffGrammar new r.newConfig →
                  serve order settings q = .ok response →
                    response.status = 200 ∨ response.status = 400 →
                      ∃ outcome, CommandLine.run w (arguments diffName [old, new] r.format) =
                        .ok outcome ∧ response.AgreesWith outcome := by
  have hserved : ∀ {response : Response}, response.status = 200 ∨ response.status = 400 →
      response.status ≠ 500 := by
    intro response h
    omega
  refine ⟨fun f t => SetOrder.agreesOn_of_length_le_one, ?_, ?_⟩
  · intro q r file response hreaches hbody hsets hstorable hholds hserve hstatus
    obtain ⟨readers, rfl⟩ := served_eq hreaches rfl hbody hserve
    obtain ⟨report, hrun, hcarries⟩ := AnalyzeRequest.exists_carries (hserved hstatus)
    rw [Analysis.run_congr (SourceFormat.ofValue_name r.format) hsets] at hrun
    obtain ⟨stderr, houtcome⟩ :=
      CommandLine.run_analyze hlevel hholds hstorable hrun hcarries.writable.of_compact
    exact ⟨_, houtcome, (hcarries.readers readers).agreesWith
      ((Analysis.nesting_toJson_le report).trans (by decide)) stderr⟩
  · intro q r old new response hreaches hbody hsetsOld hsetsNew hs hold ht hnew hserve hstatus
    obtain ⟨readers, rfl⟩ := served_eq hreaches rfl hbody hserve
    obtain ⟨report, hrun, hcarries⟩ := DiffRequest.exists_carries (hserved hstatus)
    have hformat := SourceFormat.ofValue_name r.format
    rw [Comparison.run_congr hformat hformat hsetsOld hsetsNew] at hrun
    exact ⟨_, CommandLine.run_diff hlevel hold hs hnew ht hrun hcarries.writable.of_compact,
      (hcarries.readers readers).agreesWith
        ((Comparison.nesting_toJson_le report).trans (by decide)) []⟩

/-- A service whose name has two, three and four bytes to a code point, and which depends on a set
of one service. -/
def accentedService : AnalyzeRequest where
  config := "services:\n- name: é→😀\n  type: db\n  dependsOn: !!set \x7bb\x7d\n"
  format := .yaml

/-- A service that depends on a set of two services. -/
def forkedService : AnalyzeRequest where
  config := "services:\n- name: a\n  type: api\n  dependsOn: !!set \x7bb, c\x7d\n"
  format := .yaml

/-- A directory with the configs of a request each, and nothing else. -/
def sampleFiles : Directory where
  files := [(["accented.yaml"], Utf8.encode accentedService.config),
    (["forked.yaml"], Utf8.encode forkedService.config),
    (["old.yaml"], Utf8.encode misshapenConfigs.oldConfig),
    (["new.yaml"], Utf8.encode misshapenConfigs.newConfig)]
  directories := []

/-- A run beside these files, by a process that goes through sets backwards. -/
def besideSamples : Surroundings :=
  ⟨Settings.standard, Path.ofText "/home", sampleFiles.read, .backwards⟩

/-- A config with long code points is analysed, and two texts that are no configs are refused,
by both alike: no set has two members, so it does not matter that the service goes through sets as
they are written. -/
theorem agrees_of_accented_service :
    (∃ response outcome,
      serve .asWritten Settings.standard accentedService.toRequest = .ok response ∧
        response.status = 200 ∧
        CommandLine.run besideSamples (arguments analyzeName ["accented.yaml"] .yaml) =
          .ok outcome ∧
        response.AgreesWith outcome) ∧
      ∃ response outcome,
        serve .asWritten Settings.standard misshapenConfigs.toRequest = .ok response ∧
          response.status = 400 ∧
          CommandLine.run besideSamples (arguments diffName ["old.yaml", "new.yaml"] .yaml) =
            .ok outcome ∧
          response.AgreesWith outcome := by
  have hlevel : LogLevel.ofName? besideSamples.settings.logLevel = some .info := by decide
  obtain ⟨halike, hanalyze, hdiff⟩ :=
    agrees_of_served .asWritten besideSamples Settings.standard hlevel
  constructor
  · have hstorable : accentedService.config.IsStorable := by decide
    have hunpaired := isUnpaired_of_isStorable hstorable
    obtain ⟨response, hserve, hanswer, -⟩ :=
      AnalyzeRequest.serve_toRequest .asWritten Settings.standard hunpaired
    have hstatus : response.status = 200 := hanswer.trans (by decide +kernel)
    have hsets : SetOrder.asWritten.AgreesOn besideSamples.order .yaml accentedService.config :=
      halike _ _ (by decide +kernel)
    have hholds : besideSamples.Holds analyzeGrammar "accented.yaml" accentedService.config := by
      decide +kernel
    obtain ⟨outcome, hrun, hagrees⟩ :=
      hanalyze accentedService.toRequest accentedService "accented.yaml" response
        accentedService.reaches_toRequest (AnalyzeRequest.holds_toRequest hunpaired) hsets hstorable
        hholds hserve (.inl hstatus)
    exact ⟨response, outcome, hserve, hstatus, hrun, hagrees⟩
  · have hs : misshapenConfigs.oldConfig.IsStorable := by decide
    have ht : misshapenConfigs.newConfig.IsStorable := by decide
    have hunpairedOld := isUnpaired_of_isStorable hs
    have hunpairedNew := isUnpaired_of_isStorable ht
    obtain ⟨response, hserve, hanswer, -⟩ :=
      DiffRequest.serve_toRequest .asWritten Settings.standard hunpairedOld hunpairedNew
    have hstatus : response.status = 400 := hanswer.trans (by decide +kernel)
    have hsets : ∀ t ∈ [misshapenConfigs.oldConfig, misshapenConfigs.newConfig],
        ∀ members ∈ SourceFormat.yaml.sets t, members.length ≤ 1 := by
      decide +kernel
    have hold : besideSamples.Holds diffGrammar "old.yaml" misshapenConfigs.oldConfig := by
      decide +kernel
    have hnew : besideSamples.Holds diffGrammar "new.yaml" misshapenConfigs.newConfig := by
      decide +kernel
    obtain ⟨outcome, hrun, hagrees⟩ :=
      hdiff misshapenConfigs.toRequest misshapenConfigs "old.yaml" "new.yaml" response
        misshapenConfigs.reaches_toRequest
        (DiffRequest.holds_toRequest hunpairedOld hunpairedNew)
        (halike _ _ (hsets _ (List.mem_cons_self ..)))
        (halike _ _ (hsets _ (List.mem_cons_of_mem _ (List.mem_singleton_self _))))
        hs hold ht hnew hserve (.inr hstatus)
    exact ⟨response, outcome, hserve, hstatus, hrun, hagrees⟩

/-- The services that the first service of a report depends on. -/
def dependenciesOf (report : Json) : Option (List Text) := do
  match ← (← report.field? "ir").field? "services" with
  | .array (service :: _) =>
    match ← service.field? "dependsOn" with
    | .array names => names.mapM Json.asText?
    | _ => none
  | _ => none

/-- With two members in a set the values differ, if one process goes through the set as it is
written and the other one backwards: the dependencies change places. -/
theorem disagrees_of_forked_service :
    forkedService.toRequest.Reaches .analyze ∧
      Body.holds? AnalyzeRequest.ofJson? forkedService.toRequest.body = some forkedService ∧
      forkedService.config.IsStorable ∧
      besideSamples.Holds analyzeGrammar "forked.yaml" forkedService.config ∧
      ∃ response outcome,
        serve .asWritten Settings.standard forkedService.toRequest = .ok response ∧
          response.status = 200 ∧
          CommandLine.run besideSamples (arguments analyzeName ["forked.yaml"] .yaml) =
            .ok outcome ∧
          ¬response.AgreesWith outcome := by
  have hstorable : forkedService.config.IsStorable := by decide
  have hunpaired := isUnpaired_of_isStorable hstorable
  have hholds : besideSamples.Holds analyzeGrammar "forked.yaml" forkedService.config := by
    decide +kernel
  obtain ⟨response, hserve, hanswer, hbody⟩ :=
    AnalyzeRequest.serve_toRequest .asWritten Settings.standard hunpaired
  have hstatus : response.status = 200 := hanswer.trans (by decide +kernel)
  have hsent : (Json.read (forkedService.answer .asWritten).body).map dependenciesOf =
      .ok (some ["b", "c"]) := by
    decide +kernel
  have hprinted : (CommandLine.run besideSamples
      (arguments analyzeName ["forked.yaml"] .yaml)).map
        (fun outcome => (Json.read outcome.stdout).map dependenciesOf) =
      .ok (.ok (some ["c", "b"])) := by
    decide +kernel
  obtain ⟨outcome, hrun, hprinted⟩ := Outcome.map_eq_ok.mp hprinted
  refine ⟨forkedService.reaches_toRequest, AnalyzeRequest.holds_toRequest hunpaired, hstorable,
    hholds, response, outcome, hserve, hstatus, hrun, ?_⟩
  rintro ⟨-, v, hread, hstdout⟩
  rw [← hbody, hread] at hsent
  rw [hstdout] at hprinted
  -- the dependencies of the one value would be in both orders
  have horders : some [("b" : Text), "c"] = some [("c" : Text), "b"] :=
    Except.ok.inj (hsent.symm.trans hprinted)
  exact absurd horders (by decide)

end TopologyAudit.Http
