import TopologyAudit.Http.Service
import TopologyAudit.Proofs.Record.Printing
import TopologyAudit.Proofs.Report.Comparison

/-!
# Answers to well-formed requests

Once its parsers return, a well-formed request for an analysis or a comparison is answered
by a failure with the errors of the sides that failed, or else by the report. The failure is
always written. The report is not when a port has too many digits or a limit is not
finite: the schema lets both pass, and then the answer is a server error.
-/

namespace TopologyAudit.Http

open Json (Style IsWritable)

/-- The request that a body holds, if it is well-formed. -/
def Body.holds? {α : Type} (ofJson? : Json → Option α) (bytes : List UInt8) : Option α :=
  match read bytes with
  | .json value => ofJson? value
  | _ => none

/-- That a request is for an endpoint. -/
structure Request.Reaches (q : Request) (e : Endpoint) : Prop where
  path : ∃ path, send q = .ok path ∧ endpointAt? path = some e
  method : Text.upper q.method = e.method

/-! ## Responses -/

namespace Response

/-- That a response reports errors. -/
structure IsFailure (errors : List Text) (r : Response) : Prop where
  status : r.status = 400
  body : r.body = Json.render Style.compact (Report.ofErrors (errors.map .text))

/-- That a response refuses configs, each of which parsed or did not: it reports one error for
each that did not, in the order of the configs. -/
structure Refuses (sides : List ParseResult) (r : Response) : Prop where
  failure : r.IsFailure (sides.flatMap ParseResult.messages)
  errors : ∀ x ∈ sides, x.messages.length = if x.isOk then 0 else 1

/-- That a response is a report if it can be written, and a server error if it cannot. -/
structure IsReport (report : Json) (printable : Prop) (r : Response) : Prop where
  written : printable → r.status = 200 ∧ r.body = Json.render Style.compact report
  broken : ¬printable → r.status = 500 ∧ r.body = "Internal Server Error"

variable {status : Nat} {value : Json} {log : List LogLine}

theorem json_of_isWritable (h : value.IsWritable Style.compact) :
    json status value log = of status (Json.render Style.compact value) log := by
  rw [json, Json.print_of_isWritable h]

theorem json_of_not_isWritable (h : ¬value.IsWritable Style.compact) :
    json status value log = serverError log := by
  obtain ⟨e, he⟩ := Json.print_of_not_isWritable h
  rw [json, he]

/-- Who reads a response changes neither its status nor its body. -/
theorem IsFailure.readers {errors : List Text} {r : Response} (h : r.IsFailure errors)
    (readers : Option Text) : IsFailure errors { r with allowOrigin := readers } :=
  ⟨h.status, h.body⟩

theorem IsReport.readers {report : Json} {printable : Prop} {r : Response}
    (h : r.IsReport report printable) (readers : Option Text) :
    IsReport report printable { r with allowOrigin := readers } :=
  ⟨h.written, h.broken⟩

theorem isFailure_json {α : Type} (fields : α → List (Text × Json)) (errors : List Text)
    (log : List LogLine) : (json 400 (Report.toJson fields (.failure errors)) log).IsFailure
      errors := by
  rw [json_of_isWritable (Report.isWritable_toJson.mpr nofun)]
  exact ⟨rfl, rfl⟩

theorem isReport_json {printable : Prop} (h : value.IsWritable Style.compact ↔ printable)
    (log : List LogLine) : (json 200 value log).IsReport value printable := by
  refine ⟨?_, ?_⟩
  · intro hprintable
    rw [json_of_isWritable (h.mpr hprintable)]
    exact ⟨rfl, rfl⟩
  · intro hbroken
    rw [json_of_not_isWritable (mt h.mp hbroken)]
    exact ⟨rfl, rfl⟩

end Response

/-! ## Endpoints -/

theorem answerBody_of_holds {α : Type} {usage : Text} {ofJson? : Json → Option α}
    {answer : α → Response} {bytes : List UInt8} {request : α}
    (h : Body.holds? ofJson? bytes = some request) :
    answerBody usage ofJson? answer bytes = answer request := by
  unfold Body.holds? at h
  unfold answerBody
  split at h
  next value hread =>
    rw [hread]
    simp only [h]
  next => cases h

/-- A request for an endpoint is answered as the endpoint answers its body; what else may
be said of the response is who reads it. -/
theorem serve_of_reaches {q : Request} {e : Endpoint} (order : SetOrder) (settings : Settings)
    (h : q.Reaches e) :
    ∃ readers, serve order settings q =
      .ok { e.answer order q.body with allowOrigin := readers } := by
  obtain ⟨path, hsend, hendpoint⟩ := h.path
  have hroute : route order q path = e.answer order q.body := by
    unfold route
    simp only [hendpoint, h.method, if_true]
  -- no endpoint is asked for its head alone
  have hhead : Text.upper q.method ≠ "HEAD" := by
    rw [h.method]
    cases e <;> decide
  refine ⟨q.origin.filter fun origin : Text =>
    settings.origins.contains origin && (e.answer order q.body).status != 500, ?_⟩
  rw [serve, hsend]
  show Except.ok _ = _
  rw [hroute, if_neg hhead]

section

variable {q : Request} (order : SetOrder) (settings : Settings)

/-- What the service answers to an analysis whose parser returns. -/
theorem serve_analyze {r : AnalyzeRequest} {x : ParseResult}
    (hreaches : q.Reaches .analyze) (hbody : Body.holds? AnalyzeRequest.ofJson? q.body = some r)
    (hx : Topology.parse order (.text r.format.name) r.config = .ok x) :
    ∃ response, serve order settings q = .ok response ∧
      (x.isOk = false → response.Refuses [x]) ∧
      ∀ t, x.value = some t →
        response.IsReport (Analysis.toJson (.success (.ofTopology t)))
          (t.IsPrintable Style.compact) := by
  obtain ⟨readers, hserve⟩ := serve_of_reaches order settings hreaches
  have hanswer : Endpoint.analyze.answer order q.body = r.answer order :=
    answerBody_of_holds hbody
  rw [hanswer, AnalyzeRequest.answer, Analysis.run_of_parsed hx] at hserve
  refine ⟨_, hserve, ?_, ?_⟩
  · intro hfails
    refine ⟨Response.IsFailure.readers ?_ readers,
      List.forall_mem_singleton.mpr (Topology.length_messages_of_parse hx)⟩
    rcases Topology.parse_cases hx with ⟨t, rfl⟩ | ⟨e, rfl⟩
    · cases hfails
    · exact Response.isFailure_json Analysis.fields [e.message] _
  · intro t ht
    obtain rfl := (Topology.isUnmixed_of_parse hx).eq_success ht
    exact (Response.isReport_json
      (Analysis.isWritable_toJson (Topology.isExpressible_of_parse hx)) _).readers readers

/-- What the service answers to a comparison whose parsers return. -/
theorem serve_diff {r : DiffRequest} {x y : ParseResult}
    (hreaches : q.Reaches .diff) (hbody : Body.holds? DiffRequest.ofJson? q.body = some r)
    (hx : Topology.parse order (.text r.format.name) r.oldConfig = .ok x)
    (hy : Topology.parse order (.text r.format.name) r.newConfig = .ok y) :
    ∃ response, serve order settings q = .ok response ∧
      (x.isOk = false ∨ y.isOk = false → response.Refuses [x, y]) ∧
      ∀ s t c, x.value = some s → y.value = some t → c = Comparison.ofTopologies s t →
        response.IsReport (Comparison.toJson (.success c)) (c.IsPrintable Style.compact) := by
  obtain ⟨readers, hserve⟩ := serve_of_reaches order settings hreaches
  have hanswer : Endpoint.diff.answer order q.body = r.answer order := answerBody_of_holds hbody
  rw [hanswer, DiffRequest.answer, Comparison.run_of_parsed hx hy] at hserve
  refine ⟨_, hserve, ?_, ?_⟩
  · intro hfails
    have hmessages : [x, y].flatMap ParseResult.messages = x.messages ++ y.messages := by simp
    refine ⟨Response.IsFailure.readers ?_ readers, List.forall_mem_cons.mpr
      ⟨Topology.length_messages_of_parse hx,
        List.forall_mem_singleton.mpr (Topology.length_messages_of_parse hy)⟩⟩
    rw [Comparison.ofParsed_failure hfails, hmessages]
    exact Response.isFailure_json Comparison.fields _ _
  · rintro s t c hs ht rfl
    obtain rfl := (Topology.isUnmixed_of_parse hx).eq_success hs
    obtain rfl := (Topology.isUnmixed_of_parse hy).eq_success ht
    exact (Response.isReport_json (Comparison.isWritable_toJson
      (Topology.isExpressible_of_parse hx) (Topology.isExpressible_of_parse hy)) _).readers readers

end

/-- **Well-formed requests.** A well-formed request whose parsers return is answered. If a
side fails, the answer is a failure with one error for each side that fails, the earlier
side's first. If every side parses, it is the report exactly when the report can be written,
and a server error when it cannot. -/
theorem answers_of_parsed (order : SetOrder) (settings : Settings) (q : Request) :
    (∀ (r : AnalyzeRequest) (x : ParseResult),
      q.Reaches .analyze → Body.holds? AnalyzeRequest.ofJson? q.body = some r →
        Topology.parse order (.text r.format.name) r.config = .ok x →
          ∃ response, serve order settings q = .ok response ∧
            (x.isOk = false → response.Refuses [x]) ∧
            ∀ t, x.value = some t → response.IsReport (Analysis.toJson (.success (.ofTopology t)))
              (t.IsPrintable Style.compact)) ∧
      ∀ (r : DiffRequest) (x y : ParseResult),
        q.Reaches .diff → Body.holds? DiffRequest.ofJson? q.body = some r →
          Topology.parse order (.text r.format.name) r.oldConfig = .ok x →
            Topology.parse order (.text r.format.name) r.newConfig = .ok y →
              ∃ response, serve order settings q = .ok response ∧
                (x.isOk = false ∨ y.isOk = false → response.Refuses [x, y]) ∧
                ∀ s t c, x.value = some s → y.value = some t →
                  c = Comparison.ofTopologies s t →
                    response.IsReport (Comparison.toJson (.success c))
                      (c.IsPrintable Style.compact) := by
  constructor
  · intro r x hreaches hbody hx
    exact serve_analyze order settings hreaches hbody hx
  · intro r x y hreaches hbody hx hy
    exact serve_diff order settings hreaches hbody hx hy

/-- The request that asks for an analysis. -/
def AnalyzeRequest.toRequest (r : AnalyzeRequest) : Request where
  method := "POST"
  target := "/api/analyze"
  body := Utf8.encode (Json.render Style.compact
    (.object [("config", .text r.config), ("format", .text r.format.name)]))
  origin := none

/-- The request that asks for a comparison. -/
def DiffRequest.toRequest (r : DiffRequest) : Request where
  method := "POST"
  target := "/api/diff"
  body := Utf8.encode (Json.render Style.compact
    (.object [("oldConfig", .text r.oldConfig), ("newConfig", .text r.newConfig),
      ("format", .text r.format.name)]))
  origin := none

theorem AnalyzeRequest.reaches_toRequest (r : AnalyzeRequest) : r.toRequest.Reaches .analyze := by
  refine ⟨⟨Utf8.encode "/api/analyze", rfl, by decide +kernel⟩, ?_⟩
  show Text.upper "POST" = Endpoint.analyze.method
  decide

theorem DiffRequest.reaches_toRequest (r : DiffRequest) : r.toRequest.Reaches .diff := by
  refine ⟨⟨Utf8.encode "/api/diff", rfl, by decide +kernel⟩, ?_⟩
  show Text.upper "POST" = Endpoint.diff.method
  decide

/-- A service whose port and limits have a form in every style. -/
def limitedService : AnalyzeRequest where
  config :=
    "services:\n- name: a\n  type: api\n  network:\n  - host: h\n    port: 80\n    protocol: https\n  resourceLimits:\n    cpu: 0.5\n    memoryMb: 512\n"
  format := .yaml

/-- Two texts that are no configs. -/
def misshapenConfigs : DiffRequest := ⟨"0", "services: 0", .yaml⟩

/-- A config is analysed; of two texts that are no configs each is refused for its own
reason. -/
theorem answers_of_limited_service :
    (∃ response, serve .asWritten Settings.standard limitedService.toRequest = .ok response ∧
      response.status = 200) ∧
      ∃ response, serve .asWritten Settings.standard misshapenConfigs.toRequest = .ok response ∧
        response.IsFailure [ParseError.message (.schema [⟨[], .notMapping "ConfigDocument"⟩]),
          ParseError.message (.schema [⟨[.key "services"], .notList⟩])] := by
  constructor
  · obtain ⟨t, ht, hprintable⟩ := Result.exists_of_passes
      (p := fun t : Topology => decide (t.IsPrintable Style.compact))
      (x := Topology.parse .asWritten (.text limitedService.format.name) limitedService.config)
      (by decide +kernel)
    obtain ⟨response, hserve, -, hreport⟩ :=
      (answers_of_parsed .asWritten Settings.standard limitedService.toRequest).1 limitedService
        (.success t) limitedService.reaches_toRequest (by decide +kernel) ht
    exact ⟨response, hserve, ((hreport t rfl).written (of_decide_eq_true hprintable)).1⟩
  · obtain ⟨response, hserve, hrefuses, -⟩ :=
      (answers_of_parsed .asWritten Settings.standard misshapenConfigs.toRequest).2
        misshapenConfigs (.failure [.schema [⟨[], .notMapping "ConfigDocument"⟩]])
        (.failure [.schema [⟨[.key "services"], .notList⟩]]) misshapenConfigs.reaches_toRequest
        (by decide +kernel) (by decide +kernel) (by decide +kernel)
    exact ⟨response, hserve, (hrefuses (.inl rfl)).failure⟩

/-- A service with limits that are doubles, but not finite. -/
def boundlessService : AnalyzeRequest where
  config :=
    "services:\n- name: a\n  type: api\n  resourceLimits:\n    cpu: .nan\n    memoryMb: .inf\n"
  format := .yaml

/-- The schema lets these limits pass, but their report is not written. -/
theorem serverError_of_boundless_service :
    boundlessService.toRequest.Reaches .analyze ∧
      Body.holds? AnalyzeRequest.ofJson? boundlessService.toRequest.body =
        some boundlessService ∧
      (∃ t, Topology.parse .asWritten (.text boundlessService.format.name) boundlessService.config =
        .ok (.success t)) ∧
      ∃ response, serve .asWritten Settings.standard boundlessService.toRequest = .ok response ∧
        response.status = 500 := by
  have hreaches := boundlessService.reaches_toRequest
  have hbody : Body.holds? AnalyzeRequest.ofJson? boundlessService.toRequest.body =
      some boundlessService := by
    decide +kernel
  obtain ⟨t, ht, hbroken⟩ := Result.exists_of_passes
    (p := fun t : Topology => decide ¬t.IsPrintable Style.compact)
    (x := Topology.parse .asWritten (.text boundlessService.format.name) boundlessService.config)
    (by decide +kernel)
  obtain ⟨response, hserve, -, hreport⟩ := serve_analyze .asWritten Settings.standard hreaches hbody ht
  exact ⟨hreaches, hbody, ⟨t, ht⟩, response, hserve,
    ((hreport t rfl).broken (of_decide_eq_true hbroken)).1⟩

end TopologyAudit.Http
