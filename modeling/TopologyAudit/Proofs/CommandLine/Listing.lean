import TopologyAudit.Proofs.CommandLine.Inspection
import TopologyAudit.Proofs.CommandLine.Printing

/-!
# One line per violation

The report of an analysis for reading has three lines at the head, and then a line that nothing
was found, or a line that counts the violations and one line for each of them. A line tells its
violation: the severity and the rule come first, the description comes last, and whatever stands
between them is the name (`Violation.ofLine?_line`).

Lines end with line feeds, and a name may hold some. Such a name is printed as it is, and its
line falls apart. So the lines of the output are those of the report exactly when no violation
is attributed to a name with a line feed (`lists_violations_iff`).
-/

namespace TopologyAudit

/-! ## Lines of a text -/

namespace Text

/-- The lines of a text. Each of them ends with a line feed. -/
def lines (t : Text) : List Text := (splitOn '\n' t).dropLast

theorem length_lines (t : Text) : (lines t).length = t.count (CodePoint.ofChar '\n') := by
  rw [lines, List.length_dropLast, length_splitOn, Nat.add_sub_cancel]

end Text

open Text (lines)

namespace CommandLine

/-- Each line brings one line feed more than it has. -/
theorem count_joinLines (ls : List Text) :
    (joinLines ls).count (CodePoint.ofChar '\n') =
      ls.flatten.count (CodePoint.ofChar '\n') + ls.length := by
  induction ls with
  | nil => rfl
  | cons l ls ih =>
    rw [joinLines_cons, List.count_append, List.count_cons_self, ih, List.flatten_cons,
      List.count_append, List.length_cons]
    omega

/-- **Joined lines come apart again** when there is no line feed within them. -/
theorem lines_joinLines_iff {ls : List Text} :
    lines (joinLines ls) = ls ↔ ∀ l ∈ ls, CodePoint.ofChar '\n' ∉ l := by
  constructor
  · -- the number of lines leaves no room for a line feed more
    intro h l hl hmem
    have hlength := congrArg List.length h
    rw [Text.length_lines, count_joinLines] at hlength
    have hpos := List.count_pos_iff.mpr (List.mem_flatten_of_mem hl hmem)
    omega
  · intro h
    induction ls with
    | nil => rfl
    | cons l ls ih =>
      obtain ⟨hl, hls⟩ := List.forall_mem_cons.mp h
      rw [joinLines_cons, lines, Text.splitOn_append_separator hl,
        List.dropLast_cons_of_ne_nil (Text.splitOn_ne_nil _ _)]
      exact congrArg (l :: ·) (ih hls)

end CommandLine

/-! ## Lines of violations -/

namespace Hazard

variable {h h' : Hazard}

/-- What stands in front of the name in the line of a violation. -/
def lineStart (h : Hazard) : Text := "  [" ++ Text.upper h.severity.name ++ "] " ++ h.id ++ " @ "

/-- What stands behind the name in the line of a violation. -/
def lineEnd (h : Hazard) : Text := " -> " ++ h.rule.description

theorem line_violation (h : Hazard) (s : Service) :
    (h.violation s).line = h.lineStart ++ (s.name ++ h.lineEnd) := by
  simp only [Violation.line, violation, lineStart, lineEnd, List.append_assoc]

/-- The start of a line tells the hazard. -/
theorem eq_of_lineStart_isPrefix {t : Text} (hstart : h'.lineStart <+: h.lineStart ++ t) :
    h' = h := by
  have hapart : ∀ a b : Hazard, a.lineStart <+: b.lineStart → a = b := by decide +kernel
  rcases List.prefix_or_prefix_of_prefix hstart (List.prefix_append ..) with hle | hle
  · exact hapart _ _ hle
  · exact (hapart _ _ hle).symm

/-- Reads a line that tells of the hazard. -/
def readLine? (h : Hazard) (l : Text) : Option Violation := do
  let rest ← l.dropPrefix? h.lineStart
  let name ← rest.dropSuffix? h.lineEnd
  return ⟨h.id, h.rule.description, name, h.severity⟩

theorem readLine?_line (h : Hazard) (s : Service) :
    h.readLine? (h.violation s).line = some (h.violation s) := by
  have hstart : (h.violation s).line.dropPrefix? h.lineStart = some (s.name ++ h.lineEnd) :=
    List.dropPrefix?_eq_some_iff.mpr ⟨_, h.line_violation s, BEq.rfl⟩
  have hend : (s.name ++ h.lineEnd).dropSuffix? h.lineEnd = some s.name :=
    List.dropSuffix?_eq_some_iff.mpr ⟨_, rfl, BEq.rfl⟩
  rw [readLine?, hstart, Option.bind_eq_bind, Option.bind_some, hend]
  rfl

/-- A line is not read as that of another hazard. -/
theorem eq_of_readLine?_line {s : Service} {v : Violation}
    (hread : h'.readLine? (h.violation s).line = some v) : h' = h := by
  obtain ⟨rest, hrest, -⟩ := Option.bind_eq_some_iff.mp hread
  obtain ⟨start, hline, hstart⟩ := List.dropPrefix?_eq_some_iff.mp hrest
  rw [line_violation, eq_of_beq hstart] at hline
  exact eq_of_lineStart_isPrefix ⟨rest, hline.symm⟩

end Hazard

/-- Reads the line of a violation. -/
def Violation.ofLine? (l : Text) : Option Violation := Hazard.all.findSome? fun h => h.readLine? l

/-- **A line tells its violation**, whatever the name of the service is. -/
theorem Violation.ofLine?_line {t : Topology} {v : Violation} (hv : v ∈ t.audit) :
    ofLine? v.line = some v := by
  obtain ⟨s, -, h, -, rfl⟩ := Topology.mem_audit.mp hv
  have hsome : (ofLine? (h.violation s).line).isSome = true :=
    List.findSome?_isSome_iff.mpr ⟨h, h.mem_all, by rw [h.readLine?_line]; rfl⟩
  obtain ⟨v, hread⟩ := Option.isSome_iff_exists.mp hsome
  obtain ⟨h', -, hread'⟩ := List.exists_of_findSome?_eq_some hread
  obtain rfl := Hazard.eq_of_readLine?_line hread'
  rw [hread, ← hread', h'.readLine?_line]

/-! ## Listings -/

namespace Topology

open CommandLine (joinLines)

/-- The line that says how many violations there are, and how many of each severity. -/
def foundLine (vs : List Violation) : Text :=
  let count (g : Severity) := Text.ofNat (vs.countP fun v => v.severity = g)
  "Found " ++ Text.ofNat vs.length ++ " violation(s) (high=" ++ count .high ++ ", medium="
    ++ count .medium ++ ", low=" ++ count .low ++ "):"

theorem countLine_eq_foundLine (vs : List Violation) : Analysis.countLine vs = foundLine vs := by
  simp only [foundLine, ← Summary.count_ofViolations]
  rfl

/-- That an output consists of lines that list the violations of a topology: three lines stand at
the head, and then one that nothing was found, or one that counts the violations and one for each
of them, which tells it. -/
structure IsListedIn (t : Topology) (output : Text) : Prop where
  ended : joinLines (lines output) = output
  head : (lines output).take 3 =
    ["Config hash: " ++ t.fingerprintText, "Services: " ++ Text.ofNat t.services.length, []]
  clean : t.audit = [] → (lines output).drop 3 = [("No invariant violations found." : Text)]
  found : t.audit ≠ [] →
    (lines output).drop 3 = foundLine t.audit :: t.audit.map Violation.line
  told : ((lines output).drop 4).map Violation.ofLine? = t.audit.map some

variable {t : Topology} {output : Text}

/-- The lines of the report are the only ones that list the violations. -/
theorem isListedIn_iff :
    t.IsListedIn output ↔
      joinLines (lines output) = output ∧ lines output = (Analysis.ofTopology t).lines := by
  constructor
  · intro h
    refine ⟨h.ended, ?_⟩
    rw [← List.take_append_drop 3 (lines output), h.head, Analysis.lines_ofTopology]
    split
    next hclean => rw [h.clean hclean]
    next hfound => rw [h.found hfound, countLine_eq_foundLine]
  · rintro ⟨hended, hlines⟩
    have htold : (t.audit.map Violation.line).map Violation.ofLine? = t.audit.map some := by
      rw [List.map_map]
      exact List.map_congr_left fun v hv => Violation.ofLine?_line hv
    rw [Analysis.lines_ofTopology] at hlines
    by_cases hclean : t.audit = []
    · rw [if_pos hclean] at hlines
      refine ⟨hended, ?_, fun _ => ?_, fun hfound => absurd hclean hfound, ?_⟩
      · rw [hlines]; rfl
      · rw [hlines]; rfl
      · rw [hlines, hclean]; rfl
    · rw [if_neg hclean, countLine_eq_foundLine] at hlines
      refine ⟨hended, ?_, fun h => absurd h hclean, fun _ => ?_, ?_⟩
      · rw [hlines]; rfl
      · rw [hlines]; rfl
      · rw [hlines]; exact htold

end Topology

namespace CommandLine

variable {w : Surroundings} {threshold : LogLevel} {format : Option Text} {file : Text}
  {gate : Option Severity} {o : Outcome} {t : Topology}

/-- What is printed for reading of a file that parses: the report, line by line. -/
theorem stdout_of_parses
    (hrun : runCommand w threshold (.analyze (some file) format gate false) = .ok o)
    (ht : w.Parses format file (.success t)) : o.stdout = joinLines (Analysis.ofTopology t).lines := by
  rcases runCommand_analyze_eq_ok.mp hrun with ⟨m, hm, -⟩ | ⟨x, hx, houtcome⟩
  · exact absurd ht hm.not_parses
  · obtain rfl := hx.eq ht
    exact (printable_eq_ok.mp (analysisOutcome_success.mp houtcome).1).2

/-- The output lists the violations when no line feed is in a name. -/
theorem isListedIn_joinLines_iff (ht : w.Parses format file (.success t)) :
    t.IsListedIn (joinLines (Analysis.ofTopology t).lines) ↔
      ∀ v ∈ t.audit, CodePoint.ofChar '\n' ∉ v.service := by
  obtain ⟨_, -, hparse⟩ := ht
  have hfeed := Analysis.mem_lines_iff (t.isGraphic_fingerprintText hparse)
    (c := CodePoint.ofChar '\n') (by decide)
  -- lines that come back make up the output again
  rw [Topology.isListedIn_iff, and_iff_right_of_imp (congrArg joinLines), lines_joinLines_iff]
  simpa using not_congr hfeed

/-- **One line per violation.** Where a run prints the analysis of a config for reading, the output
lists the violations line by line exactly when none of them is attributed to a name with a line
feed. -/
theorem lists_violations_iff
    (hrun : runCommand w threshold (.analyze (some file) format gate false) = .ok o)
    (ht : w.Parses format file (.success t)) :
    t.IsListedIn o.stdout ↔ ∀ v ∈ t.audit, CodePoint.ofChar '\n' ∉ v.service := by
  rw [stdout_of_parses hrun ht]
  exact isListedIn_joinLines_iff ht

/-- The config of a service about which nothing is said but its name, spelt in JSON. -/
def configNamed (name : Text) : Text :=
  "\x7b\"services\":[\x7b\"name\":\"" ++ name ++ "\",\"type\":\"api\"\x7d]\x7d"

/-- A run beside such a config. -/
def besideNamed (name : Text) : Surroundings := .beside [("a.json", Utf8.encode (configNamed name))]

/-- Such a run prints the analysis of the service. -/
theorem exists_analysis_of_named (name service : Text)
    (hread : readConfig (besideNamed name) (Path.ofText "a.json") = .ok (.ok (configNamed name)))
    (hparse : Result.passes (fun t : Topology => t.audit.map (·.service) == [service])
      (Topology.parse .asWritten (.text "json") (configNamed name)) = true)
    (hprint : ∀ c ∈ service, c.isSurrogate = false) :
    ∃ t o, (besideNamed name).Parses none "a.json" (.success t) ∧
      runCommand (besideNamed name) .info (.analyze (some "a.json") none none false) = .ok o ∧
      t.audit.map (·.service) = [service] := by
  obtain ⟨t, hparse, ht⟩ := Result.exists_of_passes hparse
  have hservices := eq_of_beq ht
  have hprintable : ∀ v ∈ t.audit, v.IsPrintable := by
    intro v hv
    have hservice := List.mem_map_of_mem (f := (·.service)) hv
    rw [hservices, List.mem_singleton] at hservice
    rwa [Violation.IsPrintable, hservice]
  obtain ⟨stdout, hstdout⟩ :=
    (exists_printable_analysis_iff (t.isGraphic_fingerprintText hparse)).mpr hprintable
  have hparses : (besideNamed name).Parses none "a.json" (.success t) := ⟨_, hread, hparse⟩
  have houtcome : analysisOutcome .info (Path.ofText "a.json") none false
      (.success (Analysis.ofTopology t)) = .ok ⟨stdout, [], 0⟩ :=
    analysisOutcome_success.mpr ⟨hstdout, rfl, rfl⟩
  exact ⟨t, _, hparses, runCommand_analyze_eq_ok.mpr (.inr ⟨_, hparses, houtcome⟩), hservices⟩

/-- A name that looks like parts of a line is read back from its line. -/
theorem lists_violation_of_misleading_name :
    ∃ t o, (besideNamed "a @ b -> c").Parses none "a.json" (.success t) ∧
      runCommand (besideNamed "a @ b -> c") .info (.analyze (some "a.json") none none false) =
        .ok o ∧
      t.audit.map (·.service) = [("a @ b -> c" : Text)] ∧ t.IsListedIn o.stdout := by
  obtain ⟨t, o, ht, ho, hservices⟩ := exists_analysis_of_named "a @ b -> c" "a @ b -> c"
    (by decide +kernel) (by decide +kernel) (by decide)
  refine ⟨t, o, ht, ho, hservices, (lists_violations_iff ho ht).mpr fun v hv => ?_⟩
  have hservice := List.mem_map_of_mem (f := (·.service)) hv
  rw [hservices, List.mem_singleton] at hservice
  rw [hservice]
  decide

/-- A name with a line feed: the line of the violation falls apart. -/
theorem not_lists_violation_of_broken_name :
    ∃ t o, (besideNamed "a\\nb").Parses none "a.json" (.success t) ∧
      runCommand (besideNamed "a\\nb") .info (.analyze (some "a.json") none none false) = .ok o ∧
      t.audit.map (·.service) = [("a\nb" : Text)] ∧ ¬t.IsListedIn o.stdout := by
  obtain ⟨t, o, ht, ho, hservices⟩ := exists_analysis_of_named "a\\nb" "a\nb"
    (by decide +kernel) (by decide +kernel) (by decide)
  refine ⟨t, o, ht, ho, hservices, fun hlisted => ?_⟩
  rw [stdout_of_parses ho ht, isListedIn_joinLines_iff ht] at hlisted
  obtain ⟨v, hv, hservice⟩ := List.mem_map.mp (hservices ▸ List.mem_singleton_self _)
  exact hlisted v hv (by rw [hservice]; decide)

end CommandLine

end TopologyAudit
