import TopologyAudit.Proofs.Audit.Likeness
import TopologyAudit.Proofs.Record.Flow
import TopologyAudit.Proofs.Record.Recovery
import TopologyAudit.Proofs.Report.Comparison
import TopologyAudit.Proofs.Source.Containment
import TopologyAudit.Proofs.Yaml.Flow.Document

/-!
# A written topology is a config in both formats

On one line a topology is written as JSON that is YAML as well. Both loaders come to the tree
of its wire form, apart from the fingerprint in its metadata, which the schema does not look
at. So both formats lead to the same services, and a comparison of the text with itself across
them finds nothing.
-/

namespace TopologyAudit

open Json (Style)

variable {order : SetOrder} {t : Topology}

namespace Topology

/-- The wire form of a topology is an object. -/
theorem isCollection_wire (t : Topology) : t.wire.IsCollection := .object _

/-- What JSON loads from a topology on one line. -/
theorem load_json (hexpress : t.IsExpressible) (hprint : t.IsPrintable Style.compact)
    (hunpaired : t.IsUnpaired) :
    ∃ tree, SourceFormat.json.load order (Json.compact t.wire) = .ok (.ok tree) ∧
      Schema.check tree = .ok t.services := by
  have hread := @Json.read_render Style.compact t.wire [] Json.hasColon_compact
    ((isWritable_wire hexpress).mpr hprint) (Nat.le_trans t.nesting_wire_le (by decide)) nofun
  rw [List.append_nil] at hread
  refine ⟨Tree.ofJson t.wire.reread, ?_, ?_⟩
  · rw [SourceFormat.load, Json.compact, hread]
  · rw [reread_wire hunpaired hprint]
    exact check_wire (t := ⟨t.services, t.metadata.reread⟩) hexpress

/-- What YAML loads from a topology on one line. -/
theorem load_yaml (hexpress : t.IsExpressible) (hprint : t.IsPrintable Style.compact)
    (hbasic : t.IsBasic) (hints : t.HasIntLimits) :
    ∃ tree, SourceFormat.yaml.load order (Json.compact t.wire) = .ok (.ok tree) ∧
      Schema.check tree = .ok t.services := by
  -- the fingerprint is written like one within the basic plane
  let parted : Topology := ⟨t.services, t.metadata.parted⟩
  have hflow : parted.wire.IsFlow := by
    refine isFlow_wire hexpress hprint hbasic hints fun f hf => ?_
    obtain ⟨given, -, rfl⟩ := Option.mem_map.mp hf
    exact Text.isBasic_parted given
  have hnesting : parted.wire.nesting ≤ 5 := parted.nesting_wire_le
  have hread : Yaml.Document.read order Schema.depth (Json.compact t.wire) =
      .ok (Tree.ofJson parted.wire) := by
    rw [← compact_wire_parted]
    exact Yaml.Document.read_compact hflow parted.isCollection_wire
      (Nat.lt_of_le_of_lt hnesting (by decide)) hnesting
  refine ⟨Tree.ofJson parted.wire, ?_, check_wire (t := parted) hexpress⟩
  rw [SourceFormat.load, hread]

/-- What the schema accepts of a loaded text. -/
theorem parse_of_checked {format : Value} {f : SourceFormat} {text : Text} {tree : Tree}
    {services : List Service} (hf : SourceFormat.ofValue format = .ok f)
    (hload : f.load order text = .ok (.ok tree)) (hcheck : Schema.check tree = .ok services) :
    parse order format text = .ok (.success ⟨services, ⟨f, some (fingerprint text)⟩⟩) := by
  rw [parse_of_loaded hf hload, ofTree, hcheck]

/-- **The formats agree on a written topology.** Take a topology that configs can express, with
ports that can be written, limits that are integers, and texts within the basic plane in which
no two halves of a surrogate pair stand side by side. On one line its wire form is written, in
ASCII. The text parses to the services of the topology in either format, with one fingerprint;
and between the two formats a comparison of the text with itself counts no violation as
introduced or resolved and shows no change but neutral ones. -/
theorem formats_agree_of_written (order : SetOrder) (t : Topology) (hexpress : t.IsExpressible)
    (hprint : t.IsPrintable Style.compact) (hints : t.HasIntLimits) (hbasic : t.IsBasic)
    (hunpaired : t.IsUnpaired) :
    t.toValue.toWire.map Value.json = .ok t.wire ∧
      ∃ text, Json.print Style.compact t.wire = .ok text ∧ text.IsAscii ∧
        parse order (.text SourceFormat.json.name) text =
          .ok (.success ⟨t.services, ⟨.json, some (fingerprint text)⟩⟩) ∧
        parse order (.text SourceFormat.yaml.name) text =
          .ok (.success ⟨t.services, ⟨.yaml, some (fingerprint text)⟩⟩) ∧
        ∃ c, Comparison.runNamed order (.text SourceFormat.json.name)
            (.text SourceFormat.yaml.name) text text = .ok (.success c) ∧
          c.drift.introduced = 0 ∧ c.drift.resolved = 0 ∧
            ∀ change ∈ c.drift.changes, change.impact = .neutral := by
  have hwritable : t.wire.IsWritable Style.compact := (isWritable_wire hexpress).mpr hprint
  obtain ⟨tree, hload, hcheck⟩ := load_json hexpress hprint hunpaired
  obtain ⟨tree', hload', hcheck'⟩ := load_yaml hexpress hprint hbasic hints
  have hjson := parse_of_checked
    (show SourceFormat.ofValue (.text SourceFormat.json.name) = .ok .json by decide) hload hcheck
  have hyaml := parse_of_checked
    (show SourceFormat.ofValue (.text SourceFormat.yaml.name) = .ok .yaml by decide) hload' hcheck'
  refine ⟨t.toWire_toValue, _, Json.print_of_isWritable hwritable,
    Json.isAscii_render Json.hasColon_compact.isAscii t.wire, hjson, hyaml, ?_⟩
  have hquiet := @Drift.isQuiet_between ⟨t.services, _⟩
    ⟨t.services, ⟨.yaml, some (fingerprint (Json.compact t.wire))⟩⟩ _
    (owns_audit ⟨t.services, ⟨.json, some (fingerprint (Json.compact t.wire))⟩⟩)
  exact ⟨_, Comparison.run_of_parsed hjson hyaml, hquiet.introduced, hquiet.resolved, hquiet.impact⟩

end Topology

/-- A topology with what either format might take for something else: words that YAML knows and
signs of its own, spaces at the ends, quotes and escapes, halves of surrogate pairs in the wrong
order, the last code point of the basic plane, empty lists, and limits of either sign. The
fingerprint holds a code point beyond the plane. -/
def ambiguousTopology : Topology :=
  { services :=
      [⟨"yes", .db, true, false, [⟨" - #a: b, [c] ", 65536, .tcp⟩, ⟨"", 0, .https⟩],
          ["null", "1:30",
            [CodePoint.ofNat 0xDC00, CodePoint.ofNat 0xD800, CodePoint.ofNat 0xFFFF]],
          some ⟨some (.int (-3)), some (.int (10 ^ 20))⟩⟩,
        ⟨[CodePoint.ofChar '"', CodePoint.ofChar '\\', CodePoint.ofChar '\n', CodePoint.ofNat 0x85],
          .api, false, true, [], [], some ⟨none, none⟩⟩]
    metadata := ⟨.yaml, some [CodePoint.ofNat 0x1F600]⟩ }

theorem isExpressible_ambiguousTopology : ambiguousTopology.IsExpressible := by
  intro s hs
  simp only [ambiguousTopology, List.mem_cons, List.not_mem_nil, or_false] at hs
  rcases hs with rfl | rfl
  · refine ⟨by decide, ?_⟩
    intro l hl
    cases hl
    refine ⟨?_, ?_⟩
    · intro a ha
      cases ha
      exact (by decide +kernel : (Binary64.ofInt (-3)).isFinite = true)
    · intro a ha
      cases ha
      exact (by decide +kernel : (Binary64.ofInt (10 ^ 20)).isFinite = true)
  · refine ⟨nofun, ?_⟩
    intro l hl
    cases hl
    exact ⟨nofun, nofun⟩

/-- The formats agree on the ambiguous topology. -/
theorem Topology.formats_agree_of_ambiguous_topology :
    ∃ text, Json.print Style.compact ambiguousTopology.wire = .ok text ∧
      (∃ t', parse .asWritten (.text SourceFormat.json.name) text = .ok (.success t') ∧
        t'.services = ambiguousTopology.services) ∧
      (∃ t', parse .asWritten (.text SourceFormat.yaml.name) text = .ok (.success t') ∧
        t'.services = ambiguousTopology.services) ∧
      ∃ c, Comparison.runNamed .asWritten (.text SourceFormat.json.name)
          (.text SourceFormat.yaml.name) text text = .ok (.success c) ∧
        c.drift.introduced = 0 ∧ c.drift.resolved = 0 := by
  obtain ⟨-, text, hprint, -, hjson, hyaml, c, hrun, hintroduced, hresolved, -⟩ :=
    Topology.formats_agree_of_written .asWritten ambiguousTopology isExpressible_ambiguousTopology
      (by decide +kernel) (by decide) (by decide) (by decide)
  exact ⟨text, hprint, ⟨_, hjson, rfl⟩, ⟨_, hyaml, rfl⟩, c, hrun, hintroduced, hresolved⟩

end TopologyAudit
