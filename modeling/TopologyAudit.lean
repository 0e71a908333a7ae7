import TopologyAudit.Http.Service
import TopologyAudit.Main
import TopologyAudit.Proofs.Audit.Hardening
import TopologyAudit.Proofs.Audit.Likeness
import TopologyAudit.Proofs.Audit.Table
import TopologyAudit.Proofs.CommandLine.Containment
import TopologyAudit.Proofs.CommandLine.Gate
import TopologyAudit.Proofs.CommandLine.Listing
import TopologyAudit.Proofs.Digest.Fingerprint
import TopologyAudit.Proofs.Drift.Composition
import TopologyAudit.Proofs.Drift.Grouping
import TopologyAudit.Proofs.Drift.Listing
import TopologyAudit.Proofs.Drift.Locality
import TopologyAudit.Proofs.Drift.Reversal
import TopologyAudit.Proofs.Http.Agreement
import TopologyAudit.Proofs.Http.Answer
import TopologyAudit.Proofs.Record.FieldName
import TopologyAudit.Proofs.Record.Reach
import TopologyAudit.Proofs.Record.Recovery
import TopologyAudit.Proofs.Record.RoundTrip
import TopologyAudit.Proofs.Report.Parts
import TopologyAudit.Proofs.Source.Containment
import TopologyAudit.Proofs.Source.Format
import TopologyAudit.Proofs.Source.Formats
import TopologyAudit.Proofs.Topology.Reporting
import TopologyAudit.Proofs.Topology.Retouch
