import TopologyAudit.Audit.Violation
import TopologyAudit.Topology.Basic

/-!
# Rules

A rule looks at one service by itself. An audit applies every rule to every service
and never stops early, so a service may break any number of rules.
-/

namespace TopologyAudit

structure Rule where
  id : Text
  severity : Severity
  description : Text
  /-- Whether a service breaks the rule. -/
  isBroken : Service → Bool

namespace Rule

/-- The host of a binding that listens on every address. -/
def anyHost : Text := "0.0.0.0"

/-- Databases are neither public nor bound to every address. -/
def noPublicDatabase : Rule where
  id := "R1_NO_PUBLIC_DB"
  severity := .high
  description :=
    "Database service is exposed publicly (host=0.0.0.0 or marked public). Databases should not be directly reachable from the internet."
  isBroken s := s.kind == .db && (s.isPublic || s.network.any (·.host == anyHost))

/-- Public services that speak HTTP speak HTTPS too. -/
def publicRequiresTls : Rule where
  id := "R2_PUBLIC_REQUIRES_TLS"
  severity := .high
  description :=
    "Publicly exposed service listens on HTTP without any HTTPS endpoint. Public services must have TLS enabled."
  isBroken s := s.isPublic && s.speaks .http && !s.speaks .https

/-- Services that handle personal data are not public. -/
def noPublicPersonalData : Rule where
  id := "R3_NO_PII_PUBLIC"
  severity := .high
  description :=
    "Service that handles PII is marked as public. PII-handling services should not be directly exposed to the internet."
  isBroken s := s.handlesPii && s.isPublic

/-- The limits of processor and memory are both set. -/
def limitsRequired : Rule where
  id := "R4_RESOURCE_LIMITS"
  severity := .medium
  description :=
    "Service is missing CPU or memory limits. Resource limits are required for predictable capacity and to prevent noisy-neighbour issues."
  isBroken s := !s.hasLimits

/-- The rules that every audit applies, in their order. -/
def all : List Rule := [noPublicDatabase, publicRequiresTls, noPublicPersonalData, limitsRequired]

/-- The violation of a rule by a service, if it breaks it. -/
def violation? (r : Rule) (s : Service) : Option Violation :=
  if r.isBroken s then some ⟨r.id, r.description, s.name, r.severity⟩ else none

end Rule

/-- The violations of rules by a service, in the order of the rules. -/
def Service.violations (rules : List Rule) (s : Service) : List Violation :=
  rules.filterMap (·.violation? s)

namespace Topology

/-- The violations of rules by the services, in the order of the services. -/
def violationsOf (rules : List Rule) (t : Topology) : List Violation :=
  t.services.flatMap (·.violations rules)

/-- The violations of the standing rules. -/
def audit (t : Topology) : List Violation := t.violationsOf Rule.all

end Topology

end TopologyAudit
