import TopologyAudit.Numeral.Binary64
import TopologyAudit.Text.Basic

/-!
# Service topologies

The model that configs are checked in: services with their network bindings,
dependencies and resource limits, and the metadata of the text they came from.
-/

namespace TopologyAudit

/-- The format of a config text. -/
inductive SourceFormat
  | yaml
  | json
deriving DecidableEq, Repr

/-- What a service is. -/
inductive ServiceKind
  | api
  | db
  | queue
  | cache
deriving DecidableEq, Repr

/-- The protocol that a binding speaks. -/
inductive Protocol
  | http
  | https
  | tcp
deriving DecidableEq, Repr

namespace SourceFormat

def all : List SourceFormat := [yaml, json]

/-- The name of the format in configs and reports. -/
def name : SourceFormat → Text
  | yaml => "yaml"
  | json => "json"

end SourceFormat

namespace ServiceKind

def all : List ServiceKind := [api, db, queue, cache]

def name : ServiceKind → Text
  | api => "api"
  | db => "db"
  | queue => "queue"
  | cache => "cache"

end ServiceKind

namespace Protocol

def all : List Protocol := [http, https, tcp]

def name : Protocol → Text
  | http => "http"
  | https => "https"
  | tcp => "tcp"

end Protocol

/-- An address that a service listens on. -/
structure Binding where
  host : Text
  port : Int
  protocol : Protocol
deriving DecidableEq

/-- The amount of a resource, as an integer or as a double. -/
inductive Amount
  | int (value : Int)
  | float (value : Binary64)
deriving DecidableEq

/-- Limits on what a service may use; either may be left open. -/
structure Limits where
  cpu : Option Amount
  memoryMb : Option Amount
deriving DecidableEq

/-- Whether both limits are set. -/
def Limits.isComplete (l : Limits) : Bool := l.cpu.isSome && l.memoryMb.isSome

structure Service where
  name : Text
  kind : ServiceKind
  isPublic : Bool
  handlesPii : Bool
  network : List Binding
  dependsOn : List Text
  limits : Option Limits
deriving DecidableEq

namespace Service

/-- Whether some binding speaks a protocol. -/
def speaks (s : Service) (p : Protocol) : Bool := s.network.any (·.protocol == p)

/-- Whether both limits are set. -/
def hasLimits (s : Service) : Bool := s.limits.any (·.isComplete)

end Service

/-- Where a topology came from: the format of the text and its fingerprint. -/
structure Metadata where
  format : SourceFormat
  fingerprint : Option Text
deriving DecidableEq

structure Topology where
  services : List Service
  metadata : Metadata
deriving DecidableEq

/-- The names of the services in order; a name may repeat. -/
def Topology.names (t : Topology) : List Text := t.services.map (·.name)

end TopologyAudit
