import Accelrd.Sensors

/-!
`src/topology/mod.rs`, with the RDMA devices of `src/topology/rdma.rs` and the switches
of `src/topology/lldp.rs`: what a node knows about its place in the cluster, and the JSON
in which it is published.
-/

namespace Accelrd.Topology

open Sensors

/-! ### Fabric domains -/

/-- `FabricKind`. -/
inductive FabricKind where
  | xgmi
  | nvlink
  | pcie
  deriving DecidableEq

/-- The name of a kind in JSON. -/
def FabricKind.kebab : FabricKind → String
  | .xgmi => "x-gmi"
  | .nvlink => "n-v-link"
  | .pcie => "pcie"

/-- `FabricDomain`. -/
structure FabricDomain where
  id : String
  kind : FabricKind
  memberAccelerators : List AcceleratorId
  aggregateBandwidthGbps : Option ℕ

/-- The JSON of a fabric domain. -/
def FabricDomain.toJson (d : FabricDomain) : Json :=
  .obj [("id", .str d.id), ("kind", .str d.kind.kebab),
    ("member_accelerators", .list AcceleratorId.toJson d.memberAccelerators),
    ("aggregate_bandwidth_gbps", .option (fun n : ℕ => .num n) d.aggregateBandwidthGbps)]

/-! ### RDMA -/

/-- `RdmaPort`. -/
structure RdmaPort where
  index : ℕ
  state : String
  physState : String
  linkLayer : String
  rateGbps : Option ℕ

/-- `RdmaDevice`. -/
structure RdmaDevice where
  name : String
  ports : List RdmaPort

/-- `RdmaInventory`. -/
structure RdmaInventory where
  devices : List RdmaDevice

/-- `RdmaInventory::is_empty`. -/
def RdmaInventory.isEmpty (r : RdmaInventory) : Bool := r.devices.isEmpty

/-- `RdmaInventory::any_active_roce`. -/
def RdmaInventory.anyActiveRoce (r : RdmaInventory) : Bool :=
  r.devices.any fun d => d.ports.any fun p =>
    Text.eqIgnoreAsciiCase p.state "ACTIVE" && Text.eqIgnoreAsciiCase p.linkLayer "Ethernet"

def RdmaPort.toJson (p : RdmaPort) : Json :=
  .obj [("index", .num p.index), ("state", .str p.state), ("phys_state", .str p.physState),
    ("link_layer", .str p.linkLayer), ("rate_gbps", .option (fun n : ℕ => .num n) p.rateGbps)]

def RdmaDevice.toJson (d : RdmaDevice) : Json :=
  .obj [("name", .str d.name), ("ports", .list RdmaPort.toJson d.ports)]

def RdmaInventory.toJson (r : RdmaInventory) : Json :=
  .obj [("devices", .list RdmaDevice.toJson r.devices)]

/-! ### LLDP -/

/-- `ChassisIdKind`. -/
inductive ChassisIdKind where
  | mac
  | name
  | other
  deriving DecidableEq

/-- The name of a kind in JSON. -/
def ChassisIdKind.lowercase : ChassisIdKind → String
  | .mac => "mac"
  | .name => "name"
  | .other => "other"

/-- `LldpNeighbor`. -/
structure LldpNeighbor where
  interface : String
  chassisId : String
  chassisIdKind : ChassisIdKind
  portId : String
  systemName : Option String
  deriving DecidableEq

def LldpNeighbor.toJson (n : LldpNeighbor) : Json :=
  .obj [("interface", .str n.interface), ("chassis_id", .str n.chassisId),
    ("chassis_id_kind", .str n.chassisIdKind.lowercase), ("port_id", .str n.portId),
    ("system_name", .option .str n.systemName)]

/-- The loop of the two functions `slugify`: every run of characters that a label may not
have becomes one dash. -/
def squash (lastDash : Bool) : List Char → List Char
  | [] => []
  | c :: cs =>
      let c := c.toLower
      if c.isAlphanum || c = '.' || c = '_' then c :: squash false cs
      else if lastDash then squash true cs
      else '-' :: squash true cs

/-- `lldp::slugify`. -/
def lldpSlugify (s : String) : String :=
  String.ofList (Text.trimMatches '-' (squash false s.toList))

/-- `LldpNeighbor::rack_slug`. -/
def LldpNeighbor.rackSlug (n : LldpNeighbor) : String :=
  match n.chassisIdKind with
  | .mac => String.ofList (n.chassisId.toList.filter (· ≠ ':'))
  | _ => lldpSlugify n.chassisId

/-! ### The node -/

/-- `NodeTopology`. -/
structure NodeTopology where
  block : Option String
  rack : Option String
  fabricDomains : List FabricDomain
  lldpNeighbors : List LldpNeighbor
  rdma : RdmaInventory

end Accelrd.Topology
