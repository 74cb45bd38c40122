import Accelrd.Library.MergePatch
import Accelrd.Library.Ownership
import Accelrd.Library.PairRotation
import Accelrd.Library.Lru
import Accelrd.Library.Decimal
import Accelrd.Library.Binary64
import Accelrd.Library.Text
import Accelrd.Library.Permits
import Accelrd.Library.Rollup
import Accelrd.Library.Insertions
import Accelrd.Library.Components
import Accelrd.Library.Tlv
import Accelrd.Library.LabelSyntax
import Accelrd.Library.Json
import Accelrd.Time
import Accelrd.Kube
import Accelrd.Sensors
import Accelrd.Topology.Basic
import Accelrd.Topology.Lldp
import Accelrd.Topology.Discover
import Accelrd.Topology.RackInference
import Accelrd.Topology.Labels
import Accelrd.Topology.Published
import Accelrd.Topology.DomainId
import Accelrd.Topology.LabelForm
import Accelrd.K8s.Labeler
import Accelrd.Telemetry.Preflight
import Accelrd.Prober.Annotations
import Accelrd.K8s.Sharing
import Accelrd.Prober.Pair
import Accelrd.Prober.Dispatch
import Accelrd.Prober.Concurrency
import Accelrd.Prober.Pass
import Accelrd.Prober.Rack
import Accelrd.Prober.Cluster
import Accelrd.Prober.Pods
import Accelrd.Prober.Probe
import Accelrd.Probe.Perftest
import Accelrd.Probe.Record
import Accelrd.Admin.Verdict
import Accelrd.Admin.Node
import Accelrd.Admin.Mutel
import Accelrd.Admin.Fleet
import Accelrd.Telemetry.Cycle
import Accelrd.Library.Gregorian
import Accelrd.Library.Machine
import Accelrd.Library.Utf8
import Accelrd.Calendar
import Accelrd.Prober.Cadence
import Accelrd.Prober.Orphans
import Accelrd.Admin.Probes
import Accelrd.Library.Retry
import Accelrd.Probe.Client
import Accelrd.Topology.Counts
import Accelrd.Topology.Xgmi
import Accelrd.Library.Mean
import Accelrd.Sensors.Amd
import Accelrd.Admin.Utilization
import Accelrd.Library.Markup
import Accelrd.Admin.Console
import Accelrd.Library.Words
import Accelrd.Library.Boundary
import Accelrd.Library.JsonBytes
import Accelrd.Library.Url
import Accelrd.Topology.Chassis
import Accelrd.Topology.Pretty
import Accelrd.Sensors.Partitions
import Accelrd.Topology.Cards
import Accelrd.Sensors.Bars
import Accelrd.Sensors.Mounts
import Accelrd.Sensors.Host
import Accelrd.Telemetry.Health
import Accelrd.Admin.Disk
import Accelrd.Admin.Query
import Accelrd.Library.Runs
import Accelrd.Sensors.Cpus
import Accelrd.Topology.Slugs
import Accelrd.Library.Interleaving
import Accelrd.K8s.Interleavings
import Accelrd.Admin.History
import Accelrd.Admin.Summary
import Accelrd.Admin.Layout
import Accelrd.Library.Sorting
import Accelrd.Library.Boxes
import Accelrd.Sensors.Enumerate
import Accelrd.Telemetry.Checks
import Accelrd.Sensors.Meminfo
import Accelrd.Topology.Rdma
import Accelrd.Probe.Device
import Accelrd.Topology.Listen
import Accelrd.Prober.Launch
import Accelrd.Prober.Resources
import Accelrd.Library.Memo
import Accelrd.Telemetry.Live
import Accelrd.Telemetry.Exporter
import Accelrd.Lifecycle
