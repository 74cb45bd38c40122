import Mathlib.Tactic
import Accelrd.Library.Insertions
import Accelrd.Admin.Mutel
import Accelrd.Prober.Launch

/-!
`src/exporter.rs`, `build_resource`: as what a process reports its telemetry. With it the names
that processes go by: `node_name` of `src/k8s/facts.rs` and its copy in `src/probe/mod.rs`,
`resolve` of `src/config.rs`, and `enabled` of `src/k8s/mod.rs`.

* `Process`: what a process can see of itself and of its machine.
* `buildResource`, `DaemonArgs.resolve`, `nodeName`, `hostIdentity`: the code.
* `instanceId_eq_iff`: when two processes report under one `service.instance.id`.
* `Joined`, `joined_reporters`: the metrics of a daemon are shown with the node that it labels.
* `probe_resource`: what is left of this for the pods of the prober.
-/

namespace Accelrd.Telemetry

open Std Kube Insertions
open Prober (Env envString envNat PodSpec Kubelet podEnv)

/-! ### Processes -/

/-- `/var/run/secrets/kubernetes.io/serviceaccount`. -/
def saDir : String := "/var/run/secrets/kubernetes.io/serviceaccount"

/-- `TOKEN` of `looks_in_cluster`. -/
def saToken : String := "/var/run/secrets/kubernetes.io/serviceaccount/token"

/-- What a process can see of itself and of its machine: its environment, the files that can
be read as text, the paths that exist, and what it has been started as. -/
structure Process where
  env : Env
  files : String → Option String
  pathExists : String → Bool
  pid : ℕ
  exe : Option String
  arch : String
  os : String
  pid_lt : pid < 2 ^ 32
  saToken_exists : pathExists saToken → pathExists saDir

namespace Process

variable (p : Process)

/-- `read_trimmed`. -/
def readTrimmed (path : String) : Option String :=
  ((p.files path).map fun s => String.ofList (Text.trim s.toList)).filter (· ≠ "")

/-- `read_machine_id`. -/
def readMachineId : Option String :=
  ["/etc/machine-id", "/var/lib/dbus/machine-id"].findSome? p.readTrimmed

/-- `normalize_arch`. -/
def normalizeArch (rustArch : String) : String :=
  match rustArch with
  | "x86_64" => "amd64"
  | "aarch64" => "arm64"
  | "arm" => "arm32"
  | "powerpc" => "ppc32"
  | "powerpc64" => "ppc64"
  | other => other

/-! ### The resource -/

/-- `env_to_attr`. -/
def envToAttr : List (String × String) :=
  [("POD_NAME", "k8s.pod.name"), ("POD_UID", "k8s.pod.uid"),
    ("POD_NAMESPACE", "k8s.namespace.name"), ("CONTAINER_NAME", "k8s.container.name"),
    ("DAEMONSET_NAME", "k8s.daemonset.name"), ("CLUSTER_NAME", "k8s.cluster.name")]

/-- What a variable inserts. -/
def envEntry (e : String × String) : List (String × String) :=
  (envString p.env e.1).toList.map fun v => (e.2, v)

/-- `populate_k8s_attrs`: the attributes, and the UID of the pod. -/
def populateK8sAttrs (attrs : StrMap) (nodeName : String) : StrMap × Option String :=
  let attrs := attrs.insertMany
    ((p.readTrimmed "/var/run/secrets/kubernetes.io/serviceaccount/namespace").toList.map
      fun ns => ("k8s.namespace.name", ns))
  let attrs := attrs.insert "k8s.node.name" nodeName
  let attrs := attrs.insertMany (envToAttr.flatMap p.envEntry)
  let attrs :=
    if attrs.contains "k8s.pod.name" then attrs
    else attrs.insertMany ((envString p.env "HOSTNAME").toList.map fun h => ("k8s.pod.name", h))
  (attrs, attrs["k8s.pod.uid"]?)

/-- The attributes that every process has. -/
def baseEntries (serviceName nodeName : String) : List (String × String) :=
  [("service.name", serviceName), ("service.version", "0.1.0"), ("host.name", nodeName),
    ("host.arch", normalizeArch p.arch), ("os.type", p.os)] ++
  ((p.readTrimmed "/proc/sys/kernel/osrelease").toList.map fun r => ("os.description", r)) ++
  (p.readMachineId.toList.map fun id => ("host.id", id)) ++
  [("process.pid", toString p.pid)] ++
  (p.exe.toList.map fun name => ("process.executable.name", name))

/-- What `service.instance.id` is outside of a pod. -/
def bootInstance : String :=
  match p.readTrimmed "/proc/sys/kernel/random/boot_id" with
  | some b => b ++ "-" ++ toString p.pid
  | none => toString p.pid

/-- `build_resource`, up to the resource that the SDK makes of the attributes. -/
def attributes (serviceName nodeName : String) : StrMap :=
  let attrs := ExtTreeMap.ofList (p.baseEntries serviceName nodeName)
  let (attrs, podUid) :=
    if p.pathExists saDir then p.populateK8sAttrs attrs nodeName else (attrs, none)
  attrs.insert "service.instance.id" (podUid.getD p.bootInstance)

/-- `build_resource`: over what the detectors of the SDK have found. -/
def buildResource (detected : StrMap) (serviceName nodeName : String) : StrMap :=
  detected.insertMany (p.attributes serviceName nodeName).toList

/-! ### Names -/

/-- `node_name` of `src/probe/mod.rs`, of which the prober and the admin have copies. -/
def hostIdentity : String :=
  ((((envString p.env "NODE_NAME").or (envString p.env "HOSTNAME")).or
    ((p.files "/proc/sys/kernel/hostname").map fun s => String.ofList (Text.trim s.toList))).filter
      (· ≠ "")).getD "unknown"

/-- `looks_in_cluster`. -/
def looksInCluster : Bool := p.pathExists saToken && (p.env "KUBERNETES_SERVICE_HOST").isSome

end Process

/-- `Args` of the daemon. -/
structure DaemonArgs where
  otlpEndpoint : Option String
  liveIntervalSecs : Option ℕ
  preflightIntervalSecs : Option ℕ
  block : Option String
  rack : Option String
  serviceName : Option String
  nodeName : Option String
  once : Bool
  noK8s : Bool
  noLldp : Bool
  lldpTimeoutSecs : Option ℕ

/-- `Resolved` of the daemon. -/
structure DaemonResolved where
  otlpEndpoint : String
  liveIntervalSecs : ℕ
  preflightIntervalSecs : ℕ
  block : Option String
  rack : Option String
  serviceName : String
  nodeName : Option String
  once : Bool
  noK8s : Bool
  noLldp : Bool
  lldpTimeoutSecs : ℕ

/-- `Args::resolve`. -/
def DaemonArgs.resolve (env : Env) (args : DaemonArgs) : DaemonResolved where
  otlpEndpoint := (args.otlpEndpoint.or (envString env "ACCELRD_OTLP_ENDPOINT")).getD
    "http://127.0.0.1:4318"
  liveIntervalSecs :=
    (args.liveIntervalSecs.or (envNat env "ACCELRD_LIVE_INTERVAL_SECS")).getD 5
  preflightIntervalSecs :=
    (args.preflightIntervalSecs.or (envNat env "ACCELRD_PREFLIGHT_INTERVAL_SECS")).getD 30
  block := args.block.or (envString env "ACCELRD_BLOCK")
  rack := args.rack.or (envString env "ACCELRD_RACK")
  serviceName := (args.serviceName.or (envString env "OTEL_SERVICE_NAME")).getD "accelrd"
  nodeName := args.nodeName.or (envString env "NODE_NAME")
  once := args.once
  noK8s := args.noK8s
  noLldp := args.noLldp
  lldpTimeoutSecs := (args.lldpTimeoutSecs.or (envNat env "ACCELRD_LLDP_TIMEOUT_SECS")).getD 60

/-- `node_name` of `facts.rs`. -/
def nodeName (p : Process) (args : DaemonResolved) : String :=
  ((args.nodeName.or (envString p.env "NODE_NAME")).or
    (p.readTrimmed "/proc/sys/kernel/hostname")).getD "unknown"

/-- `enabled` of `src/k8s/mod.rs`. -/
def k8sEnabled (p : Process) (args : DaemonResolved) : Bool := !args.noK8s && p.looksInCluster

/-! ### What is in the resource -/

namespace Process

variable (p : Process)

/-- The UID of the pod, if the process knows that it is in one. -/
def podUid : Option String := if p.pathExists saDir then envString p.env "POD_UID" else none

/-- What a variable sets. -/
lemma getElem?_envEntries (var : String) {key : String}
    (h : envToAttr.filter (·.2 = key) = [(var, key)]) :
    (ExtTreeMap.ofList (envToAttr.flatMap p.envEntry))[key]? = envString p.env var := by
  rw [getElem?_ofList_flatMap_filter (p := fun e => e.2 = key), h, List.flatMap_singleton,
    envEntry]
  · cases envString p.env var with
    | none => exact getElem?_ofList_eq_none fun e he => absurd he List.not_mem_nil
    | some v =>
        refine MergePatch.getElem?_ofList_of_nodup ?_ (List.mem_singleton_self _)
        exact List.nodup_singleton key
  · intro e _ hne entry hentry heq
    obtain ⟨v, -, rfl⟩ := List.mem_map.mp hentry
    exact absurd heq (of_decide_eq_false hne)

/-- What no variable sets. -/
lemma getElem?_envEntries_eq_none {key : String} (h : ∀ e ∈ envToAttr, e.2 ≠ key) :
    (ExtTreeMap.ofList (envToAttr.flatMap p.envEntry))[key]? = none := by
  refine getElem?_ofList_eq_none fun entry hentry => ?_
  obtain ⟨e, he, hentry⟩ := List.mem_flatMap.mp hentry
  obtain ⟨v, -, rfl⟩ := List.mem_map.mp hentry
  exact h e he

/-- An attribute of a pod that is neither its namespace nor its name. -/
lemma getElem?_populateK8sAttrs (attrs : StrMap) (nodeName : String) {k : String}
    (hns : "k8s.namespace.name" ≠ k) (hpod : "k8s.pod.name" ≠ k) :
    (p.populateK8sAttrs attrs nodeName).1[k]? =
      ((ExtTreeMap.ofList (envToAttr.flatMap p.envEntry))[k]?).or
        (if "k8s.node.name" = k then some nodeName else attrs[k]?) := by
  have hkeep (m : StrMap) {key : String} (hkey : key ≠ k) (s : Option String) :
      (m.insertMany (s.toList.map fun v => (key, v)))[k]? = m[k]? := by
    refine getElem?_insertMany_of_forall_ne fun e he => ?_
    obtain ⟨v, -, rfl⟩ := List.mem_map.mp he
    exact hkey
  have hnode (m : StrMap) : (m.insert "k8s.node.name" nodeName)[k]? =
      if "k8s.node.name" = k then some nodeName else m[k]? := by
    rw [ExtTreeMap.getElem?_insert]
    simp only [Std.compare_eq_iff_eq]
  simp only [populateK8sAttrs]
  split_ifs with hpresent hk hk
  · rw [getElem?_insertMany, hnode, if_pos hk]
  · rw [getElem?_insertMany, hnode, if_neg hk, hkeep attrs hns]
  · rw [hkeep _ hpod, getElem?_insertMany, hnode, if_pos hk]
  · rw [hkeep _ hpod, getElem?_insertMany, hnode, if_neg hk, hkeep attrs hns]

/-- The keys that every process may have. -/
def baseKeys : List String :=
  ["service.name", "service.version", "host.name", "host.arch", "os.type", "os.description",
    "host.id", "process.pid", "process.executable.name"]

variable (serviceName nodeName : String)

lemma map_fst_baseEntries :
    ((p.baseEntries serviceName nodeName).map Prod.fst).Sublist baseKeys := by
  have hopt (key : String) (o : Option String) :
      ((o.toList.map fun v => (key, v)).map Prod.fst).Sublist [key] := by
    cases o with
    | none => exact List.nil_sublist _
    | some v => exact List.Sublist.refl _
  rw [baseEntries, List.map_append, List.map_append, List.map_append, List.map_append]
  exact ((((List.Sublist.refl _).append (hopt _ _)).append (hopt _ _)).append
    (List.Sublist.refl _)).append (hopt _ _)

/-- A key that no process has by itself. -/
lemma getElem?_baseEntries_eq_none {k : String} (h : k ∉ baseKeys) :
    (ExtTreeMap.ofList (p.baseEntries serviceName nodeName))[k]? = none :=
  getElem?_ofList_eq_none fun e he heq =>
    h ((p.map_fst_baseEntries serviceName nodeName).subset (by
      rw [← heq]
      exact List.mem_map_of_mem he))

lemma getElem?_baseEntries_hostName :
    (ExtTreeMap.ofList (p.baseEntries serviceName nodeName))["host.name"]? = some nodeName := by
  have hnodup : baseKeys.Nodup := by decide
  refine MergePatch.getElem?_ofList_of_nodup
    (hnodup.sublist (p.map_fst_baseEntries serviceName nodeName)) ?_
  simp [baseEntries]

/-- The attributes of a process in a pod, and of one outside. -/
lemma attributes_eq :
    p.attributes serviceName nodeName =
      (if p.pathExists saDir then (p.populateK8sAttrs (ExtTreeMap.ofList
          (p.baseEntries serviceName nodeName)) nodeName).1
        else ExtTreeMap.ofList (p.baseEntries serviceName nodeName)).insert
        "service.instance.id" (p.podUid.getD p.bootInstance) := by
  rw [attributes, podUid]
  split_ifs with hsa
  · have huid : (p.populateK8sAttrs (ExtTreeMap.ofList (p.baseEntries serviceName nodeName))
        nodeName).2 = envString p.env "POD_UID" := by
      refine (p.getElem?_populateK8sAttrs _ nodeName (by decide) (by decide)).trans ?_
      rw [p.getElem?_envEntries "POD_UID" (by decide), if_neg (by decide),
        getElem?_baseEntries_eq_none _ _ _ (by decide), Option.or_none]
    simp only [huid]
  · rfl

/-- **The instance** is the pod, if there is one. -/
lemma instanceId_buildResource (detected : StrMap) :
    (p.buildResource detected serviceName nodeName)["service.instance.id"]? =
      some (p.podUid.getD p.bootInstance) := by
  rw [buildResource, getElem?_insertMany_toList, attributes_eq, ExtTreeMap.getElem?_insert_self,
    Option.some_or]

/-- The host of a process is what it takes for the node. -/
lemma hostName_buildResource (detected : StrMap) :
    (p.buildResource detected serviceName nodeName)["host.name"]? = some nodeName := by
  have hhost := p.getElem?_baseEntries_hostName serviceName nodeName
  rw [buildResource, getElem?_insertMany_toList, attributes_eq, ExtTreeMap.getElem?_insert,
    if_neg (by decide)]
  split_ifs
  · rw [getElem?_populateK8sAttrs _ _ _ (by decide) (by decide),
      getElem?_envEntries_eq_none _ (by decide), Option.none_or, if_neg (by decide), hhost,
      Option.some_or]
  · rw [hhost, Option.some_or]

/-- The node of a process is named in a pod only. -/
lemma k8sNodeName_buildResource (detected : StrMap) :
    (p.buildResource detected serviceName nodeName)["k8s.node.name"]? =
      if p.pathExists saDir then some nodeName else detected["k8s.node.name"]? := by
  rw [buildResource, getElem?_insertMany_toList, attributes_eq, ExtTreeMap.getElem?_insert,
    if_neg (by decide)]
  split_ifs
  · rw [getElem?_populateK8sAttrs _ _ _ (by decide) (by decide),
      getElem?_envEntries_eq_none _ (by decide), Option.none_or, if_pos rfl, Option.some_or]
  · rw [getElem?_baseEntries_eq_none _ _ _ (by decide), Option.none_or]

end Process

/-! ### Instances -/

/-- What a process is known by. -/
inductive Identity where
  | pod (uid : String)
  | boot (bootId : String) (pid : ℕ)
  | bare (pid : ℕ)
  deriving DecidableEq

/-- What a process is known by: its pod, or its boot and its PID. -/
def Process.identity (p : Process) : Identity :=
  match p.podUid, p.readTrimmed "/proc/sys/kernel/random/boot_id" with
  | some uid, _ => .pod uid
  | none, some b => .boot b p.pid
  | none, none => .bare p.pid

/-- The text of an identity. -/
def Identity.text : Identity → String
  | .pod uid => uid
  | .boot b pid => b ++ "-" ++ toString pid
  | .bare pid => toString pid

/-- The form of a UUID, as far as it matters here. -/
def IsUuid (s : String) : Prop := s.toList.length = 36 ∧ '-' ∈ s.toList

/-- The UIDs of pods and the ids of boots are UUIDs. -/
def Identity.WellFormed : Identity → Prop
  | .pod uid => IsUuid uid
  | .boot b _ => IsUuid b
  | .bare _ => True

lemma Process.text_identity (p : Process) : p.identity.text = p.podUid.getD p.bootInstance := by
  rw [Process.identity, Process.bootInstance]
  cases p.podUid with
  | some uid => rfl
  | none => cases p.readTrimmed "/proc/sys/kernel/random/boot_id" <;> rfl

/-- A number has no dash. -/
lemma dash_not_mem_toString (n : ℕ) : '-' ∉ (toString n).toList :=
  fun h => absurd (Text.isDigit_of_mem_toString h) (by decide)

/-- The id of a boot, and what follows. -/
lemma toList_boot (b : String) (pid : ℕ) :
    (Identity.boot b pid).text.toList = b.toList ++ '-' :: (toString pid).toList := by
  rw [Identity.text, String.toList_append, String.toList_append, List.append_assoc]
  rfl

/-- **Identities are told apart by their texts.** -/
lemma Identity.text_injective {i j : Identity} (hi : i.WellFormed) (hj : j.WellFormed)
    (h : i.text = j.text) : i = j := by
  have hlist := congrArg String.toList h
  have hpod_boot {uid bootId : String} {pid : ℕ} (huid : IsUuid uid) (hboot : IsUuid bootId) :
      uid.toList ≠ (Identity.boot bootId pid).text.toList := by
    intro heq
    have hlen := congrArg List.length heq
    rw [toList_boot, List.length_append, List.length_cons, huid.1, hboot.1] at hlen
    omega
  have hbare {pid : ℕ} {cs : List Char} (hdash : '-' ∈ cs) : (toString pid).toList ≠ cs :=
    fun heq => dash_not_mem_toString pid (heq ▸ hdash)
  have hdash {bootId : String} (pid : ℕ) (hboot : IsUuid bootId) :
      '-' ∈ (Identity.boot bootId pid).text.toList := by
    rw [toList_boot]
    exact List.mem_append_left _ hboot.2
  cases i with
  | pod uid =>
      cases j with
      | pod uid' => exact congrArg Identity.pod h
      | boot b' pid' => exact absurd hlist (hpod_boot hi hj)
      | bare pid' => exact absurd hlist.symm (hbare hi.2)
  | boot b pid =>
      cases j with
      | pod uid' => exact absurd hlist.symm (hpod_boot hj hi)
      | boot b' pid' =>
          rw [toList_boot, toList_boot] at hlist
          obtain ⟨hboot, hrest⟩ := List.append_inj hlist (hi.1.trans hj.1.symm)
          have hpid := Text.toString_injective (String.toList_injective (List.cons.inj hrest).2)
          rw [String.toList_injective hboot, hpid]
      | bare pid' => exact absurd hlist.symm (hbare (hdash pid hi))
  | bare pid =>
      cases j with
      | pod uid' => exact absurd hlist (hbare hj.2)
      | boot b' pid' => exact absurd hlist (hbare (hdash pid' hj))
      | bare pid' => exact congrArg Identity.bare (Text.toString_injective h)

/-- **Who shares an instance.** Two processes report under one `service.instance.id` if and
only if they know that they are in the same pod, or neither does and they are of one boot, as
far as they can read its id, with one PID. No UID is taken for a boot and a PID, and nothing
that the SDK detects or the processes are called plays a role. -/
theorem instanceId_eq_iff {p q : Process} (hp : p.identity.WellFormed)
    (hq : q.identity.WellFormed) (detected detected' : StrMap)
    (serviceName serviceName' node node' : String) :
    (p.buildResource detected serviceName node)["service.instance.id"]? =
      (q.buildResource detected' serviceName' node')["service.instance.id"]? ↔
    p.identity = q.identity := by
  rw [Process.instanceId_buildResource, Process.instanceId_buildResource, ← p.text_identity,
    ← q.text_identity, Option.some.injEq]
  exact ⟨Identity.text_injective hp hq, congrArg Identity.text⟩

lemma one_lt_two_pow : 1 < 2 ^ 32 := by decide

lemma saToken_ne_saDir : saToken ≠ saDir := by decide

/-- A process in a pod with this UID. -/
def podProcess (uid node : String) : Process where
  env key := if key = "POD_UID" then some uid else if key = "NODE_NAME" then some node else none
  files _ := none
  pathExists path := path = saDir
  pid := 1
  exe := none
  arch := "x86_64"
  os := "linux"
  pid_lt := one_lt_two_pow
  saToken_exists h := absurd (of_decide_eq_true h) saToken_ne_saDir

/-- After a restart of its pod a daemon is another instance. -/
theorem instanceId_eq_iff_restart :
    ((podProcess "4a6f1c9e-0000-4000-8000-000000000001" "node-a").buildResource ∅ "accelrd"
        "node-a")["service.instance.id"]? ≠
      ((podProcess "4a6f1c9e-0000-4000-8000-000000000002" "node-a").buildResource ∅ "accelrd"
        "node-a")["service.instance.id"]? :=
  (instanceId_eq_iff (p := podProcess "4a6f1c9e-0000-4000-8000-000000000001" "node-a")
    (q := podProcess "4a6f1c9e-0000-4000-8000-000000000002" "node-a") ⟨by decide, by decide⟩
    ⟨by decide, by decide⟩ ∅ ∅ "accelrd" "accelrd" "node-a" "node-a").not.mpr (by decide)

/-! ### The metrics of a node -/

/-- A daemon, and a gauge of one of its cards. -/
structure Reporter where
  process : Process
  args : DaemonArgs
  detected : StrMap
  pciAddr : String
  time : ℚ
  value : ℚ

namespace Reporter

variable (r : Reporter)

/-- Its settings. -/
def settings : DaemonResolved := r.args.resolve r.process.env

/-- The node that it is on, as it takes it. -/
def node : String := nodeName r.process r.settings

/-- The node that it labels: `OptionalLabeler::new`, where the client may fail. -/
def labels (client : Bool) : Option String :=
  if k8sEnabled r.process r.settings && client then some r.node else none

/-- The resource under which it reports. -/
def resource : StrMap := r.process.buildResource r.detected r.settings.serviceName r.node

/-- The series of the gauge, as it is stored. -/
def series : Admin.Series where
  inst := (r.resource["service.instance.id"]?).getD ""
  node := (r.resource["k8s.node.name"]?).getD ""
  pciAddr := r.pciAddr
  time := r.time
  value := r.value

end Reporter

/-- The daemons in pods of a node. -/
def reportersOn (reporters : List Reporter) (n : String) : List Reporter :=
  reporters.filter fun r => r.process.pathExists saDir ∧ r.node = n

/-- The metrics that are shown for a node are those of the daemons in pods that take it for
theirs; a daemon that labels the node is among them, and calls it its host. -/
structure Joined (op : Admin.NodeRollup) (reporters : List Reporter) (n : String) : Prop where
  shown : (Admin.latestByNode op (Admin.response (reporters.map Reporter.series)))[n]? =
    if reportersOn reporters n = [] then none
    else op.roll ((reportersOn reporters n).map Reporter.value)
  labelled : ∀ r ∈ reporters, ∀ client, r.labels client = some n → r ∈ reportersOn reporters n
  host : ∀ r ∈ reportersOn reporters n, r.resource["host.name"]? = some n

/-- **Labels and metrics meet.** Whatever the daemons are called with, and in whatever order
their series are answered, what the admin shows as the metrics of a node is rolled up from the
daemons in pods whose node it is, all that keep labels on the node included, and from no
others. -/
theorem joined_reporters (op : Admin.NodeRollup) {reporters : List Reporter} {n : String}
    (hdetected : ∀ r ∈ reporters, r.detected["k8s.node.name"]? = none) (hn : n ≠ "") :
    Joined op reporters n := by
  have hnode : ∀ r ∈ reporters, r.series.node = n ↔ r.process.pathExists saDir ∧ r.node = n := by
    intro r hr
    rw [Reporter.series, Reporter.resource, Process.k8sNodeName_buildResource, hdetected r hr]
    split_ifs with hsa
    · rw [Option.getD_some, and_iff_right hsa]
    · exact iff_of_false (fun h => hn h.symm) fun h => hsa h.1
  have hsamples : Admin.samplesOf (Admin.response (reporters.map Reporter.series)) n =
      (reportersOn reporters n).map Reporter.value := by
    rw [Admin.samplesOf_response _ hn, Admin.onNode, List.filter_map, List.map_map, reportersOn]
    refine congrArg _ (List.filter_congr fun r hr => ?_)
    rw [Function.comp_apply, decide_eq_decide]
    exact hnode r hr
  refine ⟨?shown, ?labelled, ?host⟩
  case shown =>
    rw [Admin.getElem?_latestByNode, hsamples]
    simp only [List.map_eq_nil_iff]
  case labelled =>
    intro r hr client hlabels
    rw [Reporter.labels] at hlabels
    split_ifs at hlabels with henabled
    rw [k8sEnabled, Process.looksInCluster, Bool.and_eq_true, Bool.and_eq_true,
      Bool.and_eq_true] at henabled
    refine List.mem_filter.mpr ⟨hr, decide_eq_true ⟨?_, Option.some.inj hlabels⟩⟩
    exact r.process.saToken_exists henabled.1.2.1
  case host =>
    intro r hr
    rw [Reporter.resource, Process.hostName_buildResource,
      (of_decide_eq_true (List.mem_filter.mp hr).2).2]

/-- A daemon without flags. -/
def defaultArgs : DaemonArgs :=
  ⟨none, none, none, none, none, none, none, false, false, false, none⟩

/-- Two cards of a node are added up, and the card of another node is not. -/
theorem joined_reporters_two :
    Joined .sum
      [⟨podProcess "uid-1" "node-a", defaultArgs, ∅, "0000:03:00.0", 0, 1⟩,
        ⟨podProcess "uid-2" "node-b", defaultArgs, ∅, "0000:03:00.0", 0, 2⟩,
        ⟨podProcess "uid-1" "node-a", defaultArgs, ∅, "0000:83:00.0", 0, 4⟩] "node-a" :=
  joined_reporters .sum (by simp) (by decide)

/-! ### The pods of the prober -/

/-- `automountServiceAccountToken` of `build_pod`. -/
def automountServiceAccountToken : Bool := false

/-- A process that a kubelet has started for a template. The directory of the service account
is there only if the template asks for it. -/
structure StartedFor (k : Kubelet) (args : Prober.Resolved) (spec : PodSpec) (p : Process) :
    Prop where
  env : p.env = k.env (podEnv args spec)
  mount : p.pathExists saDir → automountServiceAccountToken

/-- What the telemetry of a probe says about where it comes from. -/
structure ProbeResource (k : Kubelet) (p : Process) (resource : StrMap) (detected : StrMap) :
    Prop where
  uid : p.env "POD_UID" = some (k.field "metadata.uid")
  host : resource["host.name"]? = some (k.field "spec.nodeName")
  k8s : ∀ key, Text.startsWith key "k8s." → resource[key]? = detected[key]?
  instanceId : resource["service.instance.id"]? = some p.bootInstance

section Probes

variable {k : Kubelet} {args : Prober.Resolved} {spec : PodSpec} {p : Process}

lemma StartedFor.saDir (h : StartedFor k args spec p) : p.pathExists saDir = false :=
  Bool.eq_false_iff.mpr fun hsa => Bool.false_ne_true (h.mount hsa)

/-- Outside of a pod there is no attribute of a pod. -/
lemma k8s_buildResource (hsa : p.pathExists saDir = false) (detected : StrMap)
    (serviceName nodeName : String) {key : String} (hkey : Text.startsWith key "k8s.") :
    (p.buildResource detected serviceName nodeName)[key]? = detected[key]? := by
  have hbase : key ∉ Process.baseKeys := by
    intro hmem
    have hnone : ∀ key ∈ Process.baseKeys, Text.startsWith key "k8s." = false := by decide
    rw [hnone key hmem] at hkey
    cases hkey
  have hinstance : "service.instance.id" ≠ key := by
    rintro rfl
    exact absurd hkey (by decide)
  rw [Process.buildResource, getElem?_insertMany_toList, Process.attributes_eq,
    ExtTreeMap.getElem?_insert, if_neg (by rwa [Std.compare_eq_iff_eq]), if_neg (by simp [hsa]),
    Process.getElem?_baseEntries_eq_none _ _ _ hbase, Option.none_or]

/-- **Probes are not taken for pods.** The template tells a probe the UID of its pod, and turns
off the mount by which the exporter recognises a pod. So its telemetry names its node as the
host, has no attribute of Kubernetes, and comes from the instance of a boot and a PID: probes
that are of one boot and have one PID, as the only processes of their containers do, report
under one `service.instance.id`, whichever their pods are. -/
theorem probe_resource (h : StartedFor k args spec p) (hnode : k.field "spec.nodeName" ≠ "")
    (detected : StrMap) (serviceName : String) :
    ProbeResource k p (p.buildResource detected serviceName p.hostIdentity) detected ∧
    ∀ (k' : Kubelet) (args' : Prober.Resolved) (spec' : PodSpec) (q : Process)
      (detected' : StrMap) (serviceName' : String), StartedFor k' args' spec' q →
      p.readTrimmed "/proc/sys/kernel/random/boot_id" =
        q.readTrimmed "/proc/sys/kernel/random/boot_id" → p.pid = q.pid →
      (p.buildResource detected serviceName p.hostIdentity)["service.instance.id"]? =
        (q.buildResource detected' serviceName' q.hostIdentity)["service.instance.id"]? := by
  have hinstance {k : Kubelet} {args : Prober.Resolved} {spec : PodSpec} {p : Process}
      (h : StartedFor k args spec p) (detected : StrMap) (serviceName : String) :
      (p.buildResource detected serviceName p.hostIdentity)["service.instance.id"]? =
        some p.bootInstance := by
    rw [Process.instanceId_buildResource, Process.podUid, h.saDir, if_neg Bool.false_ne_true,
      Option.getD_none]
  have hidentity : p.hostIdentity = k.field "spec.nodeName" := by
    have hvar : envString p.env "NODE_NAME" = some (k.field "spec.nodeName") := by
      rw [envString, h.env, Prober.env_field k args spec (by decide) rfl]
      exact Prober.nonEmpty_of_ne hnode
    rw [Process.hostIdentity, hvar, Option.some_or, Option.some_or]
    exact congrArg (Option.getD · _) (Prober.nonEmpty_of_ne hnode)
  refine ⟨⟨?uid, ?host, fun key hkey => k8s_buildResource h.saDir _ _ _ hkey,
    hinstance h detected serviceName⟩, ?same⟩
  case uid => rw [h.env, Prober.env_field k args spec (by decide) rfl]
  case host => rw [Process.hostName_buildResource, hidentity]
  case same =>
    intro k' args' spec' q detected' serviceName' hq hboot hpid
    rw [hinstance h, hinstance hq, Process.bootInstance, Process.bootInstance, hboot, hpid]

/-- A probe on a node, in a container of its own. -/
def probeProcess (uid node : String) : Process where
  env := (⟨fun _ => none, fun path => if path = "metadata.uid" then uid else node, fun s => s,
    fun _ _ => rfl⟩ : Kubelet).env (podEnv ⟨"", "", 0, 0, none, "", 30, 4, [], false⟩
      ⟨.server, node, "node-b", none, "r1"⟩)
  files path :=
    if path = "/proc/sys/kernel/random/boot_id" then some "7d0c1b52-0000-4000-8000-00000000000b\n"
    else none
  pathExists _ := false
  pid := 1
  exe := none
  arch := "x86_64"
  os := "linux"
  pid_lt := one_lt_two_pow
  saToken_exists := fun h => h

/-- Two pods on one node are one instance. -/
theorem probe_resource_alias :
    ((probeProcess "uid-1" "node-a").buildResource ∅ "accelrd-probe"
        (probeProcess "uid-1" "node-a").hostIdentity)["service.instance.id"]? =
      ((probeProcess "uid-2" "node-a").buildResource ∅ "accelrd-probe"
        (probeProcess "uid-2" "node-a").hostIdentity)["service.instance.id"]? :=
  (probe_resource (p := probeProcess "uid-1" "node-a")
    ⟨rfl, fun h => absurd h Bool.false_ne_true⟩ (by decide) ∅ "accelrd-probe").2 _ _ _
    (probeProcess "uid-2" "node-a") ∅ "accelrd-probe"
    ⟨rfl, fun h => absurd h Bool.false_ne_true⟩ rfl rfl

end Probes

end Accelrd.Telemetry
