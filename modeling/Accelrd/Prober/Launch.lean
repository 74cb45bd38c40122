import Mathlib.Tactic
import Accelrd.Probe.Record
import Accelrd.Prober.Concurrency
import Accelrd.Prober.Probe

/-!
What the settings of the prober come to in the pods that it creates: `resolve` of
`src/prober/mod.rs`, the environment in `build_pod` of `src/prober/pods.rs`, `resolve` of
`src/probe/mod.rs`, and `build_cmd` of `src/probe/perftest.rs`.

* `ProberArgs.resolve`, `podEnv`, `ProbeArgs.resolve`, `Settings.command`: the code.
* `Kubelet`: how a container comes to its environment.
* `Launched`: what is asked of a pod.
* `launched_of_create`: every pod that a probe creates does that.
-/

namespace Accelrd.Prober

open Probe

/-! ### The settings of the prober -/

/-- `std::env::var`. -/
abbrev Env : Type := String → Option String

/-- `env_string`. -/
def envString (env : Env) (key : String) : Option String := (env key).filter (· ≠ "")

/-- `env_u64`, as a number. -/
def envNat (env : Env) (key : String) : Option ℕ := (envU64 (env key)).map UInt64.toNat

/-- `ProberArgs`. -/
structure ProberArgs where
  otlpEndpoint : Option String
  serviceName : Option String
  cadenceSecs : Option ℕ
  reconcileIntervalSecs : Option ℕ
  probeImage : Option String
  namespace_ : Option String
  testDurationSecs : Option ℕ
  maxConcurrentPairs : Option UInt32
  probeResource : List String
  once : Bool

/-- `Resolved` of the prober. -/
structure Resolved where
  otlpEndpoint : String
  serviceName : String
  cadenceSecs : ℕ
  reconcileIntervalSecs : ℕ
  probeImage : Option String
  namespace_ : String
  testDurationSecs : ℕ
  maxConcurrentPairs : UInt32
  probeResources : List (String × String)
  once : Bool

/-- What `resolve_probe_resources` makes of one entry. -/
def parseResource (entry : List Char) : Option (String × String) :=
  match Text.splitOnce '=' entry with
  | some (k, v) =>
      if Text.trim k ≠ [] ∧ Text.trim v ≠ [] then
        some (String.ofList (Text.trim k), String.ofList (Text.trim v))
      else none
  | none => none

/-- `resolve_probe_resources`. -/
def resolveProbeResources (env : Env) (cli : List String) : List (String × String) :=
  let fromEnv := (envString env "ACCELRD_PROBER_PROBE_RESOURCES").elim [] fun list =>
    ((list.toList.splitOn ',').map fun piece => String.ofList (Text.trim piece)).filter (· ≠ "")
  (cli ++ fromEnv).filterMap fun entry => parseResource entry.toList

/-- `ProberArgs::resolve`. -/
def ProberArgs.resolve (env : Env) (args : ProberArgs) : Resolved where
  otlpEndpoint := (args.otlpEndpoint.or (envString env "ACCELRD_OTLP_ENDPOINT")).getD
    "http://127.0.0.1:4318"
  serviceName := (args.serviceName.or (envString env "OTEL_SERVICE_NAME")).getD "accelrd-prober"
  cadenceSecs := (args.cadenceSecs.or (envNat env "ACCELRD_PROBER_CADENCE_SECS")).getD 21600
  reconcileIntervalSecs :=
    (args.reconcileIntervalSecs.or (envNat env "ACCELRD_PROBER_RECONCILE_INTERVAL_SECS")).getD 300
  probeImage := args.probeImage.or (envString env "ACCELRD_PROBER_PROBE_IMAGE")
  namespace_ := (args.namespace_.or (envString env "ACCELRD_PROBER_NAMESPACE")).getD "accelrd"
  testDurationSecs :=
    (args.testDurationSecs.or (envNat env "ACCELRD_PROBER_TEST_DURATION_SECS")).getD 30
  maxConcurrentPairs :=
    Prober.maxConcurrentPairs args.maxConcurrentPairs (env "ACCELRD_PROBER_MAX_CONCURRENT_PAIRS")
  probeResources := resolveProbeResources env args.probeResource
  once := args.once

/-! ### The template of a pod -/

/-- Where a variable of a container has its value from. -/
inductive EnvSource where
  | value (s : String)
  | fieldRef (fieldPath : String)

/-- `env` of `build_pod`, as it begins for either role. -/
def commonEnv (args : Resolved) (s : PodSpec) : List (String × EnvSource) :=
  [("ACCELRD_PROBE_DURATION_SECS", .value (toString args.testDurationSecs)),
    ("ACCELRD_PROBE_SRC_RACK", .value s.rack),
    ("ACCELRD_PROBE_PARTNER_NODE", .value s.partnerNode),
    ("ACCELRD_OTLP_ENDPOINT", .value args.otlpEndpoint),
    ("OTEL_SERVICE_NAME", .value "accelrd-probe"),
    ("RUST_LOG", .value "info,opentelemetry=warn,reqwest=error"),
    ("NODE_NAME", .fieldRef "spec.nodeName"),
    ("POD_NAME", .fieldRef "metadata.name"),
    ("POD_UID", .fieldRef "metadata.uid"),
    ("POD_NAMESPACE", .fieldRef "metadata.namespace"),
    ("CONTAINER_NAME", .value "probe")]

/-- What `build_pod` pushes to `env` for a client. -/
def clientEnv (s : PodSpec) : List (String × EnvSource) :=
  match s.role, s.partnerIp with
  | .client, some ip => [("ACCELRD_PROBE_SERVER", .value ip)]
  | _, _ => []

/-- `env` of `build_pod`. -/
def podEnv (args : Resolved) (s : PodSpec) : List (String × EnvSource) :=
  commonEnv args s ++ clientEnv s

/-- `args` of the container in `build_pod`. -/
def podArgs (s : PodSpec) : List String := ["probe", "--mode", s.role.slug]

/-! ### The settings of a probe -/

/-- `ProbeMode::from_str`. -/
def ProbeMode.fromStr (s : String) : Option ProbeMode :=
  if s = "server" then some .server else if s = "client" then some .client else none

/-- `ProbeArgs`. -/
structure ProbeArgs where
  mode : ProbeMode
  server : Option String
  device : Option String
  durationSecs : Option ℕ
  connectTimeoutSecs : Option ℕ
  otlpEndpoint : Option String
  serviceName : Option String
  srcRack : Option String
  partnerNode : Option String

/-- `Resolved` of a probe, with the arguments that its record does not show. -/
structure Settings extends Probe.Resolved where
  device : Option String
  durationSecs : ℕ
  connectTimeoutSecs : ℕ
  otlpEndpoint : String
  serviceName : String

/-- The arguments of a command line that sets the mode only. -/
def ProbeArgs.ofMode (mode : ProbeMode) : ProbeArgs :=
  ⟨mode, none, none, none, none, none, none, none, none⟩

/-- `argh`: what it makes of the words of a command line. Options that a line does not set are
absent, and one whose value is not read by `from_str` is refused. -/
structure Argh where
  fromArgs : List String → Option ProbeArgs
  fromArgs_mode : ∀ word,
    fromArgs ["probe", "--mode", word] = (ProbeMode.fromStr word).map ProbeArgs.ofMode

/-- `ProbeArgs::resolve`. -/
def ProbeArgs.resolve (env : Env) (args : ProbeArgs) : Settings where
  mode := args.mode
  server := args.server.or (envString env "ACCELRD_PROBE_SERVER")
  device := args.device.or (envString env "ACCELRD_PROBE_DEVICE")
  durationSecs := (args.durationSecs.or (envNat env "ACCELRD_PROBE_DURATION_SECS")).getD 30
  connectTimeoutSecs :=
    (args.connectTimeoutSecs.or (envNat env "ACCELRD_PROBE_CONNECT_TIMEOUT_SECS")).getD 60
  otlpEndpoint := (args.otlpEndpoint.or (envString env "ACCELRD_OTLP_ENDPOINT")).getD
    "http://127.0.0.1:4318"
  serviceName := (args.serviceName.or (envString env "OTEL_SERVICE_NAME")).getD "accelrd-probe"
  srcRack := args.srcRack.or (envString env "ACCELRD_PROBE_SRC_RACK")
  partnerNode := args.partnerNode.or (envString env "ACCELRD_PROBE_PARTNER_NODE")

/-- `PERFTEST_PORT`. -/
def perftestPort : ℕ := 18515

/-- `build_cmd`: the words of the command. -/
def buildCmd (server : Option String) (device : String) (port durationSecs : ℕ) : List String :=
  ["ib_send_bw", "-F", "--report_gbits", "-d", device, "-p", toString port, "--duration",
    toString durationSecs] ++ server.toList

/-- The command that `run` of a probe spawns on a device. -/
def Settings.command (s : Settings) (device : String) : Except String (List String) :=
  match s.mode with
  | .server => .ok (buildCmd none device perftestPort s.durationSecs)
  | .client =>
      match s.server with
      | some server => .ok (buildCmd (some server) device perftestPort s.durationSecs)
      | none => .error "--server (or ACCELRD_PROBE_SERVER) required in client mode"

/-! ### The container -/

/-- What makes a container of a template: the environment of the image, the fields of the
pod, and what the references in a value are expanded to. -/
structure Kubelet where
  image : Env
  field : String → String
  expand : String → String
  expand_plain : ∀ s, '$' ∉ s.toList → expand s = s

/-- The environment of a container: of several entries the last, else that of the image. -/
def Kubelet.env (k : Kubelet) (entries : List (String × EnvSource)) : Env := fun key =>
  match (entries.filter (·.1 = key)).getLast? with
  | some (_, .value s) => some (k.expand s)
  | some (_, .fieldRef path) => some (k.field path)
  | none => k.image key

/-- The settings that the container of a pod runs with. -/
def Kubelet.settings (k : Kubelet) (argh : Argh) (args : Resolved) (s : PodSpec) :
    Option Settings :=
  (argh.fromArgs ((podArgs s).map k.expand)).map (ProbeArgs.resolve (k.env (podEnv args s)))

/-! ### What the variables say -/

/-- A text that says something. -/
def nonEmpty (s : String) : Option String := (some s).filter (· ≠ "")

lemma nonEmpty_of_ne {s : String} (h : s ≠ "") : nonEmpty s = some s :=
  Option.filter_some_pos (by simpa using h)

/-- What is asked of the pod of a template: it knows its rack and its partner, it reports to
where the prober reports to, and it runs the command of its side, for as long as the prober
wants. -/
structure Launched (args : Resolved) (spec : PodSpec) (s : Settings) : Prop where
  srcRack : s.srcRack = nonEmpty spec.rack
  partnerNode : s.partnerNode = nonEmpty spec.partnerNode
  otlpEndpoint : s.otlpEndpoint = (nonEmpty args.otlpEndpoint).getD "http://127.0.0.1:4318"
  serviceName : s.serviceName = "accelrd-probe"
  command : ∀ device, s.command device = .ok (buildCmd
    (if spec.role = .client then spec.partnerIp else none) device perftestPort
    args.testDurationSecs)

/-- A template whose values have no references in them, and name the address of a server. -/
structure Plain (args : Resolved) (spec : PodSpec) : Prop where
  endpoint : '$' ∉ args.otlpEndpoint.toList
  rack : '$' ∉ spec.rack.toList
  partner : '$' ∉ spec.partnerNode.toList
  ip : ∀ ip ∈ spec.partnerIp, '$' ∉ ip.toList ∧ ip ≠ ""
  server : spec.role = .client → spec.partnerIp.isSome

section Container

variable (k : Kubelet) (args : Resolved) (spec : PodSpec)

/-- What only the template of a client sets is the address of the server. -/
lemma filter_podEnv {key : String} (hkey : key ≠ "ACCELRD_PROBE_SERVER") :
    (podEnv args spec).filter (·.1 = key) = (commonEnv args spec).filter (·.1 = key) := by
  have hclient : (clientEnv spec).filter (·.1 = key) = [] := by
    rw [List.filter_eq_nil_iff]
    intro e he
    rw [clientEnv] at he
    split at he
    · obtain rfl := List.mem_singleton.mp he
      simpa using hkey.symm
    · exact absurd he List.not_mem_nil
  rw [podEnv, List.filter_append, hclient, List.append_nil]

/-- A variable that the template sets for either role. -/
lemma env_common {key value : String} (hkey : key ≠ "ACCELRD_PROBE_SERVER")
    (h : (commonEnv args spec).filter (·.1 = key) = [(key, .value value)]) :
    k.env (podEnv args spec) key = some (k.expand value) := by
  rw [Kubelet.env, filter_podEnv args spec hkey, h]
  rfl

/-- A variable that the template takes from the pod. -/
lemma env_field {key path : String} (hkey : key ≠ "ACCELRD_PROBE_SERVER")
    (h : (commonEnv args spec).filter (·.1 = key) = [(key, .fieldRef path)]) :
    k.env (podEnv args spec) key = some (k.field path) := by
  rw [Kubelet.env, filter_podEnv args spec hkey, h]
  rfl

/-- The address of the server, which only the template of a client sets. -/
lemma env_server : k.env (podEnv args spec) "ACCELRD_PROBE_SERVER" =
    if spec.role = .client then (spec.partnerIp.map k.expand).or (k.image "ACCELRD_PROBE_SERVER")
    else k.image "ACCELRD_PROBE_SERVER" := by
  have hcommon : (commonEnv args spec).filter (·.1 = "ACCELRD_PROBE_SERVER") = [] := rfl
  rw [Kubelet.env, podEnv, List.filter_append, hcommon, clientEnv]
  cases spec.role with
  | server => rfl
  | client =>
      cases spec.partnerIp with
      | none => rfl
      | some ip => rfl

/-- A variable that can be read back as a text. -/
lemma envString_common {key value : String} (hkey : key ≠ "ACCELRD_PROBE_SERVER")
    (h : (commonEnv args spec).filter (·.1 = key) = [(key, .value value)])
    (hplain : '$' ∉ value.toList) :
    envString (k.env (podEnv args spec)) key = nonEmpty value := by
  rw [envString, env_common k args spec hkey h, k.expand_plain value hplain, nonEmpty]

/-- The duration is read back as a number. -/
lemma envNat_duration (hduration : args.testDurationSecs < 2 ^ 64) :
    envNat (k.env (podEnv args spec)) "ACCELRD_PROBE_DURATION_SECS" =
      some args.testDurationSecs := by
  have hplain : '$' ∉ (toString args.testDurationSecs).toList := fun hmem =>
    absurd (Text.isDigit_of_mem_toString hmem) (by decide)
  rw [envNat, envU64, env_common k args spec (by decide) rfl, k.expand_plain _ hplain,
    Option.bind_some, Text.parseUnsigned_toString hduration, Option.map_some, Option.map_some,
    UInt64.toNat_ofNat_of_lt' hduration]

/-- The mode of the side of a pod. -/
def modeOf : Role → ProbeMode
  | .server => .server
  | .client => .client

/-- The arguments of the command line of a pod. -/
def argsOf (role : Role) : ProbeArgs := .ofMode (modeOf role)

/-- The command line is read back. -/
lemma fromArgs_podArgs (argh : Argh) :
    argh.fromArgs ((podArgs spec).map k.expand) = some (argsOf spec.role) := by
  have hprobe : k.expand "probe" = "probe" := k.expand_plain _ (by decide)
  have hmode : k.expand "--mode" = "--mode" := k.expand_plain _ (by decide)
  have hslug : k.expand spec.role.slug = spec.role.slug :=
    k.expand_plain _ (by cases spec.role <;> decide)
  rw [podArgs, List.map_cons, List.map_cons, List.map_singleton, hprobe, hmode, hslug,
    argh.fromArgs_mode]
  cases spec.role <;> rfl

/-- The command of the side of a pod. -/
lemma command_argsOf (hduration : args.testDurationSecs < 2 ^ 64) (hplain : Plain args spec)
    (device : String) :
    (ProbeArgs.resolve (k.env (podEnv args spec)) (argsOf spec.role)).command device =
      .ok (buildCmd (if spec.role = .client then spec.partnerIp else none) device perftestPort
        args.testDurationSecs) := by
  have hseconds : (ProbeArgs.resolve (k.env (podEnv args spec)) (argsOf spec.role)).durationSecs =
      args.testDurationSecs :=
    congrArg (Option.getD · 30) (envNat_duration k args spec hduration)
  rw [Settings.command, hseconds]
  cases hrole : spec.role with
  | server => rfl
  | client =>
      obtain ⟨ip, hip⟩ := Option.isSome_iff_exists.mp (hplain.server hrole)
      obtain ⟨hdollar, hne⟩ := hplain.ip ip hip
      have hserver : envString (k.env (podEnv args spec)) "ACCELRD_PROBE_SERVER" = some ip := by
        rw [envString, env_server, if_pos hrole, hip, Option.map_some, Option.some_or,
          k.expand_plain ip hdollar]
        exact nonEmpty_of_ne hne
      have hresolved : (ProbeArgs.resolve (k.env (podEnv args spec)) (argsOf .client)).server =
          some ip := hserver
      have hmode : (ProbeArgs.resolve (k.env (podEnv args spec)) (argsOf .client)).mode =
          .client := rfl
      rw [hmode, hresolved, if_pos rfl, hip]

/-- **A pod does what its template says.** -/
lemma exists_launched (argh : Argh) (hduration : args.testDurationSecs < 2 ^ 64)
    (hplain : Plain args spec) :
    ∃ s, k.settings argh args spec = some s ∧ Launched args spec s := by
  refine ⟨_, by rw [Kubelet.settings, fromArgs_podArgs, Option.map_some], ?_⟩
  refine ⟨?srcRack, ?partnerNode, ?otlpEndpoint, ?serviceName,
    command_argsOf k args spec hduration hplain⟩
  case srcRack => exact envString_common k args spec (by decide) rfl hplain.rack
  case partnerNode => exact envString_common k args spec (by decide) rfl hplain.partner
  case otlpEndpoint =>
    exact congrArg (Option.getD · _) (envString_common k args spec (by decide) rfl hplain.endpoint)
  case serviceName =>
    have hname : envString (k.env (podEnv args spec)) "OTEL_SERVICE_NAME" =
        nonEmpty "accelrd-probe" := envString_common k args spec (by decide) rfl (by decide)
    exact congrArg (Option.getD · _) hname

end Container

/-! ### Which pods a probe creates -/

/-- The template that an event hands to the API server. -/
def Event.template : Event → Option PodSpec
  | .create spec _ => some spec
  | _ => none

/-- The server pod, and then a client pod for an address that a poll of it answered. -/
inductive Template (t : Target) (polls : List PodGet) : PodSpec → Prop where
  | server : Template t polls ⟨.server, t.serverNode, t.clientNode, none, t.rack⟩
  | client (status : Option PodStatus) (h : .found status ∈ polls) (hip : podIpOf status ≠ "") :
      Template t polls ⟨.client, t.clientNode, t.serverNode, some (podIpOf status), t.rack⟩

lemma awaitPodIp_eq_ok {name ip : String} {answers : List PodGet}
    (h : (awaitPodIp name answers).1 = .ok ip) :
    ∃ status, .found status ∈ answers ∧ podIpOf status ≠ "" ∧ podIpOf status = ip := by
  induction answers with
  | nil => cases h
  | cons answer answers ih =>
      have hlater (h : (awaitPodIp name answers).1 = .ok ip) :
          ∃ status, .found status ∈ answer :: answers ∧ podIpOf status ≠ "" ∧
            podIpOf status = ip := by
        obtain ⟨status, hmem, hip⟩ := ih h
        exact ⟨status, List.mem_cons_of_mem _ hmem, hip⟩
      cases answer with
      | notFound => cases h
      | transient => exact hlater h
      | found status =>
          rw [awaitPodIp] at h
          dsimp only at h
          split_ifs at h with hip
          · exact ⟨status, List.mem_cons_self, hip, Except.ok.inj h⟩
          · exact hlater h

lemma template_of_isPoll {e : Event} (h : e.IsPoll) : e.template = none := by
  cases e <;> first | rfl | exact h.elim

lemma template_judge (t : Target) (v : Verdict) : ∀ e ∈ t.judge v, e.template = none := by
  rw [Target.judge]
  refine List.forall_mem_cons.mpr ⟨rfl, fun e he => ?_⟩
  obtain ⟨r, -, rfl⟩ := List.mem_map.mp he
  rfl

lemma template_verdictOf (env : Answers) (phase : Phase) :
    ∀ e ∈ (verdictOf env phase).2, e.template = none := by
  cases phase with
  | succeeded => exact List.forall_mem_singleton.mpr rfl
  | failed => exact List.forall_mem_nil _
  | timeout => exact List.forall_mem_nil _

/-- From the creation of the client pod on there is no other template. -/
lemma template_probeClient (t : Target) (env : Answers) (server : String) (spec : PodSpec) :
    ∀ e ∈ probeClient t env server spec, e.template = none ∨ e.template = some spec := by
  rw [probeClient]
  cases env.clientCreated with
  | none =>
      exact List.forall_mem_cons.mpr ⟨Or.inr rfl, List.forall_mem_cons.mpr ⟨Or.inl rfl,
        fun e he => Or.inl (template_judge t _ e he)⟩⟩
  | some pod =>
      dsimp only
      have hpolls := (awaitTerminal_spec pod.podName env.clientPolls).polls
      generalize awaitTerminal pod.podName env.clientPolls = wait at hpolls ⊢
      obtain ⟨phase, polls⟩ := wait
      refine List.forall_mem_cons.mpr ⟨Or.inr rfl, List.forall_mem_append.mpr
        ⟨fun e he => Or.inl (template_of_isPoll (hpolls e he)), fun e he => Or.inl ?_⟩⟩
      cases phase with
      | error msg =>
          rcases List.mem_cons.mp he with rfl | he
          · rfl
          · rcases List.mem_cons.mp he with rfl | he
            · rfl
            · exact template_judge t _ e he
      | ok phase =>
          rcases List.mem_append.mp he with he | he
          · exact template_verdictOf env phase e he
          · rcases List.mem_append.mp he with he | he
            · exact template_judge t _ e he
            · rcases List.mem_pair.mp he with rfl | rfl <;> rfl

/-- **The templates of a probe**. -/
lemma template_probe {t : Target} {env : Answers} {e : Event} (he : e ∈ probe t env)
    {spec : PodSpec} (hspec : e.template = some spec) : Template t env.serverPolls spec := by
  have hjudge {v : Verdict} (he : e ∈ t.judge v) : Template t env.serverPolls spec := by
    rw [template_judge t v e he] at hspec
    cases hspec
  have hcreate {answer : Option CreatedPod} {spec' : PodSpec} (h : e = .create spec' answer)
      (htemplate : Template t env.serverPolls spec') : Template t env.serverPolls spec := by
    subst h
    exact Option.some.inj hspec ▸ htemplate
  have hdelete {name : String} (h : e = .delete name) : Template t env.serverPolls spec := by
    subst h
    cases hspec
  rw [probe] at he
  cases hbuild : buildPod env.probeImage env.fromValue
      ⟨.server, t.serverNode, t.clientNode, none, t.rack⟩ with
  | error msg =>
      simp only [hbuild] at he
      exact hjudge he
  | ok _ =>
      simp only [hbuild, probeServer] at he
      cases hserver : env.serverCreated with
      | none =>
          rw [hserver] at he
          rcases List.mem_cons.mp he with he | he
          · exact hcreate he .server
          · exact hjudge he
      | some pod =>
          rw [hserver] at he
          dsimp only at he
          have hpolls := awaitPodIp_events pod.podName env.serverPolls
          have hok (ip : String) := @awaitPodIp_eq_ok pod.podName ip env.serverPolls
          generalize awaitPodIp pod.podName env.serverPolls = wait at he hpolls hok
          obtain ⟨result, polls⟩ := wait
          rcases List.mem_cons.mp he with he | he
          · exact hcreate he .server
          rcases List.mem_append.mp he with he | he
          · rw [template_of_isPoll (hpolls e he).1] at hspec
            cases hspec
          cases result with
          | error msg =>
              rcases List.mem_cons.mp he with he | he
              · exact hdelete he
              · exact hjudge he
          | ok ip =>
              obtain ⟨status, hstatus, hne, rfl⟩ := hok ip rfl
              dsimp only at he
              cases hclient : buildPod env.probeImage env.fromValue
                  ⟨.client, t.clientNode, t.serverNode, some (podIpOf status), t.rack⟩ with
              | error msg =>
                  rw [hclient] at he
                  rcases List.mem_cons.mp he with he | he
                  · exact hdelete he
                  · exact hjudge he
              | ok _ =>
                  rw [hclient] at he
                  rcases template_probeClient t env _ _ e he with hnone | hsome
                  · rw [hnone] at hspec
                    cases hspec
                  · rw [hsome] at hspec
                    exact Option.some.inj hspec ▸ .client status hstatus hne

/-- **What the prober wants is what its pods do.** Whatever the API server answers, every pod
that a probe creates is the server's, or is the client's and has the address that the server
pod was found to have. Its container reads the prober's settings back from its environment:
for as long as the prober wants it runs the command of its side, on the port that both sides
use, and it reports under its rack and its partner to where the prober reports. (The texts have
no references for the container's environment, and the duration fits into its type.) -/
theorem launched_of_create (k : Kubelet) (argh : Argh) {args : Resolved}
    (hduration : args.testDurationSecs < 2 ^ 64) (hendpoint : '$' ∉ args.otlpEndpoint.toList)
    {t : Target} (hrack : '$' ∉ t.rack.toList) (hserver : '$' ∉ t.serverNode.toList)
    (hclient : '$' ∉ t.clientNode.toList) {env : Answers}
    (hips : ∀ status, .found status ∈ env.serverPolls → '$' ∉ (podIpOf status).toList)
    {spec : PodSpec} {answer : Option CreatedPod} (h : .create spec answer ∈ probe t env) :
    Template t env.serverPolls spec ∧
      ∃ s, k.settings argh args spec = some s ∧ Launched args spec s := by
  have htemplate := template_probe h rfl
  refine ⟨htemplate, exists_launched k args spec argh hduration ?_⟩
  cases htemplate with
  | server =>
      exact ⟨hendpoint, hrack, hclient, fun _ hip => absurd hip (Option.not_mem_none _),
        fun h => Role.noConfusion h⟩
  | client status hstatus hne =>
      refine ⟨hendpoint, hrack, hserver, fun ip hip => ?_, fun _ => rfl⟩
      obtain rfl := Option.some.inj hip
      exact ⟨hips status hstatus, hne⟩

/-- A container that takes every value as it is. -/
def plainKubelet : Kubelet := ⟨fun _ => none, fun _ => "", fun s => s, fun _ _ => rfl⟩

/-- `argh`, where it only has to know the command line of the template. -/
def templateArgh : Argh where
  fromArgs words :=
    match words with
    | ["probe", "--mode", word] => (ProbeMode.fromStr word).map ProbeArgs.ofMode
    | _ => none
  fromArgs_mode _ := rfl

lemma quick_deadlines : 0 + podIpTimeoutSecs < 2 ^ 63 ∧
    0 + podIpTimeoutSecs + totalTimeoutSecs 60 < 2 ^ 63 := by decide

/-- A probe whose server pod has an address at once. -/
def quickAnswers : Answers where
  probeImage := some "accelrd:1"
  fromValue _ := true
  serverCreated := some ⟨some "server-pod"⟩
  serverPolls := [.found (some ⟨some "Running", some "10.0.0.5"⟩)]
  clientCreated := some ⟨some "client-pod"⟩
  clientPolls := []
  logs := none
  fromStr _ := none
  clock := 0
  testDurationSecs := 60
  server_deadline := quick_deadlines.1
  client_deadline := quick_deadlines.2

/-- Its client runs for a minute, as the settings in the prober's environment say. -/
theorem launched_of_create_client :
    let args := ProberArgs.resolve
      (fun key => if key = "ACCELRD_PROBER_TEST_DURATION_SECS" then some "60" else none)
      ⟨none, none, none, none, none, none, none, none, [], false⟩
    ∃ s, plainKubelet.settings templateArgh args
        ⟨.client, "node-b", "node-a", some "10.0.0.5", "r1"⟩ = some s ∧
      Launched args ⟨.client, "node-b", "node-a", some "10.0.0.5", "r1"⟩ s :=
  (@launched_of_create plainKubelet templateArgh _ (by decide) (by decide)
    ⟨"node-a", "node-b", "r1", "roce.probe.attempts.total", fun _ => []⟩ (by decide) (by decide)
    (by decide) quickAnswers
    (fun status h => by
      obtain rfl := PodGet.found.inj (List.mem_singleton.mp h)
      decide)
    _ (some ⟨some "client-pod"⟩) (List.mem_of_getElem? (i := 2) rfl)).2

end Accelrd.Prober
