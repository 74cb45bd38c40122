import Mathlib.Tactic
import Accelrd.Library.Text
import Accelrd.Prober.Annotations

/-!
`src/prober/pods.rs` and `src/prober/results.rs`: the pods of one probe, and what the
API server answers about them.

A wait (`awaitPodIp`, `awaitTerminal`) is given by the answers to the polls it makes
before its deadline; after the last of them the deadline has passed. Each function
returns what it did, as a list of events, besides its result.
-/

namespace Accelrd.Prober

open Kube

/-! ### Requests and answers -/

/-- `Role`. -/
inductive Role where
  | server
  | client
  deriving DecidableEq

/-- `Role::slug`. -/
def Role.slug : Role → String
  | .server => "server"
  | .client => "client"

/-- `PodSpec`, but for the arguments that only shape the JSON template. -/
structure PodSpec where
  role : Role
  nodeName : String
  partnerNode : String
  partnerIp : Option String
  rack : String

/-- The pod that a create request returns. -/
structure CreatedPod where
  name : Option String

/-- `metadata.name.clone().unwrap_or_default()`. -/
def CreatedPod.podName (p : CreatedPod) : String := p.name.getD ""

/-- `status` of a pod. -/
structure PodStatus where
  phase : Option String
  podIp : Option String

/-- The answer to a poll of a pod. -/
inductive PodGet where
  | found (status : Option PodStatus)
  | notFound
  | transient

/-- `Phase`. -/
inductive Phase where
  | succeeded
  | failed
  | timeout
  deriving DecidableEq

/-- What a probe does, and what it hears in answer. -/
inductive Event where
  | create (spec : PodSpec) (answer : Option CreatedPod)
  | get (role : Role) (answer : PodGet)
  | expired (role : Role)
  | logs (answer : Option String)
  | delete (name : String)
  | attempt (metric rack verdict : String)
  | patch (node : String) (body : MetaPatch)

/-! ### Building pods -/

/-- `build_pod`: the image must be configured, and the template must be accepted as a
pod by `serde_json::from_value`. -/
def buildPod (probeImage : Option String) (fromValue : PodSpec → Bool) (spec : PodSpec) :
    Except String Unit :=
  match probeImage with
  | none => .error "probe_image (set ACCELRD_PROBER_PROBE_IMAGE)"
  | some _ => if fromValue spec then .ok () else .error "synthesize Pod from JSON template"

/-! ### Waiting -/

/-- The phase of a pod, empty if it has none. -/
def phaseOf (status : Option PodStatus) : String := (status.bind (·.phase)).getD ""

/-- The IP of a pod, empty if it has none. -/
def podIpOf (status : Option PodStatus) : String := (status.bind (·.podIp)).getD ""

/-- `await_pod_ip`. -/
def awaitPodIp (name : String) : List PodGet → Except String String × List Event
  | [] => (.error ("timeout waiting for pod " ++ name ++ " to receive a pod-network IP"),
      [.expired .server])
  | answer :: answers =>
      let (result, events) :=
        match answer with
        | .found status =>
            if podIpOf status ≠ "" then (.ok (podIpOf status), [])
            else if phaseOf status = "Failed" ∨ phaseOf status = "Succeeded" then
              (.error ("pod " ++ name ++ " terminated before receiving an IP"), [])
            else awaitPodIp name answers
        | .notFound => (.error ("pod " ++ name ++ " disappeared before receiving an IP"), [])
        | .transient => awaitPodIp name answers
      (result, .get .server answer :: events)

/-- `await_terminal`. -/
def awaitTerminal (name : String) : List PodGet → Except String Phase × List Event
  | [] => (.ok .timeout, [.expired .client])
  | answer :: answers =>
      let (result, events) :=
        match answer with
        | .found status =>
            if phaseOf status = "Succeeded" then (.ok .succeeded, [])
            else if phaseOf status = "Failed" then (.ok .failed, [])
            else awaitTerminal name answers
        | .notFound => (.error ("pod " ++ name ++ " disappeared during probe"), [])
        | .transient => awaitTerminal name answers
      (result, .get .client answer :: events)

/-! ### Reading the record -/

/-- A line that may hold a record. -/
def isRecordLine (line : List Char) : Bool := line.head? = some '{' && line.getLast? = some '}'

/-- `results::parse`: the first line that deserializes. -/
def parse (fromStr : String → Option ProbeRecord) (stdout : String) : Except String ProbeRecord :=
  match ((Text.lines stdout.toList).map Text.trim).findSome? fun line =>
    if isRecordLine line then fromStr (String.ofList line) else none with
  | some rec => .ok rec
  | none => .error "parse probe stdout"

/-- `read_record`, given the answer to the request for the logs. -/
def readRecord (fromStr : String → Option ProbeRecord) (logs : Option String) :
    Except String ProbeRecord :=
  match logs with
  | some log => parse fromStr log
  | none => .error "read probe logs"

end Accelrd.Prober
