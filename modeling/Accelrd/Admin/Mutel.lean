import Mathlib.Tactic
import Accelrd.Library.Rollup

/-!
`src/admin/mutel.rs`: the latest value of a metric for each node, from the answer of the
metric store to a query without grouping.

* `latestByNode`: the code. Numbers are exact.
* `getElem?_latestByNode`: the rollup of a node is that of the samples of its series.
* `Series`, `response`: an answer with one group for each series, as the store gives it.
-/

namespace Accelrd.Admin

open Std

/-! ### Answers -/

/-- `serde_json::Value`, with exact numbers. -/
inductive Value where
  | null
  | bool (b : Bool)
  | num (q : ℚ)
  | str (s : String)
  | arr (items : List Value)
  | obj (members : List (String × Value))

/-- `Value::get` with a key. -/
def Value.get (key : String) : Value → Option Value
  | .obj members => members.lookup key
  | _ => none

/-- `Value::as_array`. -/
def Value.asArray : Value → Option (List Value)
  | .arr items => some items
  | _ => none

/-- `Value::as_str`. -/
def Value.asStr : Value → Option String
  | .str s => some s
  | _ => none

/-- `Value::as_f64`. -/
def Value.asF64 : Value → Option ℚ
  | .num q => some q
  | _ => none

/-! ### The rollup -/

/-- `NodeRollup`. -/
inductive NodeRollup where
  | sum
  | max
  | avg
  deriving DecidableEq

/-- The value of a node. A result that is not finite, as the maximum of no values, is left
out. -/
def NodeRollup.roll (op : NodeRollup) (vals : List ℚ) : Option ℚ :=
  match op with
  | .sum => some vals.sum
  | .max => vals.max?
  | .avg => if vals = [] then none else some (vals.sum / vals.length)

/-- The node of a group, empty if the group has none. -/
def groupNode (g : Value) : String :=
  (((g.get "labels_example").bind (Value.get "r:k8s.node.name")).bind Value.asStr).getD ""

/-- The value of the last point of a group. -/
def groupValue (g : Value) : Option ℚ :=
  ((((((g.get "points").bind Value.asArray).bind List.getLast?).bind Value.asArray).bind
    (·[1]?)).bind Value.asF64)

/-- The groups of an answer. -/
def groups (v : Value) : List Value := ((v.get "groups").bind Value.asArray).getD []

/-- What a group adds to the values of the nodes. -/
def collect (perNode : ExtTreeMap String (List ℚ)) (g : Value) : ExtTreeMap String (List ℚ) :=
  if groupNode g = "" then perNode
  else
    match groupValue g with
    | some v => perNode.alter (groupNode g) fun vals => some (vals.getD [] ++ [v])
    | none => perNode

/-- `latest_by_node`, from the answer on. -/
def latestByNode (op : NodeRollup) (v : Value) : ExtTreeMap String ℚ :=
  ((groups v).foldl collect ∅).filterMap fun _ vals => op.roll vals

/-! ### What it computes -/

/-- The node and the value of a group that has both. -/
def sample (g : Value) : Option (String × ℚ) :=
  if groupNode g = "" then none else (groupValue g).map fun v => (groupNode g, v)

lemma foldl_collect (gs : List Value) (perNode : ExtTreeMap String (List ℚ)) :
    gs.foldl collect perNode = (gs.filterMap sample).foldl Rollup.push perNode := by
  induction gs generalizing perNode with
  | nil => rfl
  | cons g gs ih =>
      rw [List.foldl_cons, ih, collect, List.filterMap_cons, sample]
      by_cases hnode : groupNode g = ""
      · rw [if_pos hnode, if_pos hnode]
      · rw [if_neg hnode, if_neg hnode]
        cases groupValue g with
        | none => rfl
        | some v => rfl

/-- The values of a node, in the order of the groups. -/
def samplesOf (v : Value) (node : String) : List ℚ :=
  Rollup.valuesOf ((groups v).filterMap sample) node

/-- **The rollup of a node** is that of its samples. -/
theorem getElem?_latestByNode (op : NodeRollup) (v : Value) (node : String) :
    (latestByNode op v)[node]? =
      if samplesOf v node = [] then none else op.roll (samplesOf v node) := by
  have hbuckets := Rollup.getElem?_buckets ((groups v).filterMap sample) node
  rw [Rollup.buckets, ← foldl_collect] at hbuckets
  rw [latestByNode, ExtTreeMap.getElem?_filterMap', hbuckets, ← samplesOf]
  split_ifs <;> rfl

/-! ### Series of cards -/

/-- A series of a gauge of a card: the labels that tell the card and the process that has
sent it, and the value that it had throughout the window. -/
structure Series where
  inst : String
  node : String
  pciAddr : String
  time : ℚ
  value : ℚ
  deriving DecidableEq

/-- The group of a series: its labels, and one point with the average. -/
def Series.toGroup (s : Series) : Value :=
  .obj [("labels_example", .obj [("r:service.instance.id", .str s.inst),
      ("r:k8s.node.name", .str s.node), ("pci_addr", .str s.pciAddr)]),
    ("points", .arr [.arr [.num s.time, .num s.value]])]

/-- The answer to a query without grouping. -/
def response (series : List Series) : Value :=
  .obj [("groups", .arr (series.map Series.toGroup))]

/-- The series of named nodes. -/
def named (series : List Series) : List Series := series.filter (·.node ≠ "")

/-- The series of a node. -/
def onNode (series : List Series) (node : String) : List Series :=
  series.filter (·.node = node)

lemma sample_toGroup (s : Series) :
    sample s.toGroup = if s.node = "" then none else some (s.node, s.value) := rfl

lemma filterMap_sample_response (series : List Series) :
    (groups (response series)).filterMap sample =
      (named series).map fun s => (s.node, s.value) := by
  change (series.map Series.toGroup).filterMap sample = _
  rw [List.filterMap_map, named]
  induction series with
  | nil => rfl
  | cons s series ih =>
      by_cases hnode : s.node = ""
      · rw [List.filterMap_cons_none (by rw [Function.comp_apply, sample_toGroup, if_pos hnode]),
          List.filter_cons_of_neg (by simpa using hnode), ih]
      · rw [List.filterMap_cons_some (by rw [Function.comp_apply, sample_toGroup, if_neg hnode]),
          List.filter_cons_of_pos (by simpa using hnode), ih, List.map_cons]

/-- The samples of a node are the values of its series. -/
lemma samplesOf_response (series : List Series) {node : String} (hnode : node ≠ "") :
    samplesOf (response series) node = (onNode series node).map Series.value := by
  rw [samplesOf, filterMap_sample_response, Rollup.valuesOf, List.filter_map, List.map_map, named,
    List.filter_filter]
  refine congrArg (List.map _) (List.filter_congr fun s _ => ?_)
  by_cases hs : s.node = node <;> simp [hs, hnode]

end Accelrd.Admin
