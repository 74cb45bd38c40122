import Mathlib.Tactic
import Mathlib.Data.String.Basic
import Accelrd.Library.MergePatch

/-!
The part of the Kubernetes API the program talks to: `Node` objects with their
labels and annotations, and the `PATCH` request that merges into
`metadata.labels` and `metadata.annotations`.

* `ObjectMeta.annotationAt_merge`, `ObjectMeta.labelAt_merge`: what a key holds after
  a request.
* `patchNode_comm`: requests on different nodes commute; `patchNodes_perm`
  turns this into order independence of any set of such requests.
* `patchNodes_eq_map`: the cluster answers node by node.
-/

namespace Accelrd

open Std

/-- `BTreeMap<String, String>`. -/
abbrev StrMap : Type := ExtTreeMap String String

namespace Kube

/-- `metadata` of an API object. -/
structure ObjectMeta where
  name : Option String
  labels : Option StrMap := none
  annotations : Option StrMap := none

/-- One entry of `status.conditions` of a node. -/
structure NodeCondition where
  type_ : String
  status : String

/-- `status` of a node. -/
structure NodeStatus where
  conditions : Option (List NodeCondition)

/-- A `Node` object. -/
structure Node where
  metadata : ObjectMeta
  status : Option NodeStatus

/-- The body of a merge patch on a node; a section that is absent from the body
leaves that section of the object alone. -/
structure MetaPatch where
  labels : Option (MergePatch String String) := none
  annotations : Option (MergePatch String String) := none

/-- The value of a label, whether or not there is a map of labels. -/
def ObjectMeta.labelAt (m : ObjectMeta) (k : String) : Option String := (m.labels.getD ∅)[k]?

/-- The value of an annotation. -/
def ObjectMeta.annotationAt (m : ObjectMeta) (k : String) : Option String :=
  (m.annotations.getD ∅)[k]?

/-- One section of the object after the patch: a missing section counts as the
empty object. -/
def mergeSection (current : Option StrMap) : Option (MergePatch String String) → Option StrMap
  | none => current
  | some p => some (MergePatch.apply (current.getD ∅) p)

/-- The API server's merge of a patch body into an object. -/
def ObjectMeta.merge (m : ObjectMeta) (p : MetaPatch) : ObjectMeta where
  name := m.name
  labels := mergeSection m.labels p.labels
  annotations := mergeSection m.annotations p.annotations

/-- What a patch says about an annotation: `none` nothing, `some none` to delete it. -/
def MetaPatch.annotationWord (p : MetaPatch) (k : String) : Option (Option String) :=
  p.annotations.bind (·[k]?)

/-- What a patch says about a label. -/
def MetaPatch.labelWord (p : MetaPatch) (k : String) : Option (Option String) :=
  p.labels.bind (·[k]?)

lemma getElem?_mergeSection (current : Option StrMap) (p : Option (MergePatch String String))
    (k : String) :
    ((mergeSection current p).getD ∅)[k]? = (p.bind (·[k]?)).getD (current.getD ∅)[k]? := by
  cases p with
  | none => rfl
  | some p => exact MergePatch.getElem?_apply _ p k

@[simp] lemma ObjectMeta.name_merge (m : ObjectMeta) (p : MetaPatch) :
    (m.merge p).name = m.name := rfl

/-- An annotation after a patch. -/
@[simp] lemma ObjectMeta.annotationAt_merge (m : ObjectMeta) (p : MetaPatch) (k : String) :
    (m.merge p).annotationAt k = (p.annotationWord k).getD (m.annotationAt k) :=
  getElem?_mergeSection m.annotations p.annotations k

/-- A label after a patch. -/
@[simp] lemma ObjectMeta.labelAt_merge (m : ObjectMeta) (p : MetaPatch) (k : String) :
    (m.merge p).labelAt k = (p.labelWord k).getD (m.labelAt k) :=
  getElem?_mergeSection m.labels p.labels k

/-! ### Requests on a cluster -/

/-- Does the request on `name` address this node? -/
def Node.isNamed (n : Node) (name : String) : Prop := n.metadata.name = some name

instance (n : Node) (name : String) : Decidable (n.isNamed name) :=
  inferInstanceAs (Decidable (n.metadata.name = some name))

/-- A node after the patch. -/
def Node.merge (n : Node) (p : MetaPatch) : Node := { n with metadata := n.metadata.merge p }

/-- `PATCH` of the node `name` of the cluster. -/
def patchNode (nodes : List Node) (name : String) (p : MetaPatch) : List Node :=
  nodes.map fun n => if n.isNamed name then n.merge p else n

@[simp] lemma map_name_patchNode (nodes : List Node) (name : String) (p : MetaPatch) :
    (patchNode nodes name p).map (·.metadata.name) = nodes.map (·.metadata.name) := by
  rw [patchNode, List.map_map]
  refine List.map_congr_left fun n _ => ?_
  simp only [Function.comp_apply]
  split_ifs <;> rfl

/-- **Requests on different nodes commute.** -/
theorem patchNode_comm (nodes : List Node) {a b : String} (hab : a ≠ b) (p q : MetaPatch) :
    patchNode (patchNode nodes a p) b q = patchNode (patchNode nodes b q) a p := by
  simp only [patchNode, List.map_map]
  refine List.map_congr_left fun n _ => ?_
  simp only [Function.comp_apply]
  by_cases ha : n.isNamed a
  · have hb : ¬ n.isNamed b := fun hb => hab (Option.some.inj (ha.symm.trans hb))
    have hb' : ¬ (n.merge p).isNamed b := hb
    have ha' : n.isNamed a := ha
    rw [if_pos ha, if_neg hb', if_neg hb, if_pos ha']
  · by_cases hb : n.isNamed b
    · have ha' : ¬ (n.merge q).isNamed a := ha
      rw [if_neg ha, if_pos hb, if_neg ha']
    · rw [if_neg ha, if_neg hb, if_neg ha]

/-- Carry out a list of requests. -/
def patchNodes (nodes : List Node) (reqs : List (String × MetaPatch)) : List Node :=
  reqs.foldl (fun nodes r => patchNode nodes r.1 r.2) nodes

@[simp] lemma patchNodes_nil (nodes : List Node) : patchNodes nodes [] = nodes := rfl

@[simp] lemma patchNodes_cons (nodes : List Node) (r : String × MetaPatch)
    (reqs : List (String × MetaPatch)) :
    patchNodes nodes (r :: reqs) = patchNodes (patchNode nodes r.1 r.2) reqs := rfl

lemma patchNodes_append (nodes : List Node) (reqs reqs' : List (String × MetaPatch)) :
    patchNodes nodes (reqs ++ reqs') = patchNodes (patchNodes nodes reqs) reqs' :=
  List.foldl_append

@[simp] lemma map_name_patchNodes (nodes : List Node) (reqs : List (String × MetaPatch)) :
    (patchNodes nodes reqs).map (·.metadata.name) = nodes.map (·.metadata.name) := by
  induction reqs generalizing nodes with
  | nil => rfl
  | cons r reqs ih => rw [patchNodes_cons, ih, map_name_patchNode]

/-- Requests on pairwise different nodes may be carried out in any order. -/
lemma patchNodes_perm (nodes : List Node) {reqs reqs' : List (String × MetaPatch)}
    (hp : reqs.Perm reqs') (hnd : (reqs.map Prod.fst).Nodup) :
    patchNodes nodes reqs = patchNodes nodes reqs' := by
  refine hp.foldl_eq' (fun r hr r' hr' nodes => ?_) nodes
  by_cases h : r = r'
  · rw [h]
  · exact patchNode_comm nodes (fun hname => h (List.inj_on_of_nodup_map hnd hr hr' hname)) _ _

/-! ### One node of the cluster -/

/-- What one node makes of a list of requests. -/
def Node.receive (n : Node) (reqs : List (String × MetaPatch)) : Node :=
  reqs.foldl (fun n r => if n.isNamed r.1 then n.merge r.2 else n) n

lemma Node.receive_cons (n : Node) (r : String × MetaPatch) (reqs : List (String × MetaPatch)) :
    n.receive (r :: reqs) = (if n.isNamed r.1 then n.merge r.2 else n).receive reqs := rfl

/-- Every node answers the requests by itself. -/
lemma patchNodes_eq_map (nodes : List Node) (reqs : List (String × MetaPatch)) :
    patchNodes nodes reqs = nodes.map fun n => n.receive reqs := by
  induction reqs generalizing nodes with
  | nil => exact (List.map_id nodes).symm
  | cons r reqs ih =>
      rw [patchNodes_cons, ih, patchNode, List.map_map]
      rfl

/-- Requests on other nodes leave a node alone. -/
lemma Node.receive_of_notMem {n : Node} {reqs : List (String × MetaPatch)}
    (h : ∀ r ∈ reqs, ¬ n.isNamed r.1) : n.receive reqs = n := by
  induction reqs with
  | nil => rfl
  | cons r reqs ih =>
      rw [List.forall_mem_cons] at h
      rw [receive_cons, if_neg h.1]
      exact ih h.2

/-- A node with one request among the others. -/
lemma Node.receive_of_mem {n : Node} {reqs : List (String × MetaPatch)} {name : String}
    {p : MetaPatch} (hnd : (reqs.map Prod.fst).Nodup) (hmem : (name, p) ∈ reqs)
    (hn : n.isNamed name) : n.receive reqs = n.merge p := by
  induction reqs with
  | nil => simp at hmem
  | cons r reqs ih =>
      rw [List.map_cons, List.nodup_cons] at hnd
      rcases List.mem_cons.mp hmem with rfl | hmem
      · rw [receive_cons, if_pos hn]
        refine Node.receive_of_notMem fun r hr hnr => hnd.1 ?_
        exact List.mem_map.mpr ⟨r, hr, Option.some.inj (hnr.symm.trans hn)⟩
      · have hr : ¬ n.isNamed r.1 := fun hnr => hnd.1 (by
          rw [← Option.some.inj (hn.symm.trans hnr)]
          exact List.mem_map.mpr ⟨_, hmem, rfl⟩)
        rw [receive_cons, if_neg hr]
        exact ih hnd.2 hmem

end Kube

end Accelrd
