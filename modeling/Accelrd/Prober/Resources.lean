import Mathlib.Tactic
import Accelrd.Library.Insertions
import Accelrd.Prober.Launch

/-!
The resources that a probe pod asks for: `resolve_probe_resources` of `src/prober/mod.rs` and
`resources` of `src/prober/pods.rs`.

* `resources`: the code.
* `Asks`: what an entry of the command line or of the environment says.
* `parseResource_eq_some_iff`: every entry is read as what it says.
* `allotted_resources`: for every resource the last entry about it counts, in the requests and
  in the limits.
-/

namespace Accelrd.Prober

open Std Text

/-! ### Entries -/

/-- `cs` is `word`, with space around it. -/
def Padded (cs : List Char) (word : String) : Prop :=
  word ≠ "" ∧ Trimmed word.toList ∧
    ∃ front back, Blank front ∧ Blank back ∧ cs = front ++ word.toList ++ back

/-- `entry` is `k=v`, with space around either. -/
def Asks (entry : List Char) (k v : String) : Prop :=
  ∃ left right, entry = left ++ '=' :: right ∧ '=' ∉ left ∧ Padded left k ∧ Padded right v

lemma padded_iff {cs : List Char} {word : String} :
    Padded cs word ↔ trim cs ≠ [] ∧ String.ofList (trim cs) = word := by
  rw [ofList_eq_iff, Padded, ← trim_eq_iff]
  constructor
  · rintro ⟨hne, h⟩
    exact ⟨by rw [h]; simpa using hne, h⟩
  · rintro ⟨hne, h⟩
    exact ⟨by rw [h] at hne; simpa using hne, h⟩

/-- **An entry** is read as what it says. -/
lemma parseResource_eq_some_iff {entry : List Char} {k v : String} :
    parseResource entry = some (k, v) ↔ Asks entry k v := by
  rw [parseResource]
  constructor
  · intro h
    cases hsplit : splitOnce '=' entry with
    | none => simp [hsplit] at h
    | some parts =>
        obtain ⟨left, right⟩ := parts
        obtain ⟨hleft, heq⟩ := splitOnce_eq_some_iff.mp hsplit
        simp only [hsplit] at h
        split_ifs at h with hne
        obtain ⟨hk, hv⟩ := Prod.mk.inj (Option.some.inj h)
        exact ⟨left, right, heq, hleft, padded_iff.mpr ⟨hne.1, hk⟩, padded_iff.mpr ⟨hne.2, hv⟩⟩
  · rintro ⟨left, right, rfl, hleft, hk, hv⟩
    obtain ⟨hkne, rfl⟩ := padded_iff.mp hk
    obtain ⟨hvne, rfl⟩ := padded_iff.mp hv
    simp only [splitOnce_append hleft]
    exact if_pos ⟨hkne, hvne⟩

/-- The space around an entry does not count. -/
lemma parseResource_trim (entry : List Char) :
    parseResource (trim entry) = parseResource entry := by
  obtain ⟨-, front, back, hfront, hback, hentry⟩ :=
    trim_eq_iff.mp (rfl : trim entry = trim entry)
  generalize trim entry = core at hentry
  subst hentry
  have hnot {pad : List Char} (hpad : Blank pad) : '=' ∉ pad := fun h =>
    absurd (hpad '=' h) (by decide)
  by_cases hmem : '=' ∈ core
  · obtain ⟨left, right, rfl, hleft⟩ := List.eq_append_cons_of_mem hmem
    have hsplit : splitOnce '=' (front ++ (left ++ '=' :: right) ++ back) =
        some (front ++ left, right ++ back) := by
      refine splitOnce_eq_some_iff.mpr ⟨?_, by simp⟩
      exact List.not_mem_append (hnot hfront) hleft
    have hnil : Blank [] := List.forall_mem_nil _
    have htrimLeft : trim (front ++ left ++ []) = trim left := trim_append_append hfront hnil
    rw [List.append_nil] at htrimLeft
    have htrimRight : trim (right ++ back) = trim right := trim_append_append hnil hback
    simp only [parseResource, splitOnce_append hleft, hsplit, htrimLeft, htrimRight]
  · have hall : '=' ∉ front ++ core ++ back :=
      List.not_mem_append (List.not_mem_append (hnot hfront) hmem) (hnot hback)
    rw [parseResource, parseResource, splitOnce_eq_none hmem, splitOnce_eq_none hall]

/-- What the settings have about resources: the entries of the command line, then those of the
variable, which commas separate. -/
def resourceEntries (env : Env) (cli : List String) : List (List Char) :=
  cli.map String.toList ++
    ((env "ACCELRD_PROBER_PROBE_RESOURCES").getD "").toList.splitOn ','

lemma filterMap_pieces (pieces : List (List Char)) :
    ((pieces.map fun piece => String.ofList (trim piece)).filter (· ≠ "")).filterMap
        (fun entry => parseResource entry.toList) = pieces.filterMap parseResource := by
  induction pieces with
  | nil => rfl
  | cons piece pieces ih =>
      rw [List.filterMap_cons, ← parseResource_trim piece, ← ih, List.map_cons, List.filter_cons]
      by_cases hnil : trim piece = []
      · rw [hnil, if_neg (by simp)]
        rfl
      · rw [if_pos (by simpa using hnil), List.filterMap_cons, String.toList_ofList]

lemma resolveProbeResources_eq (env : Env) (cli : List String) :
    resolveProbeResources env cli = (resourceEntries env cli).filterMap parseResource := by
  rw [resolveProbeResources, resourceEntries, List.filterMap_append, List.filterMap_append,
    List.filterMap_map]
  congr 1
  rw [envString]
  cases env "ACCELRD_PROBER_PROBE_RESOURCES" with
  | none => rfl
  | some list =>
      by_cases hlist : list = ""
      · subst hlist
        rfl
      · rw [Option.filter_some_pos (by simpa using hlist)]
        exact filterMap_pieces _

/-! ### The lists of a pod -/

/-- `requests` and `limits` of a container. -/
structure ResourceLists where
  requests : StrMap
  limits : StrMap

/-- What a probe requests. -/
def defaultRequests : List (String × String) := [("cpu", "200m"), ("memory", "128Mi")]

/-- What a probe is limited to. -/
def defaultLimits : List (String × String) := [("cpu", "1"), ("memory", "256Mi")]

/-- `resources` of `pods.rs`. -/
def resources (args : Resolved) : ResourceLists where
  requests := (ExtTreeMap.ofList defaultRequests).insertMany args.probeResources
  limits := (ExtTreeMap.ofList defaultLimits).insertMany args.probeResources

/-- Nothing is said about a resource. -/
def Unmentioned (entries : List (List Char)) (k : String) : Prop :=
  ∀ entry ∈ entries, ∀ v, ¬ Asks entry k v

/-- What the last entry about a resource says. -/
def LastAsked (entries : List (List Char)) (k v : String) : Prop :=
  ∃ front entry back, entries = front ++ entry :: back ∧ Asks entry k v ∧ Unmentioned back k

lemma fst_ne_iff_unmentioned {entries : List (List Char)} {k : String} :
    (∀ e ∈ entries.filterMap parseResource, e.1 ≠ k) ↔ Unmentioned entries k := by
  constructor
  · intro h entry hentry v hasks
    exact h (k, v) (List.mem_filterMap.mpr ⟨entry, hentry, parseResource_eq_some_iff.mpr hasks⟩) rfl
  · rintro h ⟨k', v⟩ he rfl
    obtain ⟨entry, hentry, hparse⟩ := List.mem_filterMap.mp he
    exact h entry hentry v (parseResource_eq_some_iff.mp hparse)

lemma getElem?_ofList_filterMap {entries : List (List Char)} {k v : String} :
    (ExtTreeMap.ofList (entries.filterMap parseResource))[k]? = some v ↔
      LastAsked entries k v := by
  rw [Insertions.getElem?_ofList_eq_some_iff]
  constructor
  · rintro ⟨l, l', heq, hl'⟩
    obtain ⟨front, rest, rfl, -, hrest⟩ := List.filterMap_eq_append_iff.mp heq
    obtain ⟨skipped, entry, back, rfl, -, hparse, rfl⟩ := List.filterMap_eq_cons_iff.mp hrest
    exact ⟨front ++ skipped, entry, back, (List.append_assoc _ _ _).symm,
      parseResource_eq_some_iff.mp hparse, fst_ne_iff_unmentioned.mp hl'⟩
  · rintro ⟨front, entry, back, rfl, hasks, hback⟩
    refine ⟨front.filterMap parseResource, back.filterMap parseResource, ?_,
      fst_ne_iff_unmentioned.mpr hback⟩
    rw [List.filterMap_append,
      List.filterMap_cons_some (parseResource_eq_some_iff.mpr hasks)]

/-- The list `m`, which began as `defaults`, has what the entries say. -/
def Allots (entries : List (List Char)) (defaults : List (String × String)) (m : StrMap) : Prop :=
  ∀ k v, m[k]? = some v ↔ LastAsked entries k v ∨ Unmentioned entries k ∧ (k, v) ∈ defaults

lemma allots_insertMany {defaults : List (String × String)}
    (hdistinct : defaults.Pairwise fun a b => a.1 ≠ b.1) (entries : List (List Char)) :
    Allots entries defaults
      ((ExtTreeMap.ofList defaults).insertMany (entries.filterMap parseResource)) := by
  intro k v
  have hdefaults : (ExtTreeMap.ofList defaults)[k]? = some v ↔ (k, v) ∈ defaults := by
    refine ⟨Insertions.mem_of_getElem?_ofList, fun h => ?_⟩
    refine ExtTreeMap.getElem?_ofList_of_mem compare_self (hdistinct.imp fun hne heq => hne ?_) h
    exact Std.compare_eq_iff_eq.mp heq
  rw [Insertions.getElem?_insertMany, Option.or_eq_some_iff, getElem?_ofList_filterMap,
    Insertions.getElem?_ofList_eq_none_iff, fst_ne_iff_unmentioned, hdefaults]

/-- The lists have what the entries say, and the same of everything that the probe does not
have by default. -/
structure Allotted (entries : List (List Char)) (lists : ResourceLists) : Prop where
  requests : Allots entries defaultRequests lists.requests
  limits : Allots entries defaultLimits lists.limits
  extended : ∀ k, k ≠ "cpu" → k ≠ "memory" → lists.requests[k]? = lists.limits[k]?

/-- **The resources of a probe** are those that the settings ask for. Of two entries about one
resource the later counts, and the variable comes after the command line. -/
theorem allotted_resources (env : Env) (args : ProberArgs) :
    Allotted (resourceEntries env args.probeResource) (resources (args.resolve env)) := by
  have hentries : (args.resolve env).probeResources =
      (resourceEntries env args.probeResource).filterMap parseResource :=
    resolveProbeResources_eq env args.probeResource
  rw [resources, hentries]
  refine ⟨allots_insertMany (by decide) _, allots_insertMany (by decide) _, fun k hcpu hmem => ?_⟩
  rw [Insertions.getElem?_insertMany, Insertions.getElem?_insertMany,
    Insertions.getElem?_ofList_eq_none (l := defaultRequests) (by simp [defaultRequests]; grind),
    Insertions.getElem?_ofList_eq_none (l := defaultLimits) (by simp [defaultLimits]; grind)]

end Accelrd.Prober
