import Mathlib.Tactic
import Accelrd.Sensors

/-!
`mark_partitions` of `src/sensors/common.rs`: which accelerators of a node count as parts of
a card.

* `markPartitions`: the code.
* `getElem?_parentCounts`: the map that it counts the parent directories in.
* `not_partitioned_markPartitions_iff`: no accelerator is flagged if none shares its parent
  directory or has functions configured, and only then.
-/

namespace Accelrd.Sensors

open Std

/-! ### The code -/

/-- The number of accelerators in each parent directory. -/
def parentCounts (accels : List Accelerator) : ExtTreeMap Path ℕ :=
  accels.foldl (fun counts a => match a.deviceDir.parent with
    | none => counts
    | some parent => counts.insert parent (counts.getD parent 0 + 1)) ∅

/-- `shared_parent`. -/
def sharedParent (counts : ExtTreeMap Path ℕ) (a : Accelerator) : Bool :=
  (a.deviceDir.parent.bind (counts[·]?)).any fun c => decide (1 < c)

/-- `sriov_active`. -/
def sriovActive (sysfs : Sysfs) (a : Accelerator) : Bool :=
  decide (0 < (readU64 sysfs (a.deviceDir.join "sriov_numvfs")).getD 0)

/-- `mark_partitions`. -/
def markPartitions (sysfs : Sysfs) (accels : List Accelerator) : List Accelerator :=
  let counts := parentCounts accels
  accels.map fun a =>
    { a with partitioned := a.partitioned || (sharedParent counts a || sriovActive sysfs a) }

/-- The slot of a device: its PCI address without the function. -/
def pciSlot (a : Accelerator) : List Char :=
  (a.deviceDir.getLastD "").toList.takeWhile (· ≠ '.')

/-! ### The parent directories -/

/-- The parent directories of the devices, one for each device that has one. -/
def parents (accels : List Accelerator) : List Path :=
  accels.filterMap fun a => a.deviceDir.parent

lemma Path.parent_eq_none_iff {p : Path} : p.parent = none ↔ p = [] := by
  cases p <;> simp [Path.parent]

lemma parents_append (accels : List Accelerator) (a : Accelerator) :
    parents (accels ++ [a]) = parents accels ++ a.deviceDir.parent.toList := by
  rw [parents, List.filterMap_append]
  cases hparent : a.deviceDir.parent with
  | none => simp [parents, hparent]
  | some parent => simp [parents, hparent]

lemma parentCounts_append (accels : List Accelerator) (a : Accelerator) :
    parentCounts (accels ++ [a]) =
      a.deviceDir.parent.elim (parentCounts accels) fun parent =>
        (parentCounts accels).insert parent ((parentCounts accels).getD parent 0 + 1) := by
  simp only [parentCounts, List.foldl_append, List.foldl_cons, List.foldl_nil]
  cases a.deviceDir.parent with
  | none => rfl
  | some parent => rfl

lemma getElem?_parentCounts (accels : List Accelerator) (dir : Path) :
    (parentCounts accels)[dir]? =
      if (parents accels).count dir = 0 then none else some ((parents accels).count dir) := by
  induction accels using List.reverseRecOn with
  | nil => simp [parentCounts, parents]
  | append_singleton accels a ih =>
      rw [parentCounts_append, parents_append, List.count_append]
      cases a.deviceDir.parent with
      | none => simpa using ih
      | some parent =>
          rw [Option.elim_some, Option.toList_some, List.count_singleton,
            ExtTreeMap.getElem?_insert, ExtTreeMap.getD_eq_getD_getElem?]
          by_cases hdir : parent = dir
          · subst hdir
            rw [ih]
            by_cases hzero : (parents accels).count parent = 0 <;> simp [hzero]
          · simp [hdir, ih]

/-- An accelerator whose parent directory is the parent directory of another one. -/
lemma sharedParent_iff {accels : List Accelerator} {a : Accelerator} :
    sharedParent (parentCounts accels) a ↔
      ∃ dir, a.deviceDir.parent = some dir ∧ 1 < (parents accels).count dir := by
  rw [sharedParent]
  cases hparent : a.deviceDir.parent with
  | none => simp
  | some parent =>
      rw [Option.bind_some, getElem?_parentCounts]
      split_ifs with hzero <;> simp [hzero]

/-! ### What it marks -/

/-- Only the flags are written. -/
lemma map_markPartitions {β : Type} (f : Accelerator → β)
    (hf : ∀ a flag, f { a with partitioned := flag } = f a) (sysfs : Sysfs)
    (accels : List Accelerator) : (markPartitions sysfs accels).map f = accels.map f := by
  rw [markPartitions, List.map_map]
  exact List.map_congr_left fun a _ => hf a _

lemma parents_markPartitions (sysfs : Sysfs) (accels : List Accelerator) :
    parents (markPartitions sysfs accels) = parents accels := by
  have hmap := map_markPartitions Accelerator.deviceDir (fun _ _ => rfl) sysfs accels
  have hdirs (l : List Accelerator) : parents l = (l.map Accelerator.deviceDir).filterMap
      Path.parent := by
    rw [parents, List.filterMap_map]
    rfl
  rw [hdirs, hdirs, hmap]

/-- **Which accelerators are flagged**, of those that were not before. -/
lemma not_partitioned_markPartitions_iff {sysfs : Sysfs} {accels : List Accelerator}
    (hclear : ∀ a ∈ accels, a.partitioned = false) :
    (∀ a ∈ markPartitions sysfs accels, a.partitioned = false) ↔
      (parents accels).Nodup ∧ ∀ a ∈ accels, sriovActive sysfs a = false := by
  have hflags : (∀ a ∈ markPartitions sysfs accels, a.partitioned = false) ↔
      ∀ a ∈ accels, sharedParent (parentCounts accels) a = false ∧ sriovActive sysfs a = false := by
    rw [markPartitions, List.forall_mem_map]
    refine forall₂_congr fun a ha => ?_
    rw [hclear a ha, Bool.false_or, Bool.or_eq_false_iff]
  have hshared : (∀ a ∈ accels, sharedParent (parentCounts accels) a = false) ↔
      (parents accels).Nodup := by
    simp only [← Bool.not_eq_true, sharedParent_iff, not_exists, not_and, Nat.not_lt]
    rw [List.nodup_iff_count_le_one]
    constructor
    · intro h dir
      by_cases hmem : dir ∈ parents accels
      · obtain ⟨a, ha, hdir⟩ := List.mem_filterMap.mp hmem
        exact h a ha dir hdir
      · rw [List.count_eq_zero_of_not_mem hmem]
        exact Nat.zero_le 1
    · intro h a _ dir _
      exact h dir
  rw [hflags, ← hshared]
  exact ⟨fun h => ⟨fun a ha => (h a ha).1, fun a ha => (h a ha).2⟩,
    fun h a ha => ⟨h.1 a ha, h.2 a ha⟩⟩

end Accelrd.Sensors
