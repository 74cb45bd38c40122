import Mathlib.Tactic
import Accelrd.Library.Rollup
import Accelrd.Sensors.Partitions
import Accelrd.Topology.LabelForm

/-!
The labels of `src/topology/labels.rs` that speak of cards: how many of them a vendor has,
and how many functions they are split into.

* `sriov_eq`: the capacity is read in the parent directories of the devices, the total as a
  maximum over them, the configured functions as a sum over the accelerators.
* `readersAgree_of_filesFound`: when the labels know of the functions that `mark_partitions`
  has seen.
* `consistentCapacity_iff`: when the configured functions of each card are counted once, and
  fit the total.
* `onlyPartitions_iff`: when accelerators without functions pass for whole cards.
-/

namespace Accelrd.Topology

open Std Sensors Insertions

/-! ### The capacity -/

/-- `sriov_totalvfs` of a directory, as far as the capacity counts it. -/
def totalVfs (sysfs : Sysfs) (dir : Path) : ℕ := ((sriovCapacity sysfs dir).map Prod.fst).getD 0

/-- `sriov_numvfs` of a directory, as far as the capacity counts it. -/
def configuredVfs (sysfs : Sysfs) (dir : Path) : ℕ :=
  ((sriovCapacity sysfs dir).map Prod.snd).getD 0

/-- Some device has its capacity in its parent directory. -/
def HasCapacity (sysfs : Sysfs) (accels : List Accelerator) : Prop :=
  ∃ dir ∈ parents accels, (sriovCapacity sysfs dir).isSome

lemma sriov_append (sysfs : Sysfs) (accels : List Accelerator) (a : Accelerator) :
    sriov sysfs (accels ++ [a]) =
      (a.deviceDir.parent.bind (sriovCapacity sysfs)).elim (sriov sysfs accels) fun c =>
        some (max ((sriov sysfs accels).getD (0, 0)).1 c.1,
          (((sriov sysfs accels).getD (0, 0)).2 + c.2) % 2 ^ 64) := by
  simp only [sriov, List.foldl_append, List.foldl_cons, List.foldl_nil]
  cases a.deviceDir.parent.bind (sriovCapacity sysfs) with
  | none => rfl
  | some c => rfl

lemma sriov_isSome_iff {sysfs : Sysfs} {accels : List Accelerator} :
    (sriov sysfs accels).isSome ↔ HasCapacity sysfs accels := by
  induction accels using List.reverseRecOn with
  | nil => simp [sriov, HasCapacity, parents]
  | append_singleton accels a ih =>
      rw [HasCapacity] at ih ⊢
      rw [sriov_append, parents_append]
      cases a.deviceDir.parent with
      | none => simpa using ih
      | some dir =>
          rw [Option.bind_some]
          cases hcapacity : sriovCapacity sysfs dir with
          | none => simpa [hcapacity] using ih
          | some c => simpa using Or.inr (Option.isSome_of_eq_some hcapacity)

/-- **The two figures.** -/
lemma sriov_getD (sysfs : Sysfs) (accels : List Accelerator) :
    (sriov sysfs accels).getD (0, 0) =
      ((parents accels).toFinset.sup (totalVfs sysfs),
        ((parents accels).map (configuredVfs sysfs)).sum % 2 ^ 64) := by
  induction accels using List.reverseRecOn with
  | nil => rfl
  | append_singleton accels a ih =>
      rw [sriov_append, parents_append]
      cases a.deviceDir.parent with
      | none => simpa using ih
      | some dir =>
          rw [Option.bind_some, Option.toList_some, List.toFinset_append, Finset.sup_union,
            List.map_append, List.sum_append]
          cases hcapacity : sriovCapacity sysfs dir with
          | none => simpa [totalVfs, configuredVfs, hcapacity] using ih
          | some c => simp [totalVfs, configuredVfs, hcapacity, ih]

/-- No figure of a directory that has none. -/
lemma configuredVfs_eq_zero {sysfs : Sysfs} {accels : List Accelerator}
    (h : ¬HasCapacity sysfs accels) : ∀ dir ∈ parents accels, configuredVfs sysfs dir = 0 := by
  intro dir hdir
  have hnone : sriovCapacity sysfs dir = none :=
    Option.not_isSome_iff_eq_none.mp fun hsome => h ⟨dir, hdir, hsome⟩
  rw [configuredVfs, hnone]
  rfl

lemma totalVfs_lt (sysfs : Sysfs) (dir : Path) : totalVfs sysfs dir < 2 ^ 64 := by
  rw [totalVfs, sriovCapacity, Option.map_map]
  cases htotal : readU64 sysfs (dir.join "sriov_totalvfs") with
  | none => exact Nat.two_pow_pos 64
  | some total => exact readU64_lt htotal

/-! ### The labels -/

section Labels

variable (sysfs : Sysfs) (topology : NodeTopology) (accels : List Accelerator)

/-- A label of the capacity. -/
lemma getElem?_labels_sriov {k : String} (hk : Text.startsWith k "accel.lunnova.dev/sriov.") :
    (build sysfs topology accels).labels[k]? =
      (ExtTreeMap.ofList (match sriov sysfs accels with
        | none => []
        | some (total, used) => [("accel.lunnova.dev/sriov.total", toString total),
            ("accel.lunnova.dev/sriov.configured", toString used)]) : StrMap)[k]? := by
  have hnear : groupsNear "accel.lunnova.dev/sriov." = [9] := by decide +kernel
  rw [getElem?_labels_at sysfs topology accels 9 hk hnear]
  rfl

lemma getElem?_labels_sriovTotal :
    (build sysfs topology accels).labels["accel.lunnova.dev/sriov.total"]? =
      (sriov sysfs accels).map fun c => toString c.1 := by
  rw [getElem?_labels_sriov sysfs topology accels (by decide)]
  cases sriov sysfs accels with
  | none => rfl
  | some c =>
      have hne : "accel.lunnova.dev/sriov.configured" ≠ "accel.lunnova.dev/sriov.total" := by decide
      simp [ExtTreeMap.ofList_cons, ExtTreeMap.getElem_insert, hne]

lemma getElem?_labels_sriovConfigured :
    (build sysfs topology accels).labels["accel.lunnova.dev/sriov.configured"]? =
      (sriov sysfs accels).map fun c => toString c.2 := by
  rw [getElem?_labels_sriov sysfs topology accels (by decide)]
  cases sriov sysfs accels with
  | none => rfl
  | some c => simp [ExtTreeMap.ofList_cons]

variable {accels}

lemma sriovLabels_of_hasCapacity (h : HasCapacity sysfs accels) :
    (build sysfs topology accels).labels["accel.lunnova.dev/sriov.total"]? =
        some (toString ((parents accels).toFinset.sup (totalVfs sysfs))) ∧
      (build sysfs topology accels).labels["accel.lunnova.dev/sriov.configured"]? =
        some (toString (((parents accels).map (configuredVfs sysfs)).sum % 2 ^ 64)) := by
  obtain ⟨c, hc⟩ := Option.isSome_iff_exists.mp (sriov_isSome_iff.mpr h)
  have hfigures := sriov_getD sysfs accels
  rw [hc, Option.getD_some] at hfigures
  rw [getElem?_labels_sriovTotal, getElem?_labels_sriovConfigured, hc, hfigures]
  exact ⟨rfl, rfl⟩

lemma sriovLabels_of_not_hasCapacity (h : ¬HasCapacity sysfs accels) :
    (build sysfs topology accels).labels["accel.lunnova.dev/sriov.total"]? = none ∧
      (build sysfs topology accels).labels["accel.lunnova.dev/sriov.configured"]? = none := by
  have hnone : sriov sysfs accels = none :=
    Option.not_isSome_iff_eq_none.mp fun hsome => h (sriov_isSome_iff.mp hsome)
  rw [getElem?_labels_sriovTotal, getElem?_labels_sriovConfigured, hnone]
  exact ⟨rfl, rfl⟩

end Labels

/-! ### The readers -/

/-- **The readers agree**: the functions that are configured in the directory of a device,
where the total can be read as well, are among those of the labels. -/
def ReadersAgree (sysfs : Sysfs) (topology : NodeTopology) (accels : List Accelerator) : Prop :=
  ∀ a ∈ accels, ∀ n, readU64 sysfs (a.deviceDir.join "sriov_numvfs") = some n → 0 < n →
    (readU64 sysfs (a.deviceDir.join "sriov_totalvfs")).isSome →
    ∃ total configured : ℕ,
      (build sysfs topology (markPartitions sysfs accels)).labels[
        "accel.lunnova.dev/sriov.total"]? = some (toString total) ∧
      (build sysfs topology (markPartitions sysfs accels)).labels[
        "accel.lunnova.dev/sriov.configured"]? = some (toString configured) ∧
      n ≤ configured

/-- What the labels have, compared with the directory of each device. -/
lemma readersAgree_iff (sysfs : Sysfs) (topology : NodeTopology) (accels : List Accelerator) :
    ReadersAgree sysfs topology accels ↔
      ∀ a ∈ accels, ∀ n, readU64 sysfs (a.deviceDir.join "sriov_numvfs") = some n → 0 < n →
        (readU64 sysfs (a.deviceDir.join "sriov_totalvfs")).isSome →
        n ≤ ((parents accels).map (configuredVfs sysfs)).sum % 2 ^ 64 := by
  refine forall₅_congr fun a _ n _ hpos => imp_congr_right fun _ => ?_
  rw [← parents_markPartitions sysfs accels]
  by_cases hcapacity : HasCapacity sysfs (markPartitions sysfs accels)
  · obtain ⟨htotal, hconfigured⟩ := sriovLabels_of_hasCapacity sysfs topology hcapacity
    rw [htotal, hconfigured]
    constructor
    · rintro ⟨total, configured, -, heq, hle⟩
      rwa [Text.toString_injective (Option.some.inj heq)]
    · intro hle
      exact ⟨_, _, rfl, rfl, hle⟩
  · rw [(sriovLabels_of_not_hasCapacity sysfs topology hcapacity).1,
      List.map_congr_left (configuredVfs_eq_zero hcapacity)]
    constructor
    · rintro ⟨total, configured, h, -⟩
      exact absurd h (by simp)
    · intro hle
      simp at hle
      omega

/-- The functions that a directory has configured, none if that cannot be read. -/
def numVfs (sysfs : Sysfs) (dir : Path) : ℕ := (readU64 sysfs (dir.join "sriov_numvfs")).getD 0

lemma configuredVfs_of_isSome {sysfs : Sysfs} {dir : Path}
    (h : (readU64 sysfs (dir.join "sriov_totalvfs")).isSome) :
    configuredVfs sysfs dir = numVfs sysfs dir := by
  obtain ⟨total, htotal⟩ := Option.isSome_iff_exists.mp h
  rw [configuredVfs, sriovCapacity, htotal]
  rfl

lemma configuredVfs_le (sysfs : Sysfs) (dir : Path) :
    configuredVfs sysfs dir ≤ numVfs sysfs dir := by
  by_cases h : (readU64 sysfs (dir.join "sriov_totalvfs")).isSome
  · exact (configuredVfs_of_isSome h).le
  · rw [configuredVfs, sriovCapacity, Option.not_isSome_iff_eq_none.mp h]
    exact Nat.zero_le _

lemma isSome_of_configuredVfs_pos {sysfs : Sysfs} {dir : Path} (h : 0 < configuredVfs sysfs dir) :
    (readU64 sysfs (dir.join "sriov_totalvfs")).isSome := by
  by_contra hnone
  rw [configuredVfs, sriovCapacity, Option.not_isSome_iff_eq_none.mp hnone] at h
  exact absurd h (Nat.lt_irrefl 0)

/-- **The files are found**: where a device has functions configured, and its total can be
read, one of the directories above the devices has a total that can be read, and as many
functions. -/
def FilesFound (sysfs : Sysfs) (accels : List Accelerator) : Prop :=
  ∀ a ∈ accels, ∀ n, readU64 sysfs (a.deviceDir.join "sriov_numvfs") = some n → 0 < n →
    (readU64 sysfs (a.deviceDir.join "sriov_totalvfs")).isSome →
    ∃ dir ∈ parents accels, (readU64 sysfs (dir.join "sriov_totalvfs")).isSome ∧
      n ≤ numVfs sysfs dir

/-- The functions that are added up fit into the type of the sum. -/
def Fits (sysfs : Sysfs) (accels : List Accelerator) : Prop :=
  ((parents accels).map (numVfs sysfs)).sum < 2 ^ 64

/-- No two devices have functions configured in the directories above them. -/
def OneSource (sysfs : Sysfs) (accels : List Accelerator) : Prop :=
  ((parents accels).filter fun dir => 0 < numVfs sysfs dir).length ≤ 1

/-- A sum with one summand, beside zeros. -/
lemma exists_sum_eq {α : Type} {f : α → ℕ} {l : List α}
    (h : (l.filter fun x => 0 < f x).length ≤ 1) (hpos : 0 < (l.map f).sum) :
    ∃ x ∈ l, (l.map f).sum = f x := by
  induction l with
  | nil => exact absurd hpos (Nat.lt_irrefl 0)
  | cons x l ih =>
      rw [List.map_cons, List.sum_cons] at hpos ⊢
      by_cases hx : 0 < f x
      · -- the others are zero
        rw [List.filter_cons_of_pos (by simpa using hx), List.length_cons] at h
        have hnil : l.filter (fun x => 0 < f x) = [] := List.length_eq_zero_iff.mp (by omega)
        have hzero : (l.map f).sum = 0 := by
          rw [List.sum_eq_zero_iff, List.forall_mem_map]
          intro y hy
          simpa using List.filter_eq_nil_iff.mp hnil y hy
        exact ⟨x, List.mem_cons_self, by rw [hzero, add_zero]⟩
      · rw [List.filter_cons_of_neg (by simpa using hx)] at h
        obtain ⟨y, hy, hsum⟩ := ih h (by omega)
        exact ⟨y, List.mem_cons_of_mem x hy, by rw [hsum]; omega⟩

lemma numVfs_lt (sysfs : Sysfs) (dir : Path) : numVfs sysfs dir < 2 ^ 64 := by
  rw [numVfs]
  cases hread : readU64 sysfs (dir.join "sriov_numvfs") with
  | none => exact Nat.two_pow_pos 64
  | some n => exact readU64_lt hread

/-- One source of functions does not overflow. -/
lemma OneSource.fits {sysfs : Sysfs} {accels : List Accelerator} (h : OneSource sysfs accels) :
    Fits sysfs accels := by
  rw [Fits]
  rcases Nat.eq_zero_or_pos ((parents accels).map (numVfs sysfs)).sum with hzero | hpos
  · rw [hzero]
    exact Nat.two_pow_pos 64
  · obtain ⟨dir, -, hsum⟩ := exists_sum_eq h hpos
    rw [hsum]
    exact numVfs_lt sysfs dir

lemma sum_configuredVfs_le (sysfs : Sysfs) (dirs : List Path) :
    (dirs.map (configuredVfs sysfs)).sum ≤ (dirs.map (numVfs sysfs)).sum :=
  List.sum_le_sum fun dir _ => configuredVfs_le sysfs dir

lemma FilesFound.readersAgree {sysfs : Sysfs} {accels : List Accelerator}
    (h : FilesFound sysfs accels) (hfits : Fits sysfs accels) (topology : NodeTopology) :
    ReadersAgree sysfs topology accels := by
  rw [readersAgree_iff]
  intro a ha n hn hpos htotal
  obtain ⟨dir, hdir, hsome, hle⟩ := h a ha n hn hpos htotal
  have hterm : configuredVfs sysfs dir ≤ ((parents accels).map (configuredVfs sysfs)).sum :=
    List.single_le_sum (by simp) _ (List.mem_map_of_mem hdir)
  rw [Nat.mod_eq_of_lt ((sum_configuredVfs_le sysfs _).trans_lt hfits)]
  rw [configuredVfs_of_isSome hsome] at hterm
  exact hle.trans hterm

/-- Where one directory has functions, it must have those of every device. -/
lemma filesFound_of_readersAgree {sysfs : Sysfs} {accels : List Accelerator}
    (hone : OneSource sysfs accels) {topology : NodeTopology}
    (h : ReadersAgree sysfs topology accels) : FilesFound sysfs accels := by
  rw [readersAgree_iff] at h
  intro a ha n hn hpos htotal
  have hle := (h a ha n hn hpos htotal).trans (Nat.mod_le _ _)
  have hsource : ((parents accels).filter fun dir => 0 < configuredVfs sysfs dir).length ≤ 1 := by
    refine (List.Sublist.length_le ?_).trans hone
    refine List.monotone_filter_right _ fun dir hdir => ?_
    rw [decide_eq_true_eq] at hdir ⊢
    exact hdir.trans_le (configuredVfs_le sysfs dir)
  obtain ⟨dir, hdir, hsum⟩ := exists_sum_eq hsource (hpos.trans_le hle)
  rw [hsum] at hle
  have hsome := isSome_of_configuredVfs_pos (hpos.trans_le hle)
  rw [configuredVfs_of_isSome hsome] at hle
  exact ⟨dir, hdir, hsome, hle⟩

/-- Of the files for functions, one directory has some, and says that there is one. -/
def ownFiles (dir : Path) : Sysfs := fun path =>
  if path = dir.join "sriov_totalvfs" ∨ path = dir.join "sriov_numvfs" then some "1" else none

lemma numVfs_ownFiles {dir dir' : Path} (h : dir' ≠ dir) : numVfs (ownFiles dir) dir' = 0 := by
  have hne (name name' : String) : dir'.join name ≠ dir.join name' := fun heq =>
    h (List.append_inj_left' heq rfl)
  rw [numVfs, readU64, ownFiles, if_neg (by simp [hne])]
  rfl

/-- **When the readers agree**, for a host, and for all hosts with these devices. It is enough
that the files are found, if the sum fits; where no two directories have functions this is
exact. Whatever the files say, the readers agree just if the directory of every device is
itself a directory above one. -/
theorem readersAgree_of_filesFound (sysfs : Sysfs) (accels : List Accelerator) :
    (FilesFound sysfs accels → Fits sysfs accels →
      ∀ topology, ReadersAgree sysfs topology accels) ∧
    (OneSource sysfs accels →
      ∀ topology, ReadersAgree sysfs topology accels ↔ FilesFound sysfs accels) ∧
    ((∀ sysfs', Fits sysfs' accels → ∀ topology, ReadersAgree sysfs' topology accels) ↔
      ∀ a ∈ accels, a.deviceDir ∈ parents accels) := by
  refine ⟨fun h hfits topology => h.readersAgree hfits topology, fun hone topology =>
    ⟨filesFound_of_readersAgree hone, fun h => h.readersAgree hone.fits topology⟩, ?_, ?_⟩
  · intro h a ha
    by_contra hnot
    have hzero : ((parents accels).map (numVfs (ownFiles a.deviceDir))).sum = 0 := by
      rw [List.sum_eq_zero_iff, List.forall_mem_map]
      exact fun dir hdir => numVfs_ownFiles fun heq => hnot (heq ▸ hdir)
    have hagree := h (ownFiles a.deviceDir) (by rw [Fits, hzero]; exact Nat.two_pow_pos 64)
      ⟨none, none, [], [], ⟨[]⟩⟩
    have hone (name : String) (hname : name = "sriov_totalvfs" ∨ name = "sriov_numvfs") :
        readU64 (ownFiles a.deviceDir) (a.deviceDir.join name) = some 1 := by
      rw [readU64, ownFiles, if_pos (hname.imp (congrArg _) (congrArg _))]
      decide
    have hle := (readersAgree_iff _ _ _).mp hagree a ha 1 (hone _ (Or.inr rfl)) Nat.one_pos
      (Option.isSome_of_eq_some (hone _ (Or.inl rfl)))
    have hsum := sum_configuredVfs_le (ownFiles a.deviceDir) (parents accels)
    rw [hzero] at hsum
    rw [Nat.le_zero.mp hsum] at hle
    exact absurd hle (by decide)
  · intro h sysfs' hfits topology
    have hfound : FilesFound sysfs' accels := fun a ha n hn _ htotal =>
      ⟨a.deviceDir, h a ha, htotal, by rw [numVfs, hn, Option.getD_some]⟩
    exact hfound.readersAgree hfits topology

/-- A card below a bridge, that has no functions of its own. -/
def hostModeCard : Accelerator where
  id := ⟨.amd, 0, "0000:03:00.0"⟩
  model := "AMD Instinct MI300X"
  memoryKind := .dedicated
  memoryTotalBytes := some 206141652992
  numaNode := some 0
  coverage := .full
  fabricDomain := none
  partitioned := false
  deviceDir := ["sys", "devices", "pci0000:00", "0000:00:01.1", "0000:03:00.0"]

/-- Two of the eight functions of the card are configured. -/
def hostModeSysfs : Sysfs := fun path =>
  if path = hostModeCard.deviceDir.join "sriov_totalvfs" then some "8\n"
  else if path = hostModeCard.deviceDir.join "sriov_numvfs" then some "2\n"
  else none

/-- The card is flagged for its functions, and the labels do not have them. -/
theorem hostModeCard_without_labels :
    (markPartitions hostModeSysfs [hostModeCard]).map Accelerator.partitioned = [true] ∧
    ∀ topology, ¬ReadersAgree hostModeSysfs topology [hostModeCard] := by
  refine ⟨by decide +kernel, fun topology hagree => ?_⟩
  have hcapacity : ¬HasCapacity hostModeSysfs (markPartitions hostModeSysfs [hostModeCard]) := by
    rw [HasCapacity, parents_markPartitions]
    decide +kernel
  obtain ⟨total, configured, htotal, -⟩ := hagree hostModeCard (List.mem_singleton_self _) 2
    (by decide +kernel) (by decide) (by decide +kernel)
  rw [(sriovLabels_of_not_hasCapacity hostModeSysfs topology hcapacity).1] at htotal
  exact absurd htotal (by simp)

/-- A partition below the directory of the card. -/
def cardPartition : Accelerator :=
  { hostModeCard with deviceDir := hostModeCard.deviceDir.join "xcp0" }

/-- Next to its partition, the functions of the card are found, and the labels have them. -/
theorem hostModeCard_with_partition :
    ∀ topology, ReadersAgree hostModeSysfs topology [hostModeCard, cardPartition] := by
  have hpartition : readU64 hostModeSysfs (cardPartition.deviceDir.join "sriov_numvfs") = none := by
    decide +kernel
  refine (readersAgree_of_filesFound hostModeSysfs [hostModeCard, cardPartition]).1 ?_
    (by rw [Fits]; decide +kernel)
  intro a ha n hn _ htotal
  rcases List.mem_pair.mp ha with rfl | rfl
  · refine ⟨hostModeCard.deviceDir, by decide +kernel, htotal, ?_⟩
    rw [numVfs, hn, Option.getD_some]
  · rw [hpartition] at hn
    exact absurd hn (by simp)

/-! ### The figures -/

/-- **The capacity is consistent**: the functions of each parent directory are counted once,
and they are no more than the total. -/
def ConsistentCapacity (sysfs : Sysfs) (topology : NodeTopology) (accels : List Accelerator) :
    Prop :=
  ∀ total configured : ℕ,
    (build sysfs topology accels).labels["accel.lunnova.dev/sriov.total"]? =
      some (toString total) →
    (build sysfs topology accels).labels["accel.lunnova.dev/sriov.configured"]? =
      some (toString configured) →
    configured ≤ total ∧ configured = ∑ dir ∈ (parents accels).toFinset, configuredVfs sysfs dir

/-- What is added beyond a residue changes it unless it is a multiple of the modulus. -/
lemma add_mod_eq_left_iff {m d r : ℕ} (h : d < m) : (d + r) % m = d ↔ m ∣ r := by
  have hself : d % m = d := Nat.mod_eq_of_lt h
  calc (d + r) % m = d ↔ d + r ≡ d + 0 [MOD m] := by rw [Nat.ModEq, add_zero, hself]
    _ ↔ r ≡ 0 [MOD m] := ⟨Nat.ModEq.add_left_cancel' d, Nat.ModEq.add_left d⟩
    _ ↔ m ∣ r := Nat.modEq_zero_iff_dvd

/-- **When the capacity is consistent**: if the accelerators beyond the first of each
directory add nothing to the sum, and the sum over the directories is no more than the
largest total. -/
theorem consistentCapacity_iff (sysfs : Sysfs) (topology : NodeTopology)
    (accels : List Accelerator) :
    ConsistentCapacity sysfs topology accels ↔
      2 ^ 64 ∣ ∑ dir ∈ (parents accels).toFinset,
          ((parents accels).count dir - 1) * configuredVfs sysfs dir ∧
        ∑ dir ∈ (parents accels).toFinset, configuredVfs sysfs dir ≤
          (parents accels).toFinset.sup (totalVfs sysfs) := by
  have hsplit := Rollup.sum_map_eq_add_repeats (parents accels) (configuredVfs sysfs)
  have hlt : (parents accels).toFinset.sup (totalVfs sysfs) < 2 ^ 64 :=
    (Finset.sup_lt_iff (Nat.two_pow_pos 64)).mpr fun dir _ => totalVfs_lt sysfs dir
  by_cases hcapacity : HasCapacity sysfs accels
  · obtain ⟨htotal, hconfigured⟩ := sriovLabels_of_hasCapacity sysfs topology hcapacity
    have hlabels : ConsistentCapacity sysfs topology accels ↔
        ((parents accels).map (configuredVfs sysfs)).sum % 2 ^ 64 ≤
            (parents accels).toFinset.sup (totalVfs sysfs) ∧
          ((parents accels).map (configuredVfs sysfs)).sum % 2 ^ 64 =
            ∑ dir ∈ (parents accels).toFinset, configuredVfs sysfs dir := by
      rw [ConsistentCapacity, htotal, hconfigured]
      constructor
      · intro h
        exact h _ _ rfl rfl
      · intro h total configured ht hc
        rw [← Text.toString_injective (Option.some.inj ht),
          ← Text.toString_injective (Option.some.inj hc)]
        exact h
    rw [hlabels, hsplit]
    constructor
    · rintro ⟨hle, hmod⟩
      rw [hmod] at hle
      exact ⟨(add_mod_eq_left_iff (hle.trans_lt hlt)).mp hmod, hle⟩
    · rintro ⟨hdvd, hle⟩
      rw [(add_mod_eq_left_iff (hle.trans_lt hlt)).mpr hdvd]
      exact ⟨hle, rfl⟩
  · have hzero := configuredVfs_eq_zero hcapacity
    rw [Finset.sum_eq_zero fun dir hdir => hzero dir (List.mem_toFinset.mp hdir),
      Finset.sum_eq_zero fun dir hdir => by rw [hzero dir (List.mem_toFinset.mp hdir), mul_zero]]
    refine iff_of_true ?_ ⟨dvd_zero _, Nat.zero_le _⟩
    intro total configured htotal
    rw [(sriovLabels_of_not_hasCapacity sysfs topology hcapacity).1] at htotal
    exact absurd htotal (by simp)

/-- Two accelerators below the directory of the card. -/
def halves : List Accelerator :=
  [{ hostModeCard with deviceDir := hostModeCard.deviceDir.join "xcp0" },
    { hostModeCard with deviceDir := hostModeCard.deviceDir.join "xcp1" }]

/-- All of the eight functions of the card are configured. -/
def fullSysfs : Sysfs := fun path =>
  if path = hostModeCard.deviceDir.join "sriov_totalvfs" then some "8\n"
  else if path = hostModeCard.deviceDir.join "sriov_numvfs" then some "8\n"
  else none

/-- The labels have sixteen functions configured out of eight. -/
theorem halves_over_capacity :
    (∀ dir ∈ parents halves, configuredVfs fullSysfs dir ≤ totalVfs fullSysfs dir) ∧
    ∀ topology,
      (build fullSysfs topology halves).labels["accel.lunnova.dev/sriov.total"]? = some "8" ∧
      (build fullSysfs topology halves).labels["accel.lunnova.dev/sriov.configured"]? =
        some "16" ∧
      ¬ConsistentCapacity fullSysfs topology halves := by
  have hcapacity : HasCapacity fullSysfs halves := by
    rw [HasCapacity]
    decide +kernel
  have htotal : (parents halves).toFinset.sup (totalVfs fullSysfs) = 8 := by decide +kernel
  have hconfigured : ((parents halves).map (configuredVfs fullSysfs)).sum % 2 ^ 64 = 16 := by
    decide +kernel
  refine ⟨by decide +kernel, fun topology => ?_⟩
  have hlabels := sriovLabels_of_hasCapacity fullSysfs topology hcapacity
  rw [htotal, hconfigured] at hlabels
  refine ⟨hlabels.1, hlabels.2, fun hconsistent => ?_⟩
  have hle := (hconsistent 8 16 hlabels.1 hlabels.2).1
  omega

/-! ### Whole cards -/

/-- The parent directories of the devices of a vendor. -/
def parentsOf (accels : List Accelerator) (slug : String) : List Path :=
  parents (accels.filter (·.id.vendor.slug = slug))

lemma physicalFuncs_append (accels : List Accelerator) (a : Accelerator) (slug : String) :
    (physicalFuncs (accels ++ [a])).getD slug [] =
      if a.id.vendor.slug = slug then
        a.deviceDir.parent.elim ((physicalFuncs accels).getD slug [])
          ((physicalFuncs accels).getD slug []).insert
      else (physicalFuncs accels).getD slug [] := by
  cases hparent : a.deviceDir.parent with
  | none => rw [physicalFuncs_append_of_none hparent, Option.elim_none, ite_self]
  | some parent =>
      rw [physicalFuncs_append_of_some hparent, ExtTreeMap.getD_insert, Option.elim_some]
      simp only [Std.compare_eq_iff_eq]
      split_ifs with hslug
      · rw [hslug]
      · rfl

/-- The directories of a vendor are collected once each. -/
lemma physicalFuncs_getD (accels : List Accelerator) (slug : String) :
    ((physicalFuncs accels).getD slug []).Nodup ∧
      ((physicalFuncs accels).getD slug []).toFinset = (parentsOf accels slug).toFinset := by
  induction accels using List.reverseRecOn with
  | nil => simp [physicalFuncs, parentsOf, parents]
  | append_singleton accels a ih =>
      obtain ⟨hnodup, hfinset⟩ := ih
      rw [physicalFuncs_append, parentsOf, List.filter_append]
      split_ifs with hslug
      · have hkept : [a].filter (·.id.vendor.slug = slug) = [a] :=
          List.filter_cons_of_pos (by simpa using hslug)
        rw [hkept, parents_append, ← parentsOf]
        cases a.deviceDir.parent with
        | none => simpa using ⟨hnodup, hfinset⟩
        | some parent =>
            refine ⟨hnodup.insert, ?_⟩
            ext dir
            have hmem := Finset.ext_iff.mp hfinset dir
            simp only [List.mem_toFinset] at hmem
            simp [hmem]
      · have hdropped : [a].filter (·.id.vendor.slug = slug) = [] :=
          List.filter_cons_of_neg (by simpa using hslug)
        rw [hdropped, List.append_nil, ← parentsOf]
        exact ⟨hnodup, hfinset⟩

/-- The number of cards of a vendor is that of the parent directories. -/
lemma getElem?_labels_physicalCount_eq (sysfs : Sysfs) (topology : NodeTopology)
    (accels : List Accelerator) (slug : String) :
    (build sysfs topology accels).labels[
        "accel.lunnova.dev/vendor." ++ slug ++ ".physical-count"]? =
      if parentsOf accels slug = [] then none
      else some (toString (parentsOf accels slug).toFinset.card) := by
  obtain ⟨hnodup, hfinset⟩ := physicalFuncs_getD accels slug
  rw [getElem?_labels_physicalCount]
  rw [ExtTreeMap.getD_eq_getD_getElem?] at hnodup hfinset
  cases hfuncs : (physicalFuncs accels)[slug]? with
  | none =>
      rw [hfuncs, Option.getD_none] at hfinset
      have hnil : parentsOf accels slug = [] := (List.toFinset_eq_empty_iff _).mp hfinset.symm
      rw [if_pos hnil]
      rfl
  | some funcs =>
      rw [hfuncs, Option.getD_some] at hnodup hfinset
      have hpos := (physicalFuncs_spec hfuncs).2.1
      have hne : parentsOf accels slug ≠ [] := by
        intro hnil
        rw [hnil, List.toFinset_nil, List.toFinset_eq_empty_iff] at hfinset
        rw [hfinset] at hpos
        exact absurd hpos (by simp)
      rw [if_neg hne, ← hfinset, List.toFinset_card_of_nodup hnodup]
      rfl

/-- Whole cards: every device has a parent directory, which it shares with no other one. -/
def Unshared (accels : List Accelerator) : Prop :=
  (∀ a ∈ accels, a.deviceDir ≠ []) ∧ (parents accels).Nodup

lemma Unshared.sublist {accels accels' : List Accelerator} (h : Unshared accels)
    (hsub : accels'.Sublist accels) : Unshared accels' :=
  ⟨fun a ha => h.1 a (hsub.subset ha), h.2.sublist (hsub.filterMap _)⟩

lemma Unshared.markPartitions {accels : List Accelerator} (h : Unshared accels) (sysfs : Sysfs) :
    Unshared (markPartitions sysfs accels) := by
  refine ⟨fun b hb => ?_, by rw [parents_markPartitions]; exact h.2⟩
  obtain ⟨a, ha, rfl⟩ := List.mem_map.mp hb
  exact h.1 a ha

/-- As many parent directories as accelerators. -/
lemma card_parents_eq_iff (accels : List Accelerator) :
    (parents accels).toFinset.card = accels.length ↔ Unshared accels := by
  have hle : (parents accels).toFinset.card ≤ (parents accels).length := List.toFinset_card_le _
  have hle' : (parents accels).length ≤ accels.length := List.length_filterMap_le _ _
  have hall : (parents accels).length = accels.length ↔ ∀ a ∈ accels, a.deviceDir ≠ [] := by
    rw [parents, List.filterMap_length_eq_length]
    refine forall₂_congr fun a _ => ?_
    rw [Option.isSome_iff_ne_none, Ne, Path.parent_eq_none_iff]
  have hnodup : (parents accels).toFinset.card = (parents accels).length ↔
      (parents accels).Nodup := Multiset.toFinset_card_eq_card_iff_nodup
  rw [Unshared, ← hall, ← hnodup]
  omega

/-- A vendor has as many cards as accelerators if these do not share their directories. -/
lemma physicalCount_eq_count_iff (sysfs : Sysfs) (topology : NodeTopology)
    (accels : List Accelerator) (v : Vendor) :
    (build sysfs topology accels).labels[
        "accel.lunnova.dev/vendor." ++ v.slug ++ ".physical-count"]? =
      (build sysfs topology accels).labels[
        "accel.lunnova.dev/vendor" ++ "." ++ v.slug ++ ".count"]? ↔
      Unshared (accels.filter (·.id.vendor.slug = v.slug)) := by
  have hcount : (accels.map fun a => a.id.vendor.slug).count v.slug =
      (accels.filter (·.id.vendor.slug = v.slug)).length := by
    rw [List.count, List.countP_map, List.countP_eq_length_filter]
    rfl
  rw [getElem?_labels_physicalCount_eq, getElem?_labels_vendor, tally, hcount,
    ← card_parents_eq_iff, parentsOf]
  generalize accels.filter (·.id.vendor.slug = v.slug) = own
  have hle : (parents own).length ≤ own.length := List.length_filterMap_le _ _
  by_cases hnone : parents own = []
  · rw [if_pos hnone, hnone, List.toFinset_nil, Finset.card_empty]
    split_ifs with hzero
    · simp [hzero]
    · exact iff_of_false (by simp) (Ne.symm hzero)
  · have hpos := List.length_pos_iff.mpr hnone
    rw [if_neg hnone, if_neg (by omega), Option.map_some, Option.some_inj,
      Text.toString_injective.eq_iff]

/-- **Only partitions are collapsed**: no accelerator is flagged, and each vendor has as many
cards as accelerators. -/
structure OnlyPartitions (sysfs : Sysfs) (topology : NodeTopology) (accels : List Accelerator) :
    Prop where
  clear : ∀ a ∈ markPartitions sysfs accels, a.partitioned = false
  counts : ∀ v : Vendor,
    (build sysfs topology (markPartitions sysfs accels)).labels[
        "accel.lunnova.dev/vendor." ++ v.slug ++ ".physical-count"]? =
      (build sysfs topology (markPartitions sysfs accels)).labels[
        "accel.lunnova.dev/vendor" ++ "." ++ v.slug ++ ".count"]?

/-- **When only partitions are collapsed**: if every device has a parent directory of its
own. -/
theorem onlyPartitions_iff (sysfs : Sysfs) (topology : NodeTopology) (accels : List Accelerator)
    (hclear : ∀ a ∈ accels, a.partitioned = false)
    (hvfs : ∀ a ∈ accels, (readU64 sysfs (a.deviceDir.join "sriov_numvfs")).getD 0 = 0) :
    OnlyPartitions sysfs topology accels ↔ Unshared accels := by
  have hinactive : ∀ a ∈ accels, sriovActive sysfs a = false := by
    intro a ha
    rw [sriovActive, hvfs a ha]
    rfl
  have hflags := @not_partitioned_markPartitions_iff sysfs accels hclear
  have hcounts (v : Vendor) := physicalCount_eq_count_iff sysfs topology
    (markPartitions sysfs accels) v
  constructor
  · rintro ⟨hunflagged, hequal⟩
    refine ⟨fun a ha => ?_, (hflags.mp hunflagged).1⟩
    obtain ⟨flag, hmarked⟩ : ∃ flag, { a with partitioned := flag } ∈ markPartitions sysfs accels :=
      ⟨_, List.mem_map_of_mem ha⟩
    exact ((hcounts a.id.vendor).mp (hequal _)).1 { a with partitioned := flag }
      (List.mem_filter.mpr ⟨hmarked, decide_eq_true rfl⟩)
  · intro hunshared
    refine ⟨hflags.mpr ⟨hunshared.2, hinactive⟩, fun v => (hcounts v).mpr ?_⟩
    exact (hunshared.markPartitions sysfs).sublist List.filter_sublist

/-- A card of a virtual machine, in the given slot of its one bus. -/
def guestCard (slot : ℕ) (name : String) : Accelerator where
  id := ⟨.nvidia, slot, name⟩
  model := "NVIDIA H100"
  memoryKind := .dedicated
  memoryTotalBytes := some 85899345920
  numaNode := none
  coverage := .identificationOnly
  fabricDomain := none
  partitioned := false
  deviceDir := ["sys", "devices", "pci0000:00", name]

/-- Cards below a bridge each. -/
def bridgedCards : List Accelerator :=
  [hostModeCard, { hostModeCard with
    id := ⟨.amd, 1, "0000:43:00.0"⟩
    deviceDir := ["sys", "devices", "pci0000:40", "0000:40:01.1", "0000:43:00.0"] }]

/-- Below bridges they pass for whole cards. -/
theorem onlyPartitions_bridgedCards :
    OnlyPartitions (fun _ => none) ⟨none, none, [], [], ⟨[]⟩⟩ bridgedCards :=
  (onlyPartitions_iff (fun _ => none) ⟨none, none, [], [], ⟨[]⟩⟩ bridgedCards (by decide)
    (by decide)).mpr ⟨by decide, by decide⟩

/-- In two slots of one bus they pass for parts of one card. -/
theorem guestCards_collapsed :
    ([guestCard 4 "0000:00:04.0", guestCard 5 "0000:00:05.0"].map pciSlot).Nodup ∧
    (markPartitions (fun _ => none) [guestCard 4 "0000:00:04.0", guestCard 5 "0000:00:05.0"]).map
      Accelerator.partitioned = [true, true] ∧
    ∀ topology, ¬OnlyPartitions (fun _ => none) topology
      [guestCard 4 "0000:00:04.0", guestCard 5 "0000:00:05.0"] := by
  have hmarked : (markPartitions (fun _ => none)
      [guestCard 4 "0000:00:04.0", guestCard 5 "0000:00:05.0"]).map Accelerator.partitioned =
        [true, true] := by decide +kernel
  refine ⟨by decide +kernel, hmarked, fun topology h => ?_⟩
  have hclear : ∀ flag ∈ [true, true], flag = false := by
    rw [← hmarked]
    exact List.forall_mem_map.mpr h.clear
  exact absurd (hclear true List.mem_cons_self) (by decide)

end Accelrd.Topology
