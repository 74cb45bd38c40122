import Mathlib.Tactic
import Accelrd.Library.Insertions
import Accelrd.Library.Memo
import Accelrd.Library.MergePatch
import Accelrd.Sensors.Enumerate

/-!
`src/telemetry/live.rs`, with the gauges of `src/telemetry/mod.rs`: what the daemon records
of its accelerators and its host, tick after tick. Numbers are exact.

* `run`: the code.
* `samples`: what a run would record if every measurement had a gauge of its own.
* `Recorded`: what is asked of a run.
* `recorded_run`: every run does that.
-/

namespace Accelrd.Telemetry

open Std Sensors

/-! ### The code -/

/-- The value of an attribute. -/
inductive AttrValue where
  | str (s : String)
  | int (n : ℤ)
  deriving DecidableEq

/-- `KeyValue`. -/
abbrev KeyValue : Type := String × AttrValue

/-- A gauge. -/
structure Gauge where
  name : String
  unit : String
  description : String
  deriving DecidableEq

/-- `GaugeCache`. -/
abbrev GaugeCache : Type := ExtTreeMap String Gauge

/-- `GaugeCache::get_or_create`. -/
def GaugeCache.getOrCreate (gauges : GaugeCache) (m : Measurement) : Gauge × GaugeCache :=
  Memo.getOrInsert gauges m.name ⟨m.name, m.unit, m.description⟩

/-- `base_attrs`. -/
def baseAttrs (accel : Accelerator) : List KeyValue :=
  [("vendor", .str accel.id.vendor.slug), ("model", .str accel.model),
    ("accel.index", .int accel.id.drmIndex), ("pci_addr", .str accel.id.pciAddr),
    ("memory_kind", .str accel.memoryKind.slug), ("coverage", .str accel.coverage.slug),
    ("fabric_domain", .str (accel.fabricDomain.getD "")),
    ("numa_node", .int (accel.numaNode.getD (-1)))]

/-- The attributes of a measurement. -/
def attrsOf (m : Measurement) : List KeyValue := m.attrs.map fun kv => (kv.1, .str kv.2)

/-- A call of `record`: the gauge, the value, and the set of the attributes, where the last
one under a key counts. -/
structure Point where
  gauge : Gauge
  value : ℚ
  attrs : ExtTreeMap String AttrValue

/-- The gauges, and the calls so far. -/
structure LiveState where
  gauges : GaugeCache
  recorded : List Point

/-- `gauges.get_or_create(meter, &m).record(m.value, &attrs)`. -/
def LiveState.record (s : LiveState) (m : Measurement) (attrs : List KeyValue) : LiveState :=
  let (g, gauges) := s.gauges.getOrCreate m
  ⟨gauges, s.recorded ++ [⟨g, m.value, ExtTreeMap.ofList attrs⟩]⟩

/-- `tick`. -/
def tick (backends : List AcceleratorSensor) (accels : List Accelerator) (view : HostView)
    (s : LiveState) : LiveState :=
  accels.foldl (fun s accel =>
    match backends.find? fun b => b.vendor = accel.id.vendor with
    | none => s
    | some backend =>
        match backend.snapshot view accel with
        | .error _ => s
        | .ok measurements =>
            measurements.foldl (fun s m => s.record m (baseAttrs accel ++ attrsOf m)) s) s

/-- `host_tick`. -/
def hostTick (view : HostView) (s : LiveState) : LiveState :=
  view.toHost.snapshot.foldl (fun s m => s.record m (attrsOf m)) s

/-- `run`, with what it sees of the host on each tick. -/
def run (backends : List AcceleratorSensor) (accels : List Accelerator) (once : Bool) :
    List HostView → LiveState → LiveState
  | [], s => s
  | view :: views, s =>
      let s := hostTick view (tick backends accels view s)
      if once then s else run backends accels once views s

/-! ### What is measured -/

/-- A measurement with the attributes that it is recorded with. -/
abbrev Labelled : Type := Measurement × List KeyValue

/-- What a tick measures of an accelerator. -/
def accelMeasurements (view : HostView) (accel : Accelerator) : List Labelled :=
  match backends.find? fun b => b.vendor = accel.id.vendor with
  | none => []
  | some backend =>
      match backend.snapshot view accel with
      | .error _ => []
      | .ok measurements => measurements.map fun m => (m, baseAttrs accel ++ attrsOf m)

/-- What a tick measures. -/
def tickMeasurements (accels : List Accelerator) (view : HostView) : List Labelled :=
  accels.flatMap (accelMeasurements view) ++ view.toHost.snapshot.map fun m => (m, attrsOf m)

/-- What is recorded, in order. -/
def recordAll (s : LiveState) (ms : List Labelled) : LiveState :=
  ms.foldl (fun s m => s.record m.1 m.2) s

lemma recordAll_append (s : LiveState) (ms ms' : List Labelled) :
    recordAll s (ms ++ ms') = recordAll (recordAll s ms) ms' := List.foldl_append

lemma tick_eq (accels : List Accelerator) (view : HostView) (s : LiveState) :
    tick backends accels view s = recordAll s (accels.flatMap (accelMeasurements view)) := by
  rw [tick]
  induction accels generalizing s with
  | nil => rfl
  | cons a accels ih =>
      rw [List.foldl_cons, List.flatMap_cons, recordAll_append, ih, accelMeasurements]
      refine congrArg (recordAll · _) ?_
      cases backends.find? fun b => b.vendor = a.id.vendor with
      | none => rfl
      | some backend =>
          dsimp only
          cases backend.snapshot view a with
          | error e => rfl
          | ok ms =>
              dsimp only
              rw [recordAll, List.foldl_map]

lemma hostTick_eq (view : HostView) (s : LiveState) :
    hostTick view s = recordAll s (view.toHost.snapshot.map fun m => (m, attrsOf m)) := by
  rw [hostTick, recordAll, List.foldl_map]

/-- The ticks of a run. -/
def ticks (once : Bool) (views : List HostView) : List HostView :=
  if once then views.take 1 else views

/-- A run records what its ticks measure. -/
lemma run_eq (accels : List Accelerator) (once : Bool) (views : List HostView) (s : LiveState) :
    run backends accels once views s =
      recordAll s ((ticks once views).flatMap (tickMeasurements accels)) := by
  induction views generalizing s with
  | nil => cases once <;> rfl
  | cons view views ih =>
      have hstep : hostTick view (tick backends accels view s) =
          recordAll s (tickMeasurements accels view) := by
        rw [tick_eq, hostTick_eq, ← recordAll_append, tickMeasurements]
      rw [run, hstep]
      cases once with
      | true => simp [ticks]
      | false => simp [ih, ticks, recordAll_append]

/-! ### The gauges -/

/-- The names under which an accelerator is measured, with their units. -/
def accelUnits : List (String × String) :=
  [("accel.memory.total", "By"), ("accel.memory.used", "By"), ("accel.memory.gtt.total", "By"),
    ("accel.memory.gtt.used", "By"), ("accel.memory.visible_vram.total", "By"),
    ("accel.utilization", "1"), ("accel.temperature", "Cel"), ("accel.power.usage", "W"),
    ("accel.sensor.health", "1")]

/-- The names under which the host is measured, with their units. -/
def hostUnits : List (String × String) :=
  [("host.memory.total_bytes", "By"), ("host.memory.available_bytes", "By"),
    ("host.memory.swap.total_bytes", "By"), ("host.memory.swap.used_bytes", "By"),
    ("host.disk.total_bytes", "By"), ("host.disk.free_bytes", "By"), ("host.power.usage", "W")]

/-- A measurement of an accelerator: what it can be called, and what it can be labelled with. -/
structure OfAccel (m : Measurement) : Prop where
  unit : (m.name, m.unit) ∈ accelUnits
  attrs : ∀ kv ∈ m.attrs, kv.1 = "sensor"

lemma OfAccel.plain {name unit description : String} {value : ℚ}
    (h : (name, unit) ∈ accelUnits) : OfAccel (measurement name unit description value) :=
  ⟨h, List.forall_mem_nil _⟩

lemma forall_mem_gauge {P : Measurement → Prop} {sysfs : Sysfs} {path : Path}
    {f : ℕ → Measurement} (h : ∀ v, P (f v)) : ∀ m ∈ gauge sysfs path f, P m := by
  intro m hm
  obtain ⟨v, rfl⟩ := exists_of_mem_gauge hm
  exact h v

lemma forall_mem_map_toList {α : Type} {P : Measurement → Prop} {o : Option α}
    {f : α → Measurement} (h : ∀ v, P (f v)) : ∀ m ∈ (o.map f).toList, P m := by
  intro m hm
  obtain ⟨v, -, rfl⟩ := Option.map_eq_some_iff.mp (Option.mem_toList.mp hm)
  exact h v

lemma ofAccel_sensorHealth (sysfs : Sysfs) (dir : Path) (v : Vendor) :
    ∀ m ∈ [sensorHealth sysfs dir v], OfAccel m :=
  List.forall_mem_singleton.mpr (OfAccel.plain (by decide))

lemma ofAccel_amd (view : HostView) (a : Accelerator) :
    ∀ m ∈ Sensors.snapshot view.files view.listing a, OfAccel m := by
  have hdiagnostic : ∀ d ∈ diagnosticMemoryMetrics, (d.2.1, "By") ∈ accelUnits := by decide
  simp only [Sensors.snapshot, memoryMeasurements, List.forall_mem_append, List.forall_mem_flatMap]
  refine ⟨⟨⟨⟨⟨?total, ?used⟩, fun d hd => ?diagnostic⟩, ?utilization⟩, fun hw _ => ?hwmon⟩, ?health⟩
  case total => exact forall_mem_gauge fun v => OfAccel.plain (by decide)
  case used => exact forall_mem_gauge fun v => OfAccel.plain (by decide)
  case diagnostic => exact forall_mem_gauge fun v => OfAccel.plain (hdiagnostic d hd)
  case utilization => exact forall_mem_map_toList fun v => OfAccel.plain (by decide)
  case hwmon =>
    have htemperature : ("accel.temperature", "Cel") ∈ accelUnits := by decide
    rw [hwmonMeasurements, List.forall_mem_append]
    refine ⟨forall_mem_gauge fun t => ⟨htemperature, ?_⟩,
      forall_mem_gauge fun p => OfAccel.plain (by decide)⟩
    exact List.forall_mem_singleton.mpr rfl
  case health => exact ofAccel_sensorHealth view.files a.deviceDir .amd

lemma ofAccel_nvidia (view : HostView) (a : Accelerator) :
    ∀ m ∈ Nvidia.snapshot view a, OfAccel m := by
  simp only [Nvidia.snapshot, List.forall_mem_append]
  refine ⟨⟨?_, ?_⟩, ofAccel_sensorHealth view.files a.deviceDir .nvidia⟩
  · exact forall_mem_map_toList fun v => OfAccel.plain (by decide)
  · exact forall_mem_map_toList fun v => OfAccel.plain (by decide)

lemma ofAccel_intel (view : HostView) (a : Accelerator) :
    ∀ m ∈ Intel.snapshot view a, OfAccel m := by
  simp only [Intel.snapshot, Intel.hwmonMeasurements, List.forall_mem_append,
    List.forall_mem_flatMap]
  refine ⟨⟨?_, fun hw _ => ⟨?_, ?_⟩⟩, ofAccel_sensorHealth view.files a.deviceDir .intel⟩
  · exact forall_mem_map_toList fun v => OfAccel.plain (by decide)
  · exact forall_mem_gauge fun t => OfAccel.plain (by decide)
  · exact forall_mem_gauge fun p => OfAccel.plain (by decide)

lemma ofHost_snapshot (host : Host) : ∀ m ∈ host.snapshot, (m.name, m.unit) ∈ hostUnits := by
  simp only [Host.snapshot, Host.memoryMetrics, Host.diskMetrics, List.forall_mem_append,
    List.forall_mem_flatMap]
  refine ⟨⟨⟨⟨?total, ?available⟩, ?swap⟩, fun d _ => ?disk⟩, fun m hm => ?power⟩
  case total =>
    exact forall_mem_map_toList fun _ =>
      (by decide : ("host.memory.total_bytes", "By") ∈ hostUnits)
  case available =>
    exact forall_mem_map_toList fun _ =>
      (by decide : ("host.memory.available_bytes", "By") ∈ hostUnits)
  case swap =>
    intro m hm
    split at hm
    · simp only [List.mem_cons, List.not_mem_nil, or_false] at hm
      rcases hm with rfl | rfl
      · exact (by decide : ("host.memory.swap.total_bytes", "By") ∈ hostUnits)
      · exact (by decide : ("host.memory.swap.used_bytes", "By") ∈ hostUnits)
    · exact absurd hm List.not_mem_nil
  case disk =>
    refine List.forall_mem_cons.mpr ⟨?_, List.forall_mem_singleton.mpr ?_⟩
    · exact (by decide : ("host.disk.total_bytes", "By") ∈ hostUnits)
    · exact (by decide : ("host.disk.free_bytes", "By") ∈ hostUnits)
  case power =>
    obtain ⟨entry, -, hentry⟩ := List.mem_flatMap.mp hm
    split at hentry
    · exact absurd hentry List.not_mem_nil
    · split_ifs at hentry
      · exact absurd hentry List.not_mem_nil
      · obtain ⟨file, -, hfile⟩ := List.mem_filterMap.mp hentry
        obtain ⟨uw, -, rfl⟩ := Option.map_eq_some_iff.mp hfile
        exact (by decide : ("host.power.usage", "W") ∈ hostUnits)

/-- Which units there are under a name. -/
def Unit (name unit : String) : Prop := (name, unit) ∈ accelUnits ++ hostUnits

lemma Unit.unique {name u u' : String} (h : Unit name u) (h' : Unit name u') : u = u' := by
  have hall : ∀ p ∈ accelUnits ++ hostUnits, ∀ q ∈ accelUnits ++ hostUnits,
      p.1 = q.1 → p.2 = q.2 := by decide +kernel
  exact hall _ h _ h' rfl

/-- What an accelerator is measured by, with the attributes of the accelerator. -/
lemma exists_of_mem_accelMeasurements {view : HostView} {a : Accelerator} {l : Labelled}
    (hl : l ∈ accelMeasurements view a) :
    OfAccel l.1 ∧ l.2 = baseAttrs a ++ attrsOf l.1 := by
  rw [accelMeasurements] at hl
  cases hfind : backends.find? fun b => b.vendor = a.id.vendor with
  | none =>
      rw [hfind] at hl
      exact absurd hl List.not_mem_nil
  | some backend =>
      rw [hfind] at hl
      dsimp only at hl
      have hof (ms : List Measurement) (hms : backend.snapshot view a = .ok ms) :
          ∀ m ∈ ms, OfAccel m := by
        have hbackend := List.mem_of_find?_eq_some hfind
        simp only [backends, List.mem_cons, List.not_mem_nil, or_false] at hbackend
        rcases hbackend with rfl | rfl | rfl
        · obtain rfl := Except.ok.inj hms
          exact ofAccel_amd view a
        · obtain rfl := Except.ok.inj hms
          exact ofAccel_nvidia view a
        · obtain rfl := Except.ok.inj hms
          exact ofAccel_intel view a
      cases hsnapshot : backend.snapshot view a with
      | error e =>
          rw [hsnapshot] at hl
          exact absurd hl List.not_mem_nil
      | ok ms =>
          rw [hsnapshot] at hl
          obtain ⟨m, hm, rfl⟩ := List.mem_map.mp hl
          exact ⟨hof ms hsnapshot m hm, rfl⟩

lemma unit_of_mem_tickMeasurements {accels : List Accelerator} {view : HostView} {l : Labelled}
    (hl : l ∈ tickMeasurements accels view) : Unit l.1.name l.1.unit := by
  rcases List.mem_append.mp hl with hl | hl
  · obtain ⟨a, -, hl⟩ := List.mem_flatMap.mp hl
    exact List.mem_append_left _ (exists_of_mem_accelMeasurements hl).1.unit
  · obtain ⟨m, hm, rfl⟩ := List.mem_map.mp hl
    exact List.mem_append_right _ (ofHost_snapshot view.toHost m hm)

/-- What a reader of the gauges sees of a call. -/
structure Sample where
  name : String
  unit : String
  value : ℚ
  attrs : ExtTreeMap String AttrValue

/-- What is seen of a point. -/
def Point.sample (p : Point) : Sample := ⟨p.gauge.name, p.gauge.unit, p.value, p.attrs⟩

/-- What would be seen of a measurement that has a gauge of its own. -/
def sampleOf (l : Labelled) : Sample := ⟨l.1.name, l.1.unit, l.1.value, ExtTreeMap.ofList l.2⟩

/-- What a run keeps: a gauge has the name that it is kept under and the unit of that name,
and every call went to a gauge that is kept. -/
structure Sound (s : LiveState) : Prop where
  kept : ∀ name (g : Gauge), s.gauges[name]? = some g → g.name = name ∧ Unit name g.unit
  used : ∀ p ∈ s.recorded, s.gauges[p.gauge.name]? = some p.gauge

/-- **One call** goes to the gauge of its measurement. -/
lemma Sound.record {s : LiveState} (h : Sound s) {l : Labelled} (hunit : Unit l.1.name l.1.unit) :
    Sound (s.record l.1 l.2) ∧
      (s.record l.1 l.2).recorded.map Point.sample =
        s.recorded.map Point.sample ++ [sampleOf l] := by
  have hself := Memo.getElem?_getOrInsert s.gauges l.1.name
    (⟨l.1.name, l.1.unit, l.1.description⟩ : Gauge)
  have hkept := Memo.forall_getOrInsert (P := fun name (g : Gauge) => g.name = name ∧
    Unit name g.unit) s.gauges l.1.name ⟨l.1.name, l.1.unit, l.1.description⟩ h.kept ⟨rfl, hunit⟩
  have hext := Memo.extends_getOrInsert s.gauges l.1.name
    (⟨l.1.name, l.1.unit, l.1.description⟩ : Gauge)
  rcases hresult : Memo.getOrInsert s.gauges l.1.name
    (⟨l.1.name, l.1.unit, l.1.description⟩ : Gauge) with ⟨g, gauges⟩
  have hrecord : s.record l.1 l.2 =
      ⟨gauges, s.recorded ++ [⟨g, l.1.value, ExtTreeMap.ofList l.2⟩]⟩ := by
    rw [LiveState.record, GaugeCache.getOrCreate, hresult]
  rw [hresult] at hself hkept hext
  rw [hrecord]
  obtain ⟨hname, hgauge⟩ := hkept _ _ hself
  refine ⟨⟨hkept, fun p hp => ?_⟩, ?_⟩
  · rcases List.mem_append.mp hp with hp | hp
    · exact hext _ _ (h.used p hp)
    · obtain rfl := List.mem_singleton.mp hp
      dsimp only at hname ⊢
      rw [hname]
      exact hself
  · dsimp only at hname hgauge
    rw [List.map_append, List.map_singleton, Point.sample, sampleOf, hname,
      Unit.unique hgauge hunit]

/-- **A run of calls** goes to the gauges of its measurements. -/
lemma Sound.recordAll {s : LiveState} (h : Sound s) {ls : List Labelled}
    (hunit : ∀ l ∈ ls, Unit l.1.name l.1.unit) :
    Sound (recordAll s ls) ∧
      (recordAll s ls).recorded.map Point.sample =
        s.recorded.map Point.sample ++ ls.map sampleOf := by
  induction ls generalizing s with
  | nil => exact ⟨h, (List.append_nil _).symm⟩
  | cons l ls ih =>
      obtain ⟨hl, hls⟩ := List.forall_mem_cons.mp hunit
      obtain ⟨hsound, hsamples⟩ := h.record hl
      obtain ⟨hsound', hsamples'⟩ := ih hsound hls
      refine ⟨hsound', hsamples'.trans ?_⟩
      rw [hsamples, List.append_assoc, List.singleton_append, List.map_cons]

/-! ### What is shown -/

/-- The last sample under a name and a set of attributes has this value. -/
def Shows (l : List Sample) (name : String) (attrs : ExtTreeMap String AttrValue) (value : ℚ) :
    Prop :=
  ∃ before s after, l = before ++ s :: after ∧ s.name = name ∧ s.attrs = attrs ∧
    s.value = value ∧ ∀ t ∈ after, ¬(t.name = name ∧ t.attrs = attrs)

variable {name : String} {attrs : ExtTreeMap String AttrValue} {value : ℚ}

/-- What was sampled before does not matter. -/
lemma Shows.append_left {l : List Sample} (h : Shows l name attrs value) (l' : List Sample) :
    Shows (l' ++ l) name attrs value := by
  obtain ⟨before, s, after, rfl, hs⟩ := h
  exact ⟨l' ++ before, s, after, (List.append_assoc ..).symm, hs⟩

/-- Nor does what is sampled under other names, or with other attributes. -/
lemma Shows.append_right {l l' : List Sample} (h : Shows l name attrs value)
    (hother : ∀ t ∈ l', ¬(t.name = name ∧ t.attrs = attrs)) :
    Shows (l ++ l') name attrs value := by
  obtain ⟨before, s, after, rfl, hname, hattrs, hvalue, hafter⟩ := h
  refine ⟨before, s, after ++ l', by simp, hname, hattrs, hvalue, ?_⟩
  exact List.forall_mem_append.mpr ⟨hafter, hother⟩

/-- Attributes that follow those of an accelerator, and that say nothing of its identity. -/
lemma getElem?_ofList_baseAttrs (a : Accelerator) {extra : List KeyValue}
    (hextra : ∀ kv ∈ extra, kv.1 = "sensor") {k : String} (hk : k ≠ "sensor") :
    (ExtTreeMap.ofList (baseAttrs a ++ extra))[k]? = (ExtTreeMap.ofList (baseAttrs a))[k]? := by
  have hnone : (ExtTreeMap.ofList extra : ExtTreeMap String AttrValue)[k]? = none :=
    Insertions.getElem?_ofList_eq_none fun kv hkv heq => hk (heq ▸ hextra kv hkv)
  rw [Insertions.getElem?_ofList_append, hnone, Option.none_or]

lemma getElem?_baseAttrs {a : Accelerator} {k : String} {v : AttrValue}
    (h : (k, v) ∈ baseAttrs a) :
    (ExtTreeMap.ofList (baseAttrs a) : ExtTreeMap String AttrValue)[k]? = some v := by
  refine MergePatch.getElem?_ofList_of_nodup ?_ h
  exact (by decide : ["vendor", "model", "accel.index", "pci_addr", "memory_kind", "coverage",
    "fabric_domain", "numa_node"].Nodup)

/-- **The attributes tell the accelerators apart.** -/
lemma id_eq_of_attrs {a b : Accelerator} {extra extra' : List KeyValue}
    (hextra : ∀ kv ∈ extra, kv.1 = "sensor") (hextra' : ∀ kv ∈ extra', kv.1 = "sensor")
    (h : (ExtTreeMap.ofList (baseAttrs a ++ extra) : ExtTreeMap String AttrValue) =
      ExtTreeMap.ofList (baseAttrs b ++ extra')) : a.id = b.id := by
  have hkey (k : String) (hk : k ≠ "sensor") :
      (ExtTreeMap.ofList (baseAttrs a) : ExtTreeMap String AttrValue)[k]? =
        (ExtTreeMap.ofList (baseAttrs b))[k]? := by
    rw [← getElem?_ofList_baseAttrs a hextra hk, h, getElem?_ofList_baseAttrs b hextra' hk]
  have hvendor := hkey "vendor" (by decide)
  have hindex := hkey "accel.index" (by decide)
  have haddr := hkey "pci_addr" (by decide)
  rw [getElem?_baseAttrs (List.mem_of_getElem? (i := 0) rfl),
    getElem?_baseAttrs (List.mem_of_getElem? (i := 0) rfl)] at hvendor
  rw [getElem?_baseAttrs (List.mem_of_getElem? (i := 2) rfl),
    getElem?_baseAttrs (List.mem_of_getElem? (i := 2) rfl)] at hindex
  rw [getElem?_baseAttrs (List.mem_of_getElem? (i := 3) rfl),
    getElem?_baseAttrs (List.mem_of_getElem? (i := 3) rfl)] at haddr
  have hvendor := Vendor.slug_injective (AttrValue.str.inj (Option.some.inj hvendor))
  have hindex := Int.ofNat.inj (AttrValue.int.inj (Option.some.inj hindex))
  have haddr := AttrValue.str.inj (Option.some.inj haddr)
  calc a.id = ⟨a.id.vendor, a.id.drmIndex, a.id.pciAddr⟩ := rfl
    _ = ⟨b.id.vendor, b.id.drmIndex, b.id.pciAddr⟩ := by rw [hvendor, hindex, haddr]
    _ = b.id := rfl

/-- Every measurement of an accelerator ends with its health. -/
lemma exists_accelMeasurements_eq (view : HostView) {a : Accelerator} (hv : a.id.vendor ≠ .other) :
    ∃ before, accelMeasurements view a =
      before ++ [(sensorHealth view.files a.deviceDir a.id.vendor, baseAttrs a)] := by
  have hmap (ms : List Measurement) (v : Vendor) :
      (ms ++ [sensorHealth view.files a.deviceDir v]).map (fun m => (m, baseAttrs a ++ attrsOf m)) =
        ms.map (fun m => (m, baseAttrs a ++ attrsOf m)) ++
          [(sensorHealth view.files a.deviceDir v, baseAttrs a)] := by
    have hplain : attrsOf (sensorHealth view.files a.deviceDir v) = [] := rfl
    rw [List.map_append, List.map_singleton, hplain, List.append_nil]
  rw [accelMeasurements]
  cases hvendor : a.id.vendor with
  | amd => exact ⟨_, hmap _ .amd⟩
  | nvidia => exact ⟨_, hmap _ .nvidia⟩
  | intel => exact ⟨_, hmap _ .intel⟩
  | other => exact absurd hvendor hv

lemma shows_health (view : HostView) {a : Accelerator} (hv : a.id.vendor ≠ .other) :
    Shows ((accelMeasurements view a).map sampleOf) "accel.sensor.health"
      (ExtTreeMap.ofList (baseAttrs a))
      (if cardVendor view.files a.deviceDir = a.id.vendor then 1 else 0) := by
  obtain ⟨before, hbefore⟩ := exists_accelMeasurements_eq view hv
  rw [hbefore, List.map_append, List.map_singleton]
  exact ⟨before.map sampleOf, _, [], rfl, rfl, rfl, rfl, List.forall_mem_nil _⟩

/-- What is asked of a run over these ticks: it records what is measured, under the name and the
unit of each measurement; a name has one gauge; and after the last tick, whatever that measured
of an accelerator is what is shown of it, where its health is whether its vendor is read
back. -/
structure Recorded (accels : List Accelerator) (views : List HostView) (s : LiveState) : Prop where
  samples : s.recorded.map Point.sample = (views.flatMap (tickMeasurements accels)).map sampleOf
  gauges : ∀ p ∈ s.recorded, ∀ q ∈ s.recorded, p.gauge.name = q.gauge.name → p.gauge = q.gauge
  latest : ∀ view ∈ views.getLast?, ∀ a ∈ accels, ∀ name attrs value,
    Shows ((accelMeasurements view a).map sampleOf) name attrs value →
      Shows (s.recorded.map Point.sample) name attrs value
  health : ∀ view ∈ views.getLast?, ∀ a ∈ accels, Shows (s.recorded.map Point.sample)
    "accel.sensor.health" (ExtTreeMap.ofList (baseAttrs a))
    (if cardVendor view.files a.deviceDir = a.id.vendor then 1 else 0)

/-- Nothing else that a tick measures is shown in place of what it measured of an
accelerator. -/
lemma shows_tickMeasurements {accels : List Accelerator} (hids : (accels.map (·.id)).Nodup)
    {view : HostView} {a : Accelerator} (ha : a ∈ accels)
    (h : Shows ((accelMeasurements view a).map sampleOf) name attrs value) :
    Shows ((tickMeasurements accels view).map sampleOf) name attrs value := by
  have hsensor {b : Accelerator} {l : Labelled} (hl : l ∈ accelMeasurements view b) :
      ∀ kv ∈ attrsOf l.1, kv.1 = "sensor" := by
    intro kv hkv
    obtain ⟨kv', hkv', rfl⟩ := List.mem_map.mp hkv
    exact (exists_of_mem_accelMeasurements hl).1.attrs kv' hkv'
  have hexists : ∃ l ∈ accelMeasurements view a, l.1.name = name ∧
        (ExtTreeMap.ofList (baseAttrs a ++ attrsOf l.1) : ExtTreeMap String AttrValue) = attrs := by
    obtain ⟨before, s, after, hsplit, hname, hattrs, -, -⟩ := h
    have hs : s ∈ (accelMeasurements view a).map sampleOf := by
      rw [hsplit]
      exact List.mem_append_right _ List.mem_cons_self
    obtain ⟨l, hl, rfl⟩ := List.mem_map.mp hs
    exact ⟨l, hl, hname, by rw [← (exists_of_mem_accelMeasurements hl).2]; exact hattrs⟩
  obtain ⟨l, hl, hname, hattrs⟩ := hexists
  obtain ⟨before, after, rfl⟩ := List.append_of_mem ha
  have hlater : ∀ b ∈ after, a.id ≠ b.id := by
    rw [List.map_append, List.map_cons] at hids
    have hnotMem := (List.nodup_cons.mp (List.nodup_append.mp hids).2.1).1
    intro b hb heq
    exact hnotMem (List.mem_map.mpr ⟨b, hb, heq.symm⟩)
  rw [tickMeasurements, List.flatMap_append, List.flatMap_cons, List.append_assoc,
    List.append_assoc, List.map_append, List.map_append]
  refine (h.append_right fun t ht => ?_).append_left _
  rintro ⟨htname, htattrs⟩
  obtain ⟨l', hl', rfl⟩ := List.mem_map.mp ht
  rcases List.mem_append.mp hl' with hl' | hl'
  · obtain ⟨b, hb, hl'⟩ := List.mem_flatMap.mp hl'
    refine hlater b hb (id_eq_of_attrs (hsensor hl) (hsensor hl') ?_)
    rw [hattrs, ← htattrs, sampleOf, (exists_of_mem_accelMeasurements hl').2]
  · obtain ⟨m, hm, rfl⟩ := List.mem_map.mp hl'
    have hapart : ∀ p ∈ accelUnits, ∀ q ∈ hostUnits, p.1 ≠ q.1 := by decide +kernel
    refine hapart _ (exists_of_mem_accelMeasurements hl).1.unit _ (ofHost_snapshot _ m hm) ?_
    exact hname.trans htname.symm

lemma vendor_ne_other {view : HostView} {cards : List DrmCard} {others : List String}
    (h : Lists view cards others) {a : Accelerator} (ha : a ∈ enumerateAll view) :
    a.id.vendor ≠ .other := by
  have horigin := List.mem_map_of_mem (f := origin) ha
  rw [map_origin_enumerateAll h, List.mem_flatMap] at horigin
  obtain ⟨v, hv, hmem⟩ := horigin
  obtain ⟨c, -, hc⟩ := List.mem_map.mp hmem
  have hvendor : v = a.id.vendor := congrArg Prod.fst hc
  have hknown : ∀ v ∈ [Vendor.amd, .nvidia, .intel], v ≠ .other := by decide
  exact hvendor ▸ hknown v hv

/-- **What the daemon records.** For the accelerators that were enumerated at the start, with
whatever labels they were given since, and whatever the files say on each tick: the run
records what is measured, although a gauge is made only once for each name; no card and no
part of the host is shown in place of another card; and after every tick the health of each
card is shown as of that tick. -/
theorem recorded_run {start : HostView} {cards : List DrmCard} {others : List String}
    (h : Lists start cards others) {accels : List Accelerator}
    (haccels : accels.map (·.id) = (enumerateAll start).map (·.id)) (once : Bool)
    (views : List HostView) :
    Recorded accels (ticks once views) (run backends accels once views ⟨∅, []⟩) := by
  have hids : (accels.map (·.id)).Nodup := haccels ▸ nodup_id_enumerateAll h
  have hvendors : ∀ a ∈ accels, a.id.vendor ≠ .other := by
    intro a ha
    have hid := List.mem_map_of_mem (f := fun a : Accelerator => a.id) ha
    rw [haccels] at hid
    obtain ⟨b, hb, hbid⟩ := List.mem_map.mp hid
    exact hbid ▸ vendor_ne_other h hb
  have hempty : Sound ⟨∅, []⟩ := ⟨fun name g hg => by simp at hg, List.forall_mem_nil _⟩
  have hunits : ∀ l ∈ (ticks once views).flatMap (tickMeasurements accels),
      Unit l.1.name l.1.unit := by
    intro l hl
    obtain ⟨view, -, hl⟩ := List.mem_flatMap.mp hl
    exact unit_of_mem_tickMeasurements hl
  obtain ⟨hsound, hsamples⟩ := hempty.recordAll hunits
  rw [run_eq]
  rw [List.map_nil, List.nil_append] at hsamples
  have hlatest : ∀ view ∈ (ticks once views).getLast?, ∀ a ∈ accels, ∀ name attrs value,
      Shows ((accelMeasurements view a).map sampleOf) name attrs value →
        Shows ((recordAll ⟨∅, []⟩ ((ticks once views).flatMap
          (tickMeasurements accels))).recorded.map Point.sample) name attrs value := by
    intro view hview a ha name attrs value hshows
    obtain ⟨before, hbefore⟩ := List.getLast?_eq_some_iff.mp hview
    rw [hsamples, hbefore, List.flatMap_append, List.flatMap_singleton, List.map_append]
    exact (shows_tickMeasurements hids ha hshows).append_left _
  refine ⟨hsamples, fun p hp q hq hname => ?_, hlatest, fun view hview a ha => ?_⟩
  · have hused := hsound.used p hp
    rw [hname, hsound.used q hq] at hused
    exact (Option.some.inj hused).symm
  · exact hlatest view hview a ha _ _ _ (shows_health view (hvendors a ha))

/-- Two ticks of a host with one card. -/
theorem recorded_run_mixed :
    Recorded (enumerateAll mixedView) [mixedView, mixedView]
      (run backends (enumerateAll mixedView) false [mixedView, mixedView] ⟨∅, []⟩) :=
  recorded_run lists_mixed rfl false [mixedView, mixedView]

end Accelrd.Telemetry
