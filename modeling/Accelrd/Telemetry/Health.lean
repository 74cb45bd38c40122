import Mathlib.Tactic
import Accelrd.Sensors.Host
import Accelrd.Telemetry.Preflight

/-!
`HostDiskFree` of `src/preflight/health.rs`: whether the disks of a host have enough free
bytes.

* `HostDiskFree.run`: the code.
* `HostDiskFree.run_eq`: it looks at the first of the disks that have the most free bytes.
-/

namespace Accelrd.Telemetry

open Sensors

/-- `CheckOutcome`. -/
structure CheckOutcome where
  status : Status
  message : Option String
  measurements : List Measurement

/-- `CheckOutcome::skipped_with`. -/
def CheckOutcome.skippedWith (msg : String) : CheckOutcome := ⟨.skipped, some msg, []⟩

/-- `HostDiskFree`. -/
structure HostDiskFree where
  minFreeBytes : ℕ

namespace HostDiskFree

/-- The default. -/
def default : HostDiskFree := ⟨200 * 2 ^ 30⟩

/-- One round of the loop: a mount and its free bytes are kept until there are more. -/
def pick (best : Option (String × ℕ)) (m : Measurement) : Option (String × ℕ) :=
  let mount := ((m.attrs.find? (·.1 = "mount")).map Prod.snd).getD ""
  let bytes := ⌊m.value⌋₊
  if (best.map fun b => decide (bytes > b.2)).getD true then some (mount, bytes) else best

/-- `run`. -/
def run (check : HostDiskFree) (host : Host) : CheckOutcome :=
  match (host.snapshot.filter (·.name = "host.disk.free_bytes")).foldl pick none with
  | none => .skippedWith "no real-filesystem mounts found in /proc/self/mountinfo"
  | some (mount, free) =>
      let measurements := [⟨"host.preflight.disk.free", "By",
        "Free bytes on the largest real mount.", free, [("mount", mount)]⟩]
      if free < check.minFreeBytes then
        ⟨.fail, some ("largest mount " ++ mount ++ " has " ++ toString free ++
          " free < required " ++ toString check.minFreeBytes ++ " bytes"), measurements⟩
      else ⟨.pass, none, measurements⟩

/-- The outcome for a disk. -/
def outcomeOf (check : HostDiskFree) (d : Host.Disk) : CheckOutcome :=
  let measurements := [⟨"host.preflight.disk.free", "By",
    "Free bytes on the largest real mount.", d.free, [("mount", d.mount)]⟩]
  if d.free < check.minFreeBytes then
    ⟨.fail, some ("largest mount " ++ d.mount ++ " has " ++ toString d.free ++
      " free < required " ++ toString check.minFreeBytes ++ " bytes"), measurements⟩
  else ⟨.pass, none, measurements⟩

/-- The loop keeps the first of the disks that have the most free bytes. -/
lemma foldl_pick (disks : List Host.Disk) :
    (disks.map Host.Disk.freeBytes).foldl pick none =
      (disks.argmax Host.Disk.free).map fun d => (d.mount, d.free) := by
  induction disks using List.reverseRecOn with
  | nil => rfl
  | append_singleton disks d ih =>
      rw [List.map_append, List.foldl_append, ih, List.argmax_concat]
      cases disks.argmax Host.Disk.free with
      | none => simp [pick, Host.Disk.freeBytes]
      | some c =>
          by_cases hlt : c.free < d.free
          · simp [pick, Host.Disk.freeBytes, hlt]
          · simp [pick, Host.Disk.freeBytes, hlt]

/-- **What the check looks at**: the first of the disks that have the most free bytes. -/
theorem run_eq (check : HostDiskFree) (host : Host) :
    check.run host =
      ((host.disks.argmax Host.Disk.free).map check.outcomeOf).getD
        (.skippedWith "no real-filesystem mounts found in /proc/self/mountinfo") := by
  rw [run, Host.filter_free_snapshot, foldl_pick]
  cases host.disks.argmax Host.Disk.free with
  | none => rfl
  | some d => rfl

end HostDiskFree

end Accelrd.Telemetry
