import Mathlib.Tactic
import Accelrd.Library.Runs
import Accelrd.Library.Words
import Accelrd.Sensors.Amd

/-!
The processors near a device: `parse_cpulist` and `read_local_cpus` of
`src/sensors/common.rs`.

* `parseCpulist`, `readLocalCpus`: the code.
* `cpulist`: what the kernel writes for a set of processors.
* `parseCpulist_cpulist`: the code reads the set back.
-/

namespace Accelrd.Sensors

open Runs

/-! ### The code -/

/-- `parse::<usize>`, where `usize` has 64 bits. -/
def parseUsize (cs : List Char) : Option ℕ := Text.parseUnsigned 64 cs

/-- The ids that a piece of the list stands for. -/
def pieceIds (piece : List Char) : List ℕ :=
  match Text.splitOnce '-' piece with
  | some (a, b) =>
      match parseUsize a, parseUsize b with
      | some a, some b => List.range' a (b + 1 - a)
      | _, _ => []
  | none => (parseUsize piece).toList

/-- `parse_cpulist`. -/
def parseCpulist (s : String) : List ℕ :=
  (((s.toList.splitOn ',').map Text.trim).filter (· ≠ [])).flatMap pieceIds

/-- `read_local_cpus`. -/
def readLocalCpus (sysfs : Sysfs) (deviceDir : Path) : List ℕ :=
  ((readStringFirstLine sysfs (deviceDir.join "local_cpulist")).map parseCpulist).getD []

/-! ### What the kernel writes -/

/-- A run in a list of processors. -/
def showRun (r : Run) : String :=
  if r.first = r.last then toString r.first else toString r.first ++ "-" ++ toString r.last

/-- The line for some runs. -/
def showRuns (rs : List Run) : String := ",".intercalate (rs.map showRun)

/-- The line for a set of processors: its maximal runs. -/
def cpulist (ids : Finset ℕ) : String := showRuns (maximalRuns ids).list

/-- A run has digits, and at most a dash. -/
lemma isDigit_or_dash_of_mem_showRun {r : Run} {c : Char} (hc : c ∈ (showRun r).toList) :
    c.isDigit ∨ c = '-' := by
  rw [showRun] at hc
  split_ifs at hc
  · exact Or.inl (Text.isDigit_of_mem_toString hc)
  · rw [String.toList_append, String.toList_append, List.mem_append, List.mem_append] at hc
    rcases hc with (hc | hc) | hc
    · exact Or.inl (Text.isDigit_of_mem_toString hc)
    · exact Or.inr (List.mem_singleton.mp hc)
    · exact Or.inl (Text.isDigit_of_mem_toString hc)

lemma showRun_ne_empty (r : Run) : showRun r ≠ "" := by
  rw [showRun]
  split_ifs
  · exact Nat.repr_ne_empty
  · exact fun h => Nat.repr_ne_empty (String.append_eq_empty_iff.mp h).2

lemma no_space_showRun {r : Run} : ∀ c ∈ (showRun r).toList, Text.isWhitespace c = false := by
  intro c hc
  rcases isDigit_or_dash_of_mem_showRun hc with hdigit | rfl
  · exact Text.isWhitespace_of_isDigit hdigit
  · decide

lemma no_space_showRuns {rs : List Run} :
    ∀ c ∈ (showRuns rs).toList, Text.isWhitespace c = false := by
  intro c hc
  rw [showRuns, String.toList_intercalate] at hc
  rcases Text.mem_intercalate hc with rfl | ⟨piece, hpiece, hc⟩
  · decide
  · obtain ⟨r, -, rfl⟩ := List.mem_map.mp (List.map_map ▸ hpiece)
    exact no_space_showRun c hc

/-! ### What is read of it -/

lemma parseUsize_toString {n : ℕ} (h : n < 2 ^ 64) : parseUsize (toString n).toList = some n :=
  Text.parseUnsigned_toString h

/-- **A run is read back.** -/
lemma pieceIds_showRun {r : Run} (h : r.last < 2 ^ 64) :
    pieceIds (showRun r).toList = r.toList := by
  have hfirst := parseUsize_toString (r.le.trans_lt h)
  have hdash (n : ℕ) : '-' ∉ (toString n).toList := fun hmem =>
    absurd (Text.isDigit_of_mem_toString hmem) (by decide)
  rw [pieceIds, showRun]
  split_ifs with heq
  · rw [Text.splitOnce_eq_none (hdash r.first), hfirst, Run.toList, ← heq, Nat.add_sub_cancel_left]
    rfl
  · have hshow : (toString r.first ++ "-" ++ toString r.last).toList =
        (toString r.first).toList ++ '-' :: (toString r.last).toList := by
      rw [String.toList_append, String.toList_append, List.append_assoc]
      rfl
    simp only [hshow, Text.splitOnce_append (hdash r.first), hfirst, parseUsize_toString h]
    rfl

/-- **The runs of a line are read back**, whatever they are. -/
lemma parseCpulist_showRuns {rs : List Run} (h : ∀ r ∈ rs, r.last < 2 ^ 64) :
    parseCpulist (showRuns rs) = rs.flatMap Run.toList := by
  by_cases hnil : rs = []
  · rw [hnil]
    decide
  have hcomma : ∀ piece ∈ (rs.map showRun).map String.toList, ',' ∉ piece := by
    simp only [List.forall_mem_map]
    intro r _ hmem
    rcases isDigit_or_dash_of_mem_showRun hmem with hdigit | hdash
    · exact absurd hdigit (by decide)
    · exact absurd hdash (by decide)
  have hsplit : (showRuns rs).toList.splitOn ',' = (rs.map showRun).map String.toList := by
    rw [showRuns, String.toList_intercalate]
    exact List.splitOn_intercalate ',' hcomma (by simpa using hnil)
  have hpieces : ((showRuns rs).toList.splitOn ',').map Text.trim =
      rs.map fun r => (showRun r).toList := by
    rw [hsplit, List.map_map, List.map_map]
    exact List.map_congr_left fun r _ => Text.trim_eq_self_of_forall no_space_showRun
  have hne : ∀ piece ∈ rs.map fun r => (showRun r).toList, decide (piece ≠ []) := by
    rw [List.forall_mem_map]
    exact fun r _ => decide_eq_true (mt String.toList_eq_nil_iff.mp (showRun_ne_empty r))
  rw [parseCpulist, hpieces, List.filter_eq_self.mpr hne, List.flatMap_map]
  exact List.flatMap_congr fun r hr => pieceIds_showRun (h r hr)

example : parseCpulist "0-3,16-18" = [0, 1, 2, 3, 16, 17, 18] := by decide +kernel

/-- The first line of a file that has one word in it. -/
lemma readStringFirstLine_of_line {sysfs : Sysfs} {path : Path} {line : String}
    (hline : ∀ c ∈ line.toList, Text.isWhitespace c = false)
    (hfile : sysfs path = some (line ++ "\n")) : readStringFirstLine sysfs path = some line := by
  have hfeed : '\n' ∉ line.toList := fun h => absurd (hline _ h) (by decide)
  have hreturn : line.toList.getLast? ≠ some '\r' := fun h =>
    absurd (hline _ (List.mem_of_mem_getLast? h)) (by decide)
  have htext : (line ++ "\n").toList = line.toList ++ '\n' :: [] := by
    rw [String.toList_append]
    rfl
  rw [readStringFirstLine, hfile, Option.bind_some, htext, Text.lines_append hfeed hreturn,
    List.head?_cons, Option.map_some, Text.trim_eq_self_of_forall hline, String.ofList_toList]

/-- **The list of processors is read back**, whatever the set of ids is that a `usize` can hold:
in ascending order and each id once, from the line and from the file that the kernel keeps it
in. -/
theorem parseCpulist_cpulist (ids : Finset ℕ) (hids : ∀ id ∈ ids, id < 2 ^ 64) :
    parseCpulist (cpulist ids) = ids.sort (· ≤ ·) ∧
      ∀ (sysfs : Sysfs) (deviceDir : Path),
        sysfs (deviceDir.join "local_cpulist") = some (cpulist ids ++ "\n") →
          readLocalCpus sysfs deviceDir = ids.sort (· ≤ ·) := by
  have hlast : ∀ r ∈ (maximalRuns ids).list, r.last < 2 ^ 64 := fun r hr =>
    hids r.last (((maximalRuns ids).mem_iff r.last).mpr ⟨r, hr, r.last_mem⟩)
  have hline : parseCpulist (cpulist ids) = ids.sort (· ≤ ·) := by
    rw [cpulist, parseCpulist_showRuns hlast, MaximalRuns.flatMap_toList]
  refine ⟨hline, fun sysfs deviceDir hfile => ?_⟩
  rw [readLocalCpus, readStringFirstLine_of_line no_space_showRuns hfile, Option.map_some,
    Option.getD_some, ← cpulist, hline]

/-- Processors on both sides of a gap, in the file of a device. -/
theorem parseCpulist_cpulist_halves :
    parseCpulist (cpulist {0, 1, 2, 3, 8}) = Finset.sort {0, 1, 2, 3, 8} (· ≤ ·) ∧
      readLocalCpus (fun _ => some (cpulist {0, 1, 2, 3, 8} ++ "\n")) ["sys", "devices"] =
        Finset.sort {0, 1, 2, 3, 8} (· ≤ ·) :=
  ⟨(parseCpulist_cpulist {0, 1, 2, 3, 8} (by decide)).1,
    (parseCpulist_cpulist {0, 1, 2, 3, 8} (by decide)).2 _ _ rfl⟩

end Accelrd.Sensors
