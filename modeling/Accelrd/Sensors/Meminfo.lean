import Mathlib.Tactic
import Accelrd.Library.Insertions
import Accelrd.Library.Words
import Accelrd.Sensors.Host

/-!
`/proc/meminfo` as the kernel writes it, and what `parse_meminfo_str` of
`src/sensors/host.rs` makes of it.

* `MemField`, `renderMeminfo`: the fields of the file, and its text.
* `meminfoEntry_line`: one line is read back as the name of the field and its bytes.
* `getElem?_parseMeminfoStr`: the file is read back; of two fields with one name the later
  one counts.
-/

namespace Accelrd.Sensors

open Std

/-- A field of `/proc/meminfo`: its name, the column it is moved to, its number, and whether
that is in kilobytes. -/
structure MemField where
  name : String
  pad : ℕ
  value : ℕ
  inKb : Bool
  no_colon : ':' ∉ name.toList
  no_space : ∀ c ∈ name.toList, Text.isWhitespace c = false
  value_lt : value < 2 ^ 64

namespace MemField

/-- The unit as it is written. -/
def unit (f : MemField) : List Char := if f.inKb then [' ', 'k', 'B'] else []

/-- What follows the colon. -/
def rest (f : MemField) : List Char :=
  List.replicate f.pad ' ' ++ ((toString f.value).toList ++ f.unit)

/-- The line of a field. -/
def line (f : MemField) : List Char := f.name.toList ++ ':' :: f.rest

/-- The bytes of a field, as far as the type can count. -/
def bytes (f : MemField) : ℕ := if f.inKb then min (f.value * 1024) (2 ^ 64 - 1) else f.value

/-- The text of the file. -/
def renderMeminfo (fields : List MemField) : String :=
  String.ofList (fields.flatMap fun f => f.line ++ ['\n'])

/-! ### One line -/

lemma words_replicate (n : ℕ) (cs : List Char) :
    Text.words Text.isWhitespace (List.replicate n ' ' ++ cs) =
      Text.words Text.isWhitespace cs := by
  induction n with
  | zero => rfl
  | succ n ih => rw [List.replicate_succ, List.cons_append, Text.words_cons (by decide), ih]

lemma no_space_value (f : MemField) :
    ∀ c ∈ (toString f.value).toList, Text.isWhitespace c = false := fun _ hc =>
  Text.isWhitespace_of_isDigit (Text.isDigit_of_mem_toString hc)

lemma value_ne_nil (f : MemField) : (toString f.value).toList ≠ [] := by
  rw [Text.toList_toString]
  exact Nat.toDigits_ne_nil

/-- The words behind the colon: the number, and the unit if there is one. -/
lemma words_rest (f : MemField) :
    Text.words Text.isWhitespace f.rest =
      (toString f.value).toList :: if f.inKb then [['k', 'B']] else [] := by
  rw [rest, words_replicate, unit]
  cases f.inKb with
  | true =>
      rw [if_pos rfl, if_pos rfl, Text.words_append_cons (by decide),
        Text.words_eq_singleton f.value_ne_nil f.no_space_value]
      rfl
  | false =>
      rw [if_neg (by simp), if_neg (by simp), List.append_nil,
        Text.words_eq_singleton f.value_ne_nil f.no_space_value]

lemma splitColon_line (f : MemField) : Host.splitColon f.line = some (f.name.toList, f.rest) :=
  Text.splitOnce_append f.no_colon f.rest

/-- **A line is read back**. -/
lemma meminfoEntry_line (f : MemField) : Host.meminfoEntry f.line = some (f.name, f.bytes) := by
  have hname : String.ofList (Text.trim f.name.toList) = f.name := by
    rw [Text.trim_eq_self_of_forall f.no_space, String.ofList_toList]
  rw [Host.meminfoEntry, f.splitColon_line]
  simp only [Option.bind_eq_bind, Option.bind_some, f.words_rest, List.head?_cons,
    Text.parseUnsigned_toString f.value_lt, hname, bytes]
  cases f.inKb with
  | true => rfl
  | false =>
      refine congrArg (fun n => some (f.name, n)) ?_
      change min (f.value * 1) (2 ^ 64 - 1) = f.value
      rw [mul_one, min_eq_left (Nat.le_sub_one_of_lt f.value_lt)]

/-! ### The file -/

lemma newline_notMem_line (f : MemField) : '\n' ∉ f.line := by
  have hspace (cs : List Char) (h : ∀ c ∈ cs, Text.isWhitespace c = false) : '\n' ∉ cs :=
    fun hmem => absurd (h _ hmem) (by decide)
  have hunit : '\n' ∉ f.unit := by
    rw [unit]
    split_ifs <;> decide
  rw [line, rest]
  simp only [List.mem_append, List.mem_cons, List.mem_replicate, not_or]
  exact ⟨hspace _ f.no_space, by decide, fun h => absurd h.2 (by decide),
    hspace _ f.no_space_value, hunit⟩

lemma getLast?_line (f : MemField) : f.line.getLast? ≠ some '\r' := by
  have hne : (toString f.value).toList ++ f.unit ≠ [] := fun hnil =>
    f.value_ne_nil (List.append_eq_nil_iff.mp hnil).1
  rw [line, rest, ← List.cons_append, ← List.append_assoc, List.getLast?_append_of_ne_nil _ hne]
  intro hlast
  have hmem := List.mem_of_getLast? hlast
  rcases List.mem_append.mp hmem with h | h
  · exact absurd (f.no_space_value _ h) (by decide)
  · rw [unit] at h
    split_ifs at h <;> revert h <;> decide

lemma lines_renderMeminfo (fields : List MemField) :
    Text.lines (renderMeminfo fields).toList = fields.map line := by
  rw [renderMeminfo, String.toList_ofList]
  induction fields with
  | nil => rfl
  | cons f fields ih =>
      rw [List.flatMap_cons, List.append_assoc, List.singleton_append,
        Text.lines_append f.newline_notMem_line f.getLast?_line, ih, List.map_cons]

/-- What is read are the entries of the fields. -/
lemma parseMeminfoStr_renderMeminfo (fields : List MemField) :
    Host.parseMeminfoStr (renderMeminfo fields) =
      ExtTreeMap.ofList (fields.map fun f => (f.name, f.bytes)) := by
  have hentry : Host.meminfoEntry ∘ line = fun f => some (f.name, f.bytes) :=
    funext meminfoEntry_line
  have hentries : fields.filterMap (fun f => some (f.name, f.bytes)) =
      fields.map fun f => (f.name, f.bytes) := congrFun List.filterMap_eq_map fields
  rw [Host.parseMeminfoStr, lines_renderMeminfo, List.filterMap_map, hentry, hentries]

/-- The bytes of a field of the file, of the last one if there are several. -/
def lastBytes (fields : List MemField) (name : String) : Option ℕ :=
  ((fields.filter (·.name = name)).getLast?).map bytes

/-- **`/proc/meminfo` is read back**: for every list of fields, however they are moved to
their columns, the parser finds the bytes of each field under its name, and nothing under
the other names. -/
theorem getElem?_parseMeminfoStr (fields : List MemField) (name : String) :
    (Host.parseMeminfoStr (renderMeminfo fields))[name]? = lastBytes fields name := by
  rw [parseMeminfoStr_renderMeminfo]
  induction fields using List.reverseRecOn with
  | nil => simp [lastBytes]
  | append_singleton fields f ih =>
      rw [List.map_append, Insertions.getElem?_ofList_append, ih, List.map_singleton,
        ExtTreeMap.ofList_singleton, ExtTreeMap.getElem?_insert, lastBytes, lastBytes,
        List.filter_append]
      by_cases hname : f.name = name
      · rw [if_pos (by rw [hname]; exact compare_self), List.filter_singleton]
        simp [hname]
      · rw [if_neg (by rwa [Std.compare_eq_iff_eq]), List.filter_singleton]
        simp [hname]

/-- A table with a field in kilobytes, a field without a unit, and a field that stands there
twice. -/
theorem getElem?_parseMeminfoStr_table :
    let table := "MemAvailable:   493216380 kB\nHugePages_Total:       3\nSwapFree: 7 kB\n" ++
      "SwapFree: 8388604 kB\n"
    (Host.parseMeminfoStr table)["MemAvailable"]? = some 505053573120 ∧
      (Host.parseMeminfoStr table)["HugePages_Total"]? = some 3 ∧
      (Host.parseMeminfoStr table)["SwapFree"]? = some 8589930496 ∧
      (Host.parseMeminfoStr table)["MemTotal"]? = none := by
  intro table
  obtain ⟨fields, htable, hbytes⟩ : ∃ fields : List MemField, renderMeminfo fields = table ∧
      lastBytes fields "MemAvailable" = some 505053573120 ∧
      lastBytes fields "HugePages_Total" = some 3 ∧
      lastBytes fields "SwapFree" = some 8589930496 ∧ lastBytes fields "MemTotal" = none :=
    ⟨[⟨"MemAvailable", 3, 493216380, true, by decide,
        Text.not_separates_of_all (by decide), by decide⟩,
      ⟨"HugePages_Total", 7, 3, false, by decide,
        Text.not_separates_of_all (by decide), by decide⟩,
      ⟨"SwapFree", 1, 7, true, by decide,
        Text.not_separates_of_all (by decide), by decide⟩,
      ⟨"SwapFree", 1, 8388604, true, by decide,
        Text.not_separates_of_all (by decide), by decide⟩],
      by decide +kernel, by decide +kernel⟩
  simpa only [← htable, getElem?_parseMeminfoStr] using hbytes

end MemField

end Accelrd.Sensors
