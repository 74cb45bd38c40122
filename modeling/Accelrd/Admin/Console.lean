import Mathlib.Tactic
import Accelrd.Calendar
import Accelrd.Library.Binary64
import Accelrd.Library.Markup

/-!
`static/admin/js/app.js`, `renderLogs`: the markup that the console makes of log entries,
which any sender of telemetry may have written.

* `renderLogs`: the code. The case mappings of Unicode are a parameter, `CaseMapping`.
* `delimiters_renderLogs`: which markup delimiters end up on the page.
* `sameMarkup_iff`: when two lists of entries yield the same delimiters.
-/

namespace Accelrd.Admin

open Decimal Gregorian Markup

/-! ### The code -/

/-- What `escapeHTML` replaces. -/
def htmlEntity : Char → Option String
  | '&' => some "&amp;"
  | '<' => some "&lt;"
  | '>' => some "&gt;"
  | '"' => some "&quot;"
  | '\'' => some "&#39;"
  | _ => none

/-- `escapeHTML`. -/
def escapeHTML (s : String) : String := escape htmlEntity s

/-- `toLowerCase` and `toUpperCase`. In the data of Unicode no markup delimiter has a
lowercase mapping, and no lowercase mapping yields one. -/
structure CaseMapping where
  toLowerCase : String → String
  toUpperCase : String → String
  delimiters_toLowerCase : ∀ s, delimiters (toLowerCase s) = delimiters s

/-- A log entry. The timestamp is a whole number, which the script reads as a double. -/
structure LogEntry where
  timestampNs : Option ℤ
  level : Option String
  serviceName : Option String
  body : Option String

/-- `s || d`: the empty string counts as missing. -/
def textOr (s : Option String) (d : String) : String :=
  match s with
  | none => d
  | some s => if s = "" then d else s

/-- `Date.prototype.toISOString`, of `ms` milliseconds since 1970: years that do not have
four digits are written with a sign and six. -/
def toISOString (ms : ℤ) : List Char :=
  let date := Accelrd.Time.dateOf (ms / 86400000)
  let year :=
    if 0 ≤ date.year ∧ date.year ≤ 9999 then zeroPad 4 date.year.natAbs
    else (if date.year < 0 then '-' else '+') :: zeroPad 6 date.year.natAbs
  year ++ '-' :: (zeroPad 2 date.month ++ '-' :: (zeroPad 2 date.day ++ 'T' ::
    (zeroPad 2 (ms / 3600000 % 24).toNat ++ ':' :: (zeroPad 2 (ms / 60000 % 60).toNat ++ ':' ::
      (zeroPad 2 (ms / 1000 % 60).toNat ++ '.' :: (zeroPad 3 (ms % 1000).toNat ++ ['Z']))))))

/-- `String.prototype.replace` of a character by a text, where it first occurs. -/
def replaceFirst (c : Char) (r : List Char) : List Char → List Char
  | [] => []
  | x :: xs => if x = c then r ++ xs else x :: replaceFirst c r xs

/-- The farthest from 1970 that a `Date` can be, in milliseconds. -/
def maxTimeMs : ℕ := 8640000000000000

/-- The time of a `Date`, in milliseconds; none if it is no number or out of range. -/
def timeClip (time : Binary64) : Option ℤ :=
  if time.isSpecial ∨ maxTimeMs * 2 ^ 1074 < time.magnitude then none else some time.trunc

/-- `Number(l.timestamp_ns) / 1e6`. -/
def timestampMs (ns : ℤ) : Binary64 := (Binary64.ofInt ns).divNat 1000000

/-- The text of a timestamp; `toISOString` throws for a time that is out of range. -/
def timestampText (timestampNs : Option ℤ) : Except String String :=
  match timestampNs with
  | none => .ok "—"
  | some ns =>
      if ns = 0 then .ok "—"
      else
        match timeClip (timestampMs ns) with
        | some ms => .ok (String.ofList (replaceFirst 'Z' [] (replaceFirst 'T' [' ']
            (toISOString ms))))
        | none => .error "Invalid time value"

section Page

variable (unicode : CaseMapping)

/-- The `div` of an entry whose timestamp has this text. -/
def LogEntry.div (e : LogEntry) (ts : String) : String :=
  let lvl := unicode.toLowerCase (textOr e.level "info")
  let svc := if textOr e.serviceName "" = "" then "" else "[" ++ textOr e.serviceName "" ++ "] "
  "<div class=\"log-entry\">\n\t\t\t\t\t<span class=\"ts\">" ++ escapeHTML ts ++
    "</span>\n\t\t\t\t\t<span class=\"lvl " ++ lvl ++ "\">" ++
    escapeHTML (unicode.toUpperCase lvl) ++
    "</span>\n\t\t\t\t\t<span class=\"body\">" ++ escapeHTML (svc ++ textOr e.body "") ++
    "</span>\n\t\t\t\t</div>"

/-- The markup of all entries. -/
def logEntries (logs : List LogEntry) : Except String String :=
  if logs.isEmpty then .ok "<p class=\"placeholder\">No logs</p>"
  else
    (logs.mapM fun e => (timestampText e.timestampNs).map (e.div unicode)).map String.join

/-- `renderLogs`: what it assigns to `innerHTML`, given the entries or the message of the
error that fetching them has thrown. -/
def renderLogs (fetched : Except String (List LogEntry)) : String :=
  match fetched.bind (logEntries unicode) with
  | .ok html => html
  | .error message => "<p class=\"placeholder\">" ++ escapeHTML message ++ "</p>"

end Page

/-! ### Delimiters on the page -/

lemma delimiters_escapeHTML (s : String) : delimiters (escapeHTML s) = [] := by
  refine delimiters_escape (fun c hc => ?_) (fun c r hr => ?_) s
  · rw [isDelimiter, Bool.or_eq_true, Bool.or_eq_true] at hc
    simp only [decide_eq_true_eq] at hc
    rcases hc with (rfl | rfl) | rfl <;> rfl
  · unfold htmlEntity at hr
    split at hr <;> cases hr <;> decide

/-- The delimiters within a level. -/
def LogEntry.levelDelimiters (e : LogEntry) : List Char := delimiters (textOr e.level "")

/-- The delimiters of the template up to the level. -/
def beforeLevel : List Char := "<\"\"><\"\"><><\"".toList

/-- The delimiters of the template after the level. -/
def afterLevel : List Char := "\"><><\"\"><><>".toList

/-- An entry of which the timestamp is absent or the time of a `Date`. -/
def LogEntry.Dated (e : LogEntry) : Prop :=
  ∀ ns ∈ e.timestampNs, (timeClip (timestampMs ns)).isSome

lemma LogEntry.Dated.exists_text {e : LogEntry} (h : e.Dated) :
    ∃ ts, timestampText e.timestampNs = .ok ts := by
  cases hns : e.timestampNs with
  | none => exact ⟨_, rfl⟩
  | some ns =>
      obtain ⟨ms, hms⟩ := Option.isSome_iff_exists.mp (h ns hns)
      rw [timestampText]
      by_cases hzero : ns = 0
      · exact ⟨_, if_pos hzero⟩
      · rw [if_neg hzero, hms]
        exact ⟨_, rfl⟩

/-- The two roundings do not leave the range: what is in range exactly is dated. -/
lemma LogEntry.dated_of_natAbs_le {e : LogEntry}
    (h : (e.timestampNs.getD 0).natAbs ≤ maxTimeMs * 1000000) : e.Dated := by
  intro ns hns
  rw [hns, Option.getD_some] at h
  obtain ⟨hread, hmag⟩ := Binary64.ofInt_le (Nat.mul_le_mul_right (2 ^ 1074) h)
    (by decide +kernel) (by decide +kernel)
  obtain ⟨hms, hle⟩ : (timestampMs ns).isSpecial = false ∧
      (timestampMs ns).magnitude ≤ maxTimeMs * 2 ^ 1074 :=
    Binary64.divNat_le hread (hmag.trans (by decide +kernel)) (by decide +kernel)
      (by decide +kernel)
  rw [timeClip, if_neg]
  · rfl
  · rw [hms]
    exact fun hout => hout.elim Bool.false_ne_true (not_lt.mpr hle)

/-- Escaped texts add nothing to the delimiters of a template. -/
lemma delimiters_template (a b c d f ts lvl upper body : String) :
    delimiters (a ++ escapeHTML ts ++ b ++ lvl ++ c ++ escapeHTML upper ++ d ++ escapeHTML body ++
      f) =
      frame (delimiters a ++ delimiters b) (delimiters c ++ delimiters d ++ delimiters f)
        (delimiters lvl) := by
  simp only [delimiters_append, delimiters_escapeHTML, List.append_nil, frame, List.append_assoc]

lemma delimiters_level (e : LogEntry) :
    delimiters (textOr e.level "info") = e.levelDelimiters := by
  rw [LogEntry.levelDelimiters]
  cases e.level with
  | none => decide
  | some s =>
      rw [textOr, textOr]
      by_cases hs : s = ""
      · rw [if_pos hs, if_pos hs]
        decide
      · rw [if_neg hs, if_neg hs]

/-- Of the fields of an entry, only the level adds to the delimiters. -/
lemma delimiters_div (unicode : CaseMapping) (e : LogEntry) (ts : String) :
    delimiters (e.div unicode ts) = frame beforeLevel afterLevel e.levelDelimiters := by
  have hbefore : delimiters "<div class=\"log-entry\">\n\t\t\t\t\t<span class=\"ts\">" ++
      delimiters "</span>\n\t\t\t\t\t<span class=\"lvl " = beforeLevel := by decide +kernel
  have hafter : delimiters "\">" ++ delimiters "</span>\n\t\t\t\t\t<span class=\"body\">" ++
      delimiters "</span>\n\t\t\t\t</div>" = afterLevel := by decide +kernel
  unfold LogEntry.div
  dsimp only
  rw [delimiters_template, unicode.delimiters_toLowerCase, delimiters_level, hbefore, hafter]

/-- Entries that are dated all get their `div`. -/
lemma exists_mapM_div (unicode : CaseMapping) {logs : List LogEntry}
    (hdated : ∀ e ∈ logs, e.Dated) :
    ∃ rows, (logs.mapM fun e => (timestampText e.timestampNs).map (e.div unicode)) = .ok rows ∧
      rows.map delimiters =
        (logs.map LogEntry.levelDelimiters).map (frame beforeLevel afterLevel) := by
  induction logs with
  | nil => exact ⟨[], rfl, rfl⟩
  | cons e logs ih =>
      rw [List.forall_mem_cons] at hdated
      obtain ⟨rows, hrows, hdelimiters⟩ := ih hdated.2
      obtain ⟨ts, hts⟩ := hdated.1.exists_text
      refine ⟨e.div unicode ts :: rows, ?_, ?_⟩
      · rw [List.mapM_cons, hts, hrows]
        rfl
      · rw [List.map_cons, hdelimiters, delimiters_div]
        rfl

/-- **The delimiters on the page**: those of the template, once for each entry, and those
within the levels. -/
theorem delimiters_renderLogs (unicode : CaseMapping) {logs : List LogEntry}
    (hdated : ∀ e ∈ logs, e.Dated) (hne : logs ≠ []) :
    delimiters (renderLogs unicode (.ok logs)) =
      (logs.map LogEntry.levelDelimiters).flatMap (frame beforeLevel afterLevel) := by
  obtain ⟨rows, hrows, hdelimiters⟩ := exists_mapM_div unicode hdated
  have hentries : logEntries unicode logs = .ok (String.join rows) := by
    rw [logEntries, if_neg (by simpa using hne), hrows]
    rfl
  have hbind : (Except.ok logs).bind (logEntries unicode) = .ok (String.join rows) := hentries
  have hrender : renderLogs unicode (.ok logs) = String.join rows := by rw [renderLogs, hbind]
  rw [hrender, delimiters_join, List.flatMap_def, hdelimiters, List.flatMap_def]

/-- **When two lists yield the same delimiters**: when those within their levels spell the
same text, with what the template has between them; and where the levels of one list have
none, when those of the other have none. -/
theorem sameMarkup_iff (unicode : CaseMapping) {logs logs' : List LogEntry}
    (hdated : ∀ e ∈ logs ++ logs', e.Dated) (hlen : logs.length = logs'.length) :
    (delimiters (renderLogs unicode (.ok logs)) = delimiters (renderLogs unicode (.ok logs')) ↔
      (afterLevel ++ beforeLevel).intercalate (logs.map LogEntry.levelDelimiters) =
        (afterLevel ++ beforeLevel).intercalate (logs'.map LogEntry.levelDelimiters)) ∧
    ((∀ e ∈ logs, e.levelDelimiters = []) →
      (delimiters (renderLogs unicode (.ok logs)) =
          delimiters (renderLogs unicode (.ok logs')) ↔
        ∀ e ∈ logs', e.levelDelimiters = [])) := by
  obtain ⟨hlogs, hlogs'⟩ := List.forall_mem_append.mp hdated
  by_cases hnil : logs = []
  · obtain rfl : logs' = [] := List.length_eq_zero_iff.mp (by rw [← hlen, hnil]; rfl)
    simp [hnil]
  · have hnil' : logs' ≠ [] := fun h => hnil (List.length_eq_zero_iff.mp (by rw [hlen, h]; rfl))
    have hlevels : (logs.map LogEntry.levelDelimiters).length =
        (logs'.map LogEntry.levelDelimiters).length := by
      rw [List.length_map, List.length_map, hlen]
    rw [delimiters_renderLogs unicode hlogs hnil, delimiters_renderLogs unicode hlogs' hnil']
    refine ⟨flatMap_frame_eq_iff _ _ hlevels, fun hclean => ?_⟩
    rw [flatMap_frame_eq_iff_of_blank _ _ hlevels (List.forall_mem_map.mpr hclean),
      List.forall_mem_map]

lemma toLower_of_isDelimiter {c : Char} (hc : isDelimiter c) : c.toLower = c := by
  rw [isDelimiter, Bool.or_eq_true, Bool.or_eq_true] at hc
  simp only [decide_eq_true_eq] at hc
  rcases hc with (rfl | rfl) | rfl <;> rfl

lemma isDelimiter_toLower (c : Char) : isDelimiter c.toLower = isDelimiter c := by
  by_cases h : 'A'.val ≤ c.val ∧ c.val ≤ 'Z'.val
  · delta Char.toLower
    rw [dif_pos h]
    simp only [isDelimiter, Char.ext_iff]
    grind [UInt32.toNat_add, Char.toNat_val, UInt32.le_iff_toNat_le]
  · delta Char.toLower
    rw [dif_neg h]

/-- The case mappings of ASCII. -/
def asciiCase : CaseMapping where
  toLowerCase s := s.map Char.toLower
  toUpperCase s := s.map Char.toUpper
  delimiters_toLowerCase := delimiters_map isDelimiter_toLower fun _ => toLower_of_isDelimiter

/-- An entry as a program writes it. -/
def plainEntry : LogEntry where
  timestampNs := some 1778157296000000000
  level := some "WARN"
  serviceName := some "accelrd"
  body := some "temp <b>91</b>"

/-- An entry with a level that ends the attribute and the tag. -/
def forgedEntry : LogEntry where
  timestampNs := none
  level := some "\"><img src=x onerror=alert(1)>"
  serviceName := none
  body := none

/-- Plain entries yield the same delimiters. -/
theorem sameMarkup_plain :
    (∀ e ∈ [plainEntry], e.levelDelimiters = []) ∧
    delimiters (renderLogs asciiCase (.ok [plainEntry])) =
      delimiters (renderLogs asciiCase (.ok [{ plainEntry with level := none }])) := by
  have hdated : ∀ e ∈ [plainEntry] ++ [{ plainEntry with level := none }], e.Dated :=
    fun e he => LogEntry.dated_of_natAbs_le
      ((by decide : ∀ e ∈ [plainEntry] ++ [{ plainEntry with level := none }],
        (e.timestampNs.getD 0).natAbs ≤ maxTimeMs * 1000000) e he)
  have hclean : ∀ e ∈ [plainEntry], e.levelDelimiters = [] := by decide +kernel
  exact ⟨hclean, ((sameMarkup_iff asciiCase hdated rfl).2 hclean).mpr (by decide +kernel)⟩

/-- The forged entry opens a tag of its own. -/
theorem forgedEntry_opens_tag :
    [plainEntry].length = [forgedEntry].length ∧ (∀ e ∈ [plainEntry] ++ [forgedEntry], e.Dated) ∧
    delimiters (renderLogs asciiCase (.ok [plainEntry])) ≠
      delimiters (renderLogs asciiCase (.ok [forgedEntry])) := by
  have hdated : ∀ e ∈ [plainEntry] ++ [forgedEntry], e.Dated := fun e he =>
    LogEntry.dated_of_natAbs_le ((by decide : ∀ e ∈ [plainEntry] ++ [forgedEntry],
      (e.timestampNs.getD 0).natAbs ≤ maxTimeMs * 1000000) e he)
  obtain ⟨hplain, hforged⟩ := List.forall_mem_append.mp hdated
  refine ⟨rfl, hdated, ?_⟩
  rw [delimiters_renderLogs asciiCase hplain (List.cons_ne_nil _ _),
    delimiters_renderLogs asciiCase hforged (List.cons_ne_nil _ _)]
  decide +kernel

end Accelrd.Admin
