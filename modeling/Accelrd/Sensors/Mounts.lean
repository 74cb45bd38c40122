import Mathlib.Tactic
import Accelrd.Library.Words

/-!
`parse_mountinfo` of `src/sensors/host.rs`: the mount points of the disks, from the table of
mounts that the kernel keeps in `/proc/self/mountinfo`.

* `parseMountinfo`: the code.
* `Mount`, `renderMounts`: the table, as the kernel writes it.
* `parseMountinfo_renderMounts`: what is read of a table, mount by mount.
* `decodes_iff`: when that is the list of the mount points of the disks.
-/

namespace Accelrd.Sensors

/-! ### The code -/

/-- `REAL_FILESYSTEMS`. -/
def realFilesystems : List String := ["ext4", "xfs", "btrfs", "zfs", "f2fs", "ext3", "ext2"]

/-- `split_whitespace`. -/
def tokens (cs : List Char) : List String := (Text.words Text.isWhitespace cs).map String.ofList

/-- The word behind the separator, empty if there is none. -/
def fsTypeOf (parts : List String) : Option String :=
  match parts.dropWhile (· ≠ "-") with
  | [] => none
  | _ :: after => some (after.head?.getD "")

/-- The mount point of a line, for one of the file systems above. -/
def mountPointOf (line : List Char) : Option String :=
  let parts := tokens line
  match fsTypeOf parts with
  | none => none
  | some fsType => if fsType ∈ realFilesystems then parts[4]? else none

/-- The words that are the first of their kind. -/
def firstMounts (seen : List String) : List String → List String
  | [] => []
  | m :: ms => if m ∈ seen then firstMounts seen ms else m :: firstMounts (m :: seen) ms

/-- `parse_mountinfo`. -/
def parseMountinfo (content : String) : List String :=
  firstMounts [] ((Text.lines content.toList).filterMap mountPointOf)

/-- No path is listed twice. -/
lemma firstMounts_spec (seen ms : List String) :
    (firstMounts seen ms).Nodup ∧ ∀ m ∈ firstMounts seen ms, m ∉ seen := by
  induction ms generalizing seen with
  | nil => exact ⟨List.nodup_nil, List.forall_mem_nil _⟩
  | cons m ms ih =>
      rw [firstMounts]
      split_ifs with hm
      · exact ih seen
      · obtain ⟨hnodup, hnew⟩ := ih (m :: seen)
        refine ⟨List.nodup_cons.mpr ⟨fun h => hnew m h List.mem_cons_self, hnodup⟩, ?_⟩
        exact List.forall_mem_cons.mpr
          ⟨hm, fun x hx hseen => hnew x hx (List.mem_cons_of_mem m hseen)⟩

lemma nodup_parseMountinfo (content : String) : (parseMountinfo content).Nodup :=
  (firstMounts_spec [] _).1

/-! ### The table of the kernel -/

/-- A character that the kernel escapes in a path. -/
def isEscaped (c : Char) : Bool := c = ' ' || c = '\t' || c = '\n' || c = '\\'

/-- A character of a path as the kernel writes it. -/
def escapeChar (c : Char) : List Char :=
  if c = ' ' then "\\040".toList
  else if c = '\t' then "\\011".toList
  else if c = '\n' then "\\012".toList
  else if c = '\\' then "\\134".toList
  else [c]

/-- A path as the kernel writes it. -/
def escapePath (path : String) : String := String.ofList (path.toList.flatMap escapeChar)

/-- A field that is one word. -/
structure Word where
  text : String
  ne_empty : text ≠ ""
  no_space : ∀ c ∈ text.toList, Text.isWhitespace c = false

/-- A field in front of the separator. -/
structure Field extends Word where
  ne_separator : text ≠ "-"

/-- A mount. -/
structure Mount where
  id : ℕ
  parent : ℕ
  major : ℕ
  minor : ℕ
  root : String
  mountPoint : String
  options : Field
  optional : List Field
  fsType : Word
  source : String
  superOptions : Word
  root_absolute : root.toList.head? = some '/'
  absolute : mountPoint.toList.head? = some '/'
  source_line : '\n' ∉ source.toList

/-- The fields of a mount, in the order of its line. -/
def Mount.fields (m : Mount) : List String :=
  [toString m.id, toString m.parent, toString m.major ++ ":" ++ toString m.minor,
    escapePath m.root, escapePath m.mountPoint, m.options.text] ++
  m.optional.map (·.text) ++ ["-", m.fsType.text, m.source, m.superOptions.text]

/-- The line of a mount. -/
def Mount.line (m : Mount) : List Char := List.intercalate [' '] (m.fields.map String.toList)

/-- `/proc/self/mountinfo`. -/
def renderMounts (mounts : List Mount) : String :=
  String.ofList (mounts.flatMap fun m => m.line ++ ['\n'])

/-- The mount point of a mount, for one of the file systems that count. -/
def Mount.realPath (m : Mount) : Option String :=
  if m.fsType.text ∈ realFilesystems then some m.mountPoint else none

/-! ### What is read of a mount -/

/-- The words that the paths of a mount are written as. -/
def Mount.pieces (m : Mount) : List String :=
  tokens (escapePath m.root).toList ++ tokens (escapePath m.mountPoint).toList

/-- The paths of a mount let it pass for a disk: it is one and no word of them is a dash, or a
file system that counts is the word behind the first dash in them. -/
def Mount.PassesForDisk (m : Mount) : Prop :=
  ("-" ∉ m.pieces ∧ m.fsType.text ∈ realFilesystems) ∨
    ∃ before fsType after, m.pieces ++ [m.options.text] = before ++ "-" :: fsType :: after ∧
      "-" ∉ before ∧ fsType ∈ realFilesystems

open Classical in
/-- What a mount is taken for: the second of the words of its paths. -/
noncomputable def Mount.shown (m : Mount) : Option String :=
  if m.PassesForDisk then m.pieces[1]? else none

/-- A text without white space is one word. -/
lemma tokens_eq_singleton {s : String} (hne : s ≠ "")
    (h : ∀ c ∈ s.toList, Text.isWhitespace c = false) : tokens s.toList = [s] := by
  have hne' : s.toList ≠ [] := fun hnil => hne (String.toList_eq_nil_iff.mp hnil)
  rw [tokens, Text.words_eq_singleton hne' h, List.map_singleton, String.ofList_toList]

lemma Word.tokens (w : Word) : tokens w.text.toList = [w.text] :=
  tokens_eq_singleton w.ne_empty w.no_space

lemma no_space_toString (n : ℕ) : ∀ c ∈ (toString n).toList, Text.isWhitespace c = false :=
  fun _ hc => Text.isWhitespace_of_isDigit (Text.isDigit_of_mem_toString hc)

lemma tokens_toString (n : ℕ) : tokens (toString n).toList = [toString n] :=
  tokens_eq_singleton Nat.repr_ne_empty (no_space_toString n)

lemma tokens_device (m : Mount) :
    tokens (toString m.major ++ ":" ++ toString m.minor).toList =
      [toString m.major ++ ":" ++ toString m.minor] := by
  refine tokens_eq_singleton ?_ ?_
  · intro h
    exact Nat.repr_ne_empty (String.append_eq_empty_iff.mp (String.append_eq_empty_iff.mp h).1).1
  · rw [String.toList_append, String.toList_append, List.forall_mem_append, List.forall_mem_append]
    exact ⟨⟨no_space_toString _, Text.not_separates_of_all (by decide)⟩, no_space_toString _⟩

/-- The words of a line. -/
lemma tokens_line (m : Mount) :
    tokens m.line =
      [toString m.id, toString m.parent, toString m.major ++ ":" ++ toString m.minor] ++
        (m.pieces ++ (m.options.text :: m.optional.map (·.text)) ++ "-" :: m.fsType.text ::
          (tokens m.source.toList ++ [m.superOptions.text])) := by
  have hfields : tokens m.line = m.fields.flatMap fun field => tokens field.toList := by
    rw [tokens, Mount.line, Text.words_intercalate (by decide), List.flatMap_map, List.map_flatMap]
    rfl
  have hoptional : (m.optional.map (·.text)).flatMap (fun field => tokens field.toList) =
      m.optional.map (·.text) := by
    induction m.optional with
    | nil => rfl
    | cons field optional ih =>
        rw [List.map_cons, List.flatMap_cons, ih, field.toWord.tokens, List.singleton_append]
  have hdash : tokens "-".toList = ["-"] := by decide
  rw [hfields, Mount.fields, List.flatMap_append, List.flatMap_append, hoptional]
  simp only [List.flatMap_cons, List.flatMap_nil, tokens_toString, tokens_device, Word.tokens,
    hdash, Mount.pieces, List.append_assoc, List.cons_append,
    List.nil_append, List.append_nil]

/-- A separator that comes later does not matter. -/
lemma fsTypeOf_append_of_not_mem {xs : List String} (h : "-" ∉ xs) (ys : List String) :
    fsTypeOf (xs ++ ys) = fsTypeOf ys := by
  induction xs with
  | nil => rfl
  | cons x xs ih =>
      obtain ⟨hx, hxs⟩ := not_or.mp (mt List.mem_cons.mpr h)
      rw [← ih hxs, List.cons_append, fsTypeOf,
        List.dropWhile_cons_of_pos (by simpa using Ne.symm hx)]
      rfl

lemma fsTypeOf_append_cons (xs ys : List String) (t : String) :
    fsTypeOf (xs ++ "-" :: t :: ys) = fsTypeOf (xs ++ ["-", t]) := by
  induction xs with
  | nil => rfl
  | cons x xs ih =>
      by_cases hx : x = "-"
      · subst hx
        cases xs <;> rfl
      · have hstep (zs : List String) : fsTypeOf (x :: zs) = fsTypeOf zs :=
          @fsTypeOf_append_of_not_mem [x] (by simpa using Ne.symm hx) zs
        rw [List.cons_append, List.cons_append, hstep, hstep, ih]

lemma toString_ne_dash (n : ℕ) : toString n ≠ "-" := by
  intro h
  have hdash : '-' ∈ (toString n).toList := by rw [h]; decide
  exact absurd (Text.isDigit_of_mem_toString hdash) (by decide)

/-- A path is written with its first character in front. -/
lemma exists_escapePath_eq {path : String} (h : path.toList.head? = some '/') :
    ∃ cs, (escapePath path).toList = '/' :: cs := by
  rw [escapePath, String.toList_ofList]
  cases hpath : path.toList with
  | nil =>
      rw [hpath] at h
      exact absurd h (by simp)
  | cons c cs =>
      rw [hpath, List.head?_cons] at h
      obtain rfl := Option.some.inj h
      exact ⟨cs.flatMap escapeChar, rfl⟩

/-- A path begins with a word. -/
lemma exists_tokens_escapePath {path : String} (h : path.toList.head? = some '/') :
    ∃ w ws, tokens (escapePath path).toList = w :: ws := by
  obtain ⟨cs, hcs⟩ := exists_escapePath_eq h
  obtain ⟨w, ws, hwords⟩ := @Text.exists_words_cons Text.isWhitespace '/' (by decide) cs
  refine ⟨String.ofList ('/' :: w), ws.map String.ofList, ?_⟩
  rw [tokens, hcs, hwords, List.map_cons]

/-- The word that the reader finds behind a dash. -/
lemma passesForDisk_iff (m : Mount) :
    m.PassesForDisk ↔ ∃ fsType ∈ realFilesystems, fsTypeOf (m.pieces ++
      m.options.text :: m.optional.map (·.text) ++ ["-", m.fsType.text]) = some fsType := by
  have hoptions : "-" ∉ m.options.text :: m.optional.map (·.text) := by
    simp only [List.mem_cons, List.mem_map, not_or, not_exists, not_and]
    exact ⟨m.options.ne_separator.symm, fun field _ => field.ne_separator⟩
  have hregroup : m.pieces ++ m.options.text :: m.optional.map (·.text) ++ ["-", m.fsType.text] =
      m.pieces ++ [m.options.text] ++ (m.optional.map (·.text) ++ ["-", m.fsType.text]) := by
    simp
  constructor
  · rintro (⟨hpieces, hreal⟩ | ⟨before, fsType, after, heq, hbefore, hreal⟩)
    · refine ⟨_, hreal, fsTypeOf_append_of_not_mem ?_ _⟩
      exact List.mem_append.not.mpr (not_or.mpr ⟨hpieces, hoptions⟩)
    · refine ⟨fsType, hreal, ?_⟩
      rw [hregroup, heq, List.append_assoc, fsTypeOf_append_of_not_mem hbefore]
      rfl
  · rintro ⟨fsType, hreal, heq⟩
    by_cases hpieces : "-" ∈ m.pieces
    · obtain ⟨before, after, hsplit, hbefore⟩ := List.eq_append_cons_of_mem hpieces
      -- the options come behind the paths, so that a word follows the dash
      obtain ⟨next, rest, hnext⟩ := List.exists_cons_of_ne_nil
        (List.append_ne_nil_of_right_ne_nil after (List.cons_ne_nil m.options.text []))
      have hpassed : m.pieces ++ [m.options.text] = before ++ "-" :: next :: rest := by
        rw [hsplit, List.append_assoc, List.cons_append, hnext]
      refine Or.inr ⟨before, next, rest, hpassed, hbefore, ?_⟩
      rw [hregroup, hpassed, List.append_assoc, fsTypeOf_append_of_not_mem hbefore] at heq
      obtain rfl : next = fsType := Option.some.inj heq
      exact hreal
    · rw [fsTypeOf_append_of_not_mem
        (List.mem_append.not.mpr (not_or.mpr ⟨hpieces, hoptions⟩))] at heq
      obtain rfl : m.fsType.text = fsType := Option.some.inj heq
      exact Or.inl ⟨hpieces, hreal⟩

/-- What is read of the line of a mount. -/
lemma mountPointOf_line (m : Mount) : mountPointOf m.line = m.shown := by
  obtain ⟨w, ws, hroot⟩ := exists_tokens_escapePath m.root_absolute
  obtain ⟨v, vs, hmount⟩ := exists_tokens_escapePath m.absolute
  have hfifth : (tokens m.line)[4]? = m.pieces[1]? := by
    have hpieces : 1 < m.pieces.length := by
      rw [Mount.pieces, hroot, hmount, List.length_append, List.length_cons, List.length_cons]
      omega
    rw [tokens_line, List.append_assoc m.pieces, List.getElem?_append_right (by simp)]
    exact List.getElem?_append_left hpieces
  have hnumbers : "-" ∉ [toString m.id, toString m.parent,
      toString m.major ++ ":" ++ toString m.minor] := by
    have hdevice : "-" ≠ toString m.major ++ ":" ++ toString m.minor := by
      intro h
      have hmem : ':' ∈ "-".toList := by
        rw [h, String.toList_append, String.toList_append]
        simp
      exact absurd hmem (by decide)
    simp only [List.mem_cons, List.not_mem_nil, or_false, not_or]
    exact ⟨(toString_ne_dash _).symm, (toString_ne_dash _).symm, hdevice⟩
  have htype : fsTypeOf (tokens m.line) = fsTypeOf (m.pieces ++
      m.options.text :: m.optional.map (·.text) ++ ["-", m.fsType.text]) := by
    rw [tokens_line, fsTypeOf_append_of_not_mem hnumbers, fsTypeOf_append_cons]
  have hpasses := passesForDisk_iff m
  rw [mountPointOf, htype, hfifth, Mount.shown]
  cases hword : fsTypeOf (m.pieces ++
      m.options.text :: m.optional.map (·.text) ++ ["-", m.fsType.text]) with
  | none =>
      rw [hword] at hpasses
      rw [if_neg (by simp [hpasses])]
  | some fsType =>
      have hiff : m.PassesForDisk ↔ fsType ∈ realFilesystems := by
        rw [hpasses, hword]
        simp
      dsimp only
      split_ifs with hreal hdisk hdisk
      · rfl
      · exact absurd (hiff.mpr hreal) hdisk
      · exact absurd (hiff.mp hdisk) hreal
      · rfl

/-! ### The table, line by line -/

/-- White space is left only where it was in the path. -/
lemma eq_of_mem_escapeChar {c d : Char} (hspace : Text.isWhitespace c) (h : c ∈ escapeChar d) :
    c = d ∧ isEscaped d = false := by
  have hcode {code : List Char} (hplain : code.all (!Text.isWhitespace ·)) (h : c ∈ code) :
      ¬Text.isWhitespace c := by
    rw [Text.not_separates_of_all hplain c h]
    exact Bool.false_ne_true
  rw [escapeChar] at h
  split_ifs at h with hblank htab hnewline hbackslash
  · exact absurd hspace (hcode (by decide) h)
  · exact absurd hspace (hcode (by decide) h)
  · exact absurd hspace (hcode (by decide) h)
  · exact absurd hspace (hcode (by decide) h)
  · exact ⟨List.mem_singleton.mp h, by simp [isEscaped, hblank, htab, hnewline, hbackslash]⟩

lemma mem_escapePath {c : Char} {path : String} (hspace : Text.isWhitespace c)
    (h : c ∈ (escapePath path).toList) : c ∈ path.toList ∧ isEscaped c = false := by
  rw [escapePath, String.toList_ofList] at h
  obtain ⟨d, hd, hc⟩ := List.mem_flatMap.mp h
  obtain ⟨rfl, hescaped⟩ := eq_of_mem_escapeChar hspace hc
  exact ⟨hd, hescaped⟩

lemma newline_not_mem_line (m : Mount) : '\n' ∉ m.line := by
  have hword (w : Word) : '\n' ∉ w.text.toList := fun h => absurd (w.no_space _ h) (by decide)
  have hnumber (n : ℕ) : '\n' ∉ (toString n).toList := fun h =>
    absurd (no_space_toString n _ h) (by decide)
  have hpath (path : String) : '\n' ∉ (escapePath path).toList := fun h =>
    absurd (mem_escapePath (by decide) h).2 (by decide)
  have hfields : ∀ field ∈ m.fields, '\n' ∉ field.toList := by
    simp only [Mount.fields, List.forall_mem_append, List.forall_mem_cons, List.forall_mem_map,
      List.not_mem_nil, false_imp_iff, implies_true, and_true]
    refine ⟨⟨⟨hnumber _, hnumber _, ?_, hpath _, hpath _, hword _⟩, fun field _ => hword _⟩,
      by decide, hword _, m.source_line, hword _⟩
    rw [String.toList_append, String.toList_append, List.mem_append, List.mem_append]
    rintro ((h | h) | h)
    · exact hnumber _ h
    · exact absurd h (by decide)
    · exact hnumber _ h
  intro h
  obtain h | ⟨field, hfield, hmem⟩ := Text.mem_intercalate h
  · exact absurd h (by decide)
  · obtain ⟨text, htext, rfl⟩ := List.mem_map.mp hfield
    exact hfields text htext hmem

lemma getLast?_line (m : Mount) : m.line.getLast? ≠ some '\r' := by
  have hsplit : ∃ texts, m.fields.map String.toList = texts ++ [m.superOptions.text.toList] :=
    ⟨([toString m.id, toString m.parent, toString m.major ++ ":" ++ toString m.minor,
      escapePath m.root, escapePath m.mountPoint, m.options.text] ++
      m.optional.map (·.text) ++ ["-", m.fsType.text, m.source]).map String.toList, by
        simp [Mount.fields]⟩
  obtain ⟨texts, htexts⟩ := hsplit
  obtain ⟨front, hfront⟩ := Text.exists_intercalate_concat [' '] texts m.superOptions.text.toList
  have hne : m.superOptions.text.toList ≠ [] := fun hnil =>
    m.superOptions.ne_empty (String.toList_eq_nil_iff.mp hnil)
  intro hlast
  rw [Mount.line, htexts, hfront, List.getLast?_append_of_ne_nil _ hne] at hlast
  have hspace := m.superOptions.no_space _ (List.mem_of_getLast? hlast)
  exact absurd hspace (by decide)

/-- The lines of the table. -/
lemma lines_renderMounts (mounts : List Mount) :
    Text.lines (renderMounts mounts).toList = mounts.map Mount.line := by
  rw [renderMounts, String.toList_ofList]
  induction mounts with
  | nil => rfl
  | cons m mounts ih =>
      rw [List.flatMap_cons, List.append_assoc, List.singleton_append,
        Text.lines_append (newline_not_mem_line m) (getLast?_line m), ih, List.map_cons]

lemma firstMounts_eq (seen ms : List String) :
    firstMounts seen ms = (ms.filter (· ∉ seen)).eraseDups := by
  induction ms generalizing seen with
  | nil => rfl
  | cons m ms ih =>
      rw [firstMounts]
      split_ifs with hm
      · rw [ih, List.filter_cons_of_neg (by simpa using hm)]
      · rw [ih, List.filter_cons_of_pos (by simpa using hm), List.eraseDups_cons,
          List.filter_filter]
        refine congrArg (fun l => m :: List.eraseDups l) (List.filter_congr fun x _ => ?_)
        by_cases hx : x = m <;> simp [hx]

/-- **What is read of a table**: what its mounts are taken for, once each. -/
theorem parseMountinfo_renderMounts (mounts : List Mount) :
    parseMountinfo (renderMounts mounts) = (mounts.filterMap Mount.shown).eraseDups := by
  have hshown : mountPointOf ∘ Mount.line = Mount.shown := funext mountPointOf_line
  rw [parseMountinfo, lines_renderMounts, firstMounts_eq, List.filterMap_map, hshown]
  exact congrArg List.eraseDups (List.filter_eq_self.mpr fun m _ => by simp)

/-! ### Paths as they are written -/

/-- All white space of the path is escaped. -/
def Straight (path : String) : Prop := ∀ c ∈ path.toList, Text.isWhitespace c → isEscaped c

lemma length_escapeChar (c : Char) :
    (escapeChar c).length = 1 + 3 * if isEscaped c then 1 else 0 := by
  rw [escapeChar, isEscaped]
  split_ifs <;> simp_all

/-- An escape takes three characters more. -/
lemma length_flatMap_escapeChar (cs : List Char) :
    (cs.flatMap escapeChar).length = cs.length + 3 * cs.countP isEscaped := by
  induction cs with
  | nil => rfl
  | cons c cs ih =>
      rw [List.flatMap_cons, List.length_append, ih, length_escapeChar, List.length_cons,
        List.countP_cons]
      ring

/-- A path is written as it is if nothing in it is escaped. -/
lemma escapePath_eq_iff {path : String} :
    escapePath path = path ↔ ∀ c ∈ path.toList, isEscaped c = false := by
  constructor
  · intro h c hc
    have hlength := congrArg (fun s : String => s.toList.length) h
    simp only [escapePath, String.toList_ofList, length_flatMap_escapeChar] at hlength
    have hnone : path.toList.countP isEscaped = 0 := by omega
    exact Bool.eq_false_iff.mpr (List.countP_eq_zero.mp hnone c hc)
  · intro h
    have hplain : ∀ c ∈ path.toList, escapeChar c = [c] := by
      intro c hc
      have hc' := h c hc
      simp only [isEscaped, Bool.or_eq_false_iff, decide_eq_false_iff_not] at hc'
      rw [escapeChar, if_neg hc'.1.1.1, if_neg hc'.1.1.2, if_neg hc'.1.2, if_neg hc'.2]
    rw [escapePath, List.flatMap_congr hplain]
    simp

/-- The first character of a path can be read off. -/
lemma escapeChar_append_inj {c d : Char} {xs ys : List Char}
    (h : escapeChar c ++ xs = escapeChar d ++ ys) : c = d ∧ xs = ys := by
  rw [escapeChar, escapeChar] at h
  -- a character that is written as it is, is not a backslash
  split_ifs at h <;> simp_all <;> exact absurd h.1.symm ‹¬d = '\\'›

lemma escapePath_injective : Function.Injective escapePath := by
  have hne (c : Char) (xs : List Char) : escapeChar c ++ xs ≠ [] := by
    intro h
    have hlength := congrArg List.length h
    rw [List.length_append, length_escapeChar, List.length_nil] at hlength
    omega
  have hinj (cs ds : List Char) (h : cs.flatMap escapeChar = ds.flatMap escapeChar) : cs = ds := by
    induction cs generalizing ds with
    | nil =>
        cases ds with
        | nil => rfl
        | cons d ds => exact absurd h.symm (hne d _)
    | cons c cs ih =>
        cases ds with
        | nil => exact absurd h (hne c _)
        | cons d ds =>
            obtain ⟨rfl, htail⟩ := escapeChar_append_inj h
            rw [ih ds htail]
  intro p q h
  exact String.toList_inj.mp (hinj _ _ (String.ofList_injective h))

lemma eraseDups_map {f : String → String} (hf : Function.Injective f) (l : List String) :
    (l.map f).eraseDups = l.eraseDups.map f := by
  induction hn : l.length using Nat.strong_induction_on generalizing l with
  | _ n ih =>
    cases l with
    | nil => rfl
    | cons a l =>
        have hlt : (l.filter fun b => !b == a).length < n := by
          rw [← hn, List.length_cons]
          exact Nat.lt_succ_of_le (List.length_filter_le _ _)
        have hkeep : ((fun b => !b == f a) ∘ f) = fun b => !b == a := by
          funext b
          rw [Function.comp_apply, Bool.eq_iff_iff]
          simp [hf.eq_iff]
        rw [List.map_cons, List.eraseDups_cons, List.eraseDups_cons, List.map_cons, List.filter_map,
          hkeep, ih _ hlt _ rfl]

/-! ### Decoding -/

/-- **The table is decoded**: the list has the mount points of the disks, once each, in the
order of the table. -/
def Decodes (mounts : List Mount) : Prop :=
  parseMountinfo (renderMounts mounts) = (mounts.filterMap Mount.realPath).eraseDups

/-- Without a dash in its paths a mount passes for what it is. -/
lemma passesForDisk_of_not_mem {m : Mount} (h : "-" ∉ m.pieces) :
    m.PassesForDisk ↔ m.fsType.text ∈ realFilesystems := by
  rw [Mount.PassesForDisk]
  refine ⟨?_, fun hreal => Or.inl ⟨h, hreal⟩⟩
  rintro (⟨-, hreal⟩ | ⟨before, fsType, after, heq, -⟩)
  · exact hreal
  · have hmem : "-" ∈ m.pieces ++ [m.options.text] := by
      rw [heq]
      exact List.mem_append_right _ List.mem_cons_self
    rcases List.mem_append.mp hmem with hmem | hmem
    · exact absurd hmem h
    · exact absurd (List.mem_singleton.mp hmem).symm m.options.ne_separator

/-- A mount whose paths are two words is taken for what it is, as it is written. -/
lemma shown_of_straight {m : Mount} (hroot : Straight m.root) (hmount : Straight m.mountPoint) :
    m.shown = m.realPath.map escapePath := by
  have hword {path : String} (habsolute : path.toList.head? = some '/') (h : Straight path) :
      tokens (escapePath path).toList = [escapePath path] ∧ "-" ≠ escapePath path := by
    obtain ⟨cs, hcs⟩ := exists_escapePath_eq habsolute
    refine ⟨tokens_eq_singleton ?_ fun c hc => Bool.eq_false_iff.mpr fun hspace => ?_, ?_⟩
    · intro hempty
      rw [hempty] at hcs
      exact absurd hcs (by simp)
    · obtain ⟨hmem, hescaped⟩ := mem_escapePath hspace hc
      rw [h c hmem hspace] at hescaped
      exact absurd hescaped (by decide)
    · intro hdash
      rw [← hdash] at hcs
      exact absurd (List.cons.inj hcs).1 (by decide)
  obtain ⟨hroot, hroot'⟩ := hword m.root_absolute hroot
  obtain ⟨hmount, hmount'⟩ := hword m.absolute hmount
  have hpieces : m.pieces = [escapePath m.root, escapePath m.mountPoint] := by
    rw [Mount.pieces, hroot, hmount]
    rfl
  have hdash : "-" ∉ m.pieces := by simp [hpieces, hroot', hmount']
  rw [Mount.shown, Mount.realPath, passesForDisk_of_not_mem hdash, hpieces]
  split_ifs <;> rfl

/-- No mount is taken for a path with white space. -/
lemma no_space_of_shown {m : Mount} {path : String} (h : m.shown = some path) :
    ∀ c ∈ path.toList, Text.isWhitespace c = false := by
  have hpiece : path ∈ m.pieces := by
    rw [Mount.shown] at h
    split_ifs at h
    exact List.mem_of_getElem? h
  have htoken {cs : List Char} (hmem : path ∈ tokens cs) :
      ∀ c ∈ path.toList, Text.isWhitespace c = false := by
    obtain ⟨w, hw, rfl⟩ := List.mem_map.mp hmem
    rw [String.toList_ofList]
    exact Text.separates_of_mem_words hw
  obtain hroot | hmount := List.mem_append.mp hpiece
  · exact htoken hroot
  · exact htoken hmount

/-- The table is decoded if the words of its paths say the same as its mounts. -/
lemma decodes_iff_shown (mounts : List Mount) :
    Decodes mounts ↔ (mounts.filterMap Mount.shown).eraseDups =
      (mounts.filterMap Mount.realPath).eraseDups := by
  rw [Decodes, parseMountinfo_renderMounts]

/-- The mount points of the disks of a table that is decoded have no white space. -/
lemma Decodes.no_space {mounts : List Mount} (h : Decodes mounts) :
    ∀ path ∈ mounts.filterMap Mount.realPath, ∀ c ∈ path.toList, Text.isWhitespace c = false := by
  intro path hpath
  have hmem : path ∈ (mounts.filterMap Mount.shown).eraseDups := by
    rw [(decodes_iff_shown mounts).mp h]
    exact List.mem_eraseDups.mpr hpath
  obtain ⟨m, -, hshown⟩ := List.mem_filterMap.mp (List.mem_eraseDups.mp hmem)
  exact no_space_of_shown hshown

/-- The other path does not come between: the root of a disk has no white space that is not
escaped, and of the words of the paths of anything else none is a dash. -/
def Mount.Orderly (m : Mount) : Prop :=
  if m.fsType.text ∈ realFilesystems then Straight m.root else "-" ∉ m.pieces

/-- Where the disks are on paths without white space, the mounts are taken for what they are. -/
lemma filterMap_shown {mounts : List Mount} (horderly : ∀ m ∈ mounts, m.Orderly)
    (hspace : ∀ path ∈ mounts.filterMap Mount.realPath, ∀ c ∈ path.toList,
      Text.isWhitespace c = false) :
    mounts.filterMap Mount.shown = (mounts.filterMap Mount.realPath).map escapePath := by
  rw [List.map_filterMap]
  refine List.filterMap_congr fun m hm => ?_
  have horderly := horderly m hm
  rw [Mount.Orderly] at horderly
  split_ifs at horderly with hreal
  · refine shown_of_straight horderly fun c hc hc' => absurd hc' ?_
    exact Bool.eq_false_iff.mp
      (hspace m.mountPoint (List.mem_filterMap.mpr ⟨m, hm, if_pos hreal⟩) c hc)
  · rw [Mount.shown, Mount.realPath, if_neg ((passesForDisk_of_not_mem horderly).not.mpr hreal),
      if_neg hreal]
    rfl

/-- A list that is decoded as it is written has no escapes. -/
lemma eraseDups_map_escapePath_iff (paths : List String) :
    (paths.map escapePath).eraseDups = paths.eraseDups ↔
      ∀ path ∈ paths, ∀ c ∈ path.toList, isEscaped c = false := by
  have hfixed (l : List String) : l.map escapePath = l ↔ ∀ path ∈ l, escapePath path = path := by
    constructor
    · intro h path hpath
      exact List.map_inj_left.mp (h.trans (List.map_id l).symm) path hpath
    · intro h
      exact (List.map_congr_left h).trans (List.map_id l)
  rw [eraseDups_map escapePath_injective, hfixed]
  simp only [List.mem_eraseDups, escapePath_eq_iff]

/-- **When the table is decoded.** Where the root of each disk is one word and the paths of the
other mounts have no word that is a dash, it is so exactly if no disk is mounted on a path with
white space or a backslash. Whatever the paths are, it is never so if a disk is mounted on a path
with white space; and it is so exactly if the second words of the paths, of the mounts that pass
for disks, are the mount points of the disks. -/
theorem decodes_iff (mounts : List Mount) :
    ((∀ m ∈ mounts, m.Orderly) →
      (Decodes mounts ↔ ∀ path ∈ mounts.filterMap Mount.realPath, ∀ c ∈ path.toList,
        Text.isWhitespace c = false ∧ isEscaped c = false)) ∧
    (Decodes mounts → ∀ path ∈ mounts.filterMap Mount.realPath,
      ∀ c ∈ path.toList, Text.isWhitespace c = false) ∧
    (Decodes mounts ↔ (mounts.filterMap Mount.shown).eraseDups =
      (mounts.filterMap Mount.realPath).eraseDups) := by
  refine ⟨fun horderly => ⟨fun h path hpath c hc => ?_, fun h => ?_⟩, fun h => h.no_space,
    decodes_iff_shown mounts⟩
  · refine ⟨h.no_space path hpath c hc, ?_⟩
    have hshown := (decodes_iff_shown mounts).mp h
    rw [filterMap_shown horderly h.no_space, eraseDups_map_escapePath_iff] at hshown
    exact hshown path hpath c hc
  · rw [decodes_iff_shown, filterMap_shown horderly fun path hpath c hc => (h path hpath c hc).1,
      eraseDups_map_escapePath_iff]
    exact fun path hpath c hc => (h path hpath c hc).2

/-- A word of the line of an ordinary mount. -/
def readWrite : Field where
  text := "rw"
  ne_empty := by decide
  no_space := Text.not_separates_of_all (by decide)
  ne_separator := by decide

/-- A disk that is mounted on a path with a space. -/
def spacedMount : Mount where
  id := 31
  parent := 26
  major := 254
  minor := 1
  root := "/"
  mountPoint := "/mnt/my data"
  options := readWrite
  optional := []
  fsType := ⟨"ext4", by decide, Text.not_separates_of_all (by decide)⟩
  source := "/dev/sdb1"
  superOptions := readWrite.toWord
  root_absolute := by decide
  absolute := by decide
  source_line := by decide

/-- It is read as it is written. -/
theorem spacedMount_not_decoded :
    parseMountinfo (renderMounts [spacedMount]) = ["/mnt/my\\040data"] ∧
    ¬Decodes [spacedMount] := by
  have hparsed : parseMountinfo (renderMounts [spacedMount]) = ["/mnt/my\\040data"] := by
    decide +kernel
  have hexpected : ([spacedMount].filterMap Mount.realPath).eraseDups = ["/mnt/my data"] := by
    decide +kernel
  refine ⟨hparsed, fun h => ?_⟩
  rw [Decodes, hparsed, hexpected] at h
  exact absurd h (by decide)

end Accelrd.Sensors
