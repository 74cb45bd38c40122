import Mathlib.Tactic
import Mathlib.Data.List.DropRight
import Mathlib.Data.List.TakeWhile

/-!
The string functions of the Rust standard library that the code uses on text it did
not write itself, on lists of characters, and prefixes of strings.

* `trim`, `lines`, `words`, `parseUnsigned`, `eqIgnoreAsciiCase`.
* `trim_eq_iff`: what is trimmed off is the space in front and behind.
* `startsWith_append`, `startsWith_trans`: what is known of the prefixes of a string that
  is put together from parts; `Compatible` when two strings can be prefixes of one string.
* `stripPrefix_eq_some_iff`, `stripSuffix_eq_some_iff`: what is taken off was in front, or
  behind.
* `splitOnce_eq_some_iff`: a text is split at the first of its separators.
* `parseUnsigned_toString`: a numeral is read back.
-/

namespace Text

/-- `char::is_whitespace`: the Unicode property `White_Space`. -/
def isWhitespace (c : Char) : Bool :=
  let n := c.toNat
  (9 ≤ n && n ≤ 13) || n == 0x20 || n == 0x85 || n == 0xA0 || n == 0x1680 ||
    (0x2000 ≤ n && n ≤ 0x200A) || n == 0x2028 || n == 0x2029 || n == 0x202F || n == 0x205F ||
    n == 0x3000

/-- `str::trim`. -/
def trim (cs : List Char) : List Char :=
  ((cs.dropWhile isWhitespace).reverse.dropWhile isWhitespace).reverse

/-- A line whose characters were collected in reverse, without the carriage return that
its line feed may have had in front of it. -/
def closeLine : List Char → List Char
  | '\r' :: acc => acc.reverse
  | acc => acc.reverse

/-- `str::lines`, with the characters of the current line collected in reverse. A last
line without a line feed counts unless it is empty. -/
def linesFrom (acc : List Char) : List Char → List (List Char)
  | [] => if acc = [] then [] else [acc.reverse]
  | '\n' :: cs => closeLine acc :: linesFrom [] cs
  | c :: cs => linesFrom (c :: acc) cs

/-- `str::lines`. -/
def lines (cs : List Char) : List (List Char) := linesFrom [] cs

/-- `char::is_ascii_whitespace`. -/
def isAsciiWhitespace (c : Char) : Bool :=
  c = ' ' || c = '\t' || c = '\n' || c = '\x0c' || c = '\r'

/-- `str::split_whitespace` and `str::split_ascii_whitespace`: the pieces between the
separators, the empty ones left out. -/
def words (separates : Char → Bool) (cs : List Char) : List (List Char) :=
  (cs.splitOnP separates).filter (· ≠ [])

/-- `str::contains` for a string. -/
def contains (cs : List Char) (pattern : String) : Bool := decide (pattern.toList <:+: cs)

/-- `str::parse` for the unsigned type with `w` bits: decimal digits, with a plus sign in
front or not. -/
def parseUnsigned (w : ℕ) (cs : List Char) : Option ℕ :=
  let digits := match cs with
    | '+' :: r => r
    | r => r
  if digits ≠ [] ∧ digits.all Char.isDigit ∧ Nat.ofDigitChars 10 digits 0 < 2 ^ w then
    some (Nat.ofDigitChars 10 digits 0)
  else none

/-- `str::eq_ignore_ascii_case`. -/
def eqIgnoreAsciiCase (s t : String) : Bool :=
  s.toList.map Char.toLower == t.toList.map Char.toLower

/-- `str::trim_matches` for one character. -/
def trimMatches (c : Char) (cs : List Char) : List Char :=
  ((cs.dropWhile (· == c)).reverse.dropWhile (· == c)).reverse

/-- `str::starts_with`. -/
def startsWith (s p : String) : Bool := p.toList.isPrefixOf s.toList

@[simp] lemma startsWith_append (p s : String) : startsWith (p ++ s) p := by
  simp [startsWith]

lemma exists_eq_append {s p : String} (h : startsWith s p) : ∃ r, s = p ++ r := by
  obtain ⟨cs, hcs⟩ := List.isPrefixOf_iff_prefix.mp h
  refine ⟨String.ofList cs, ?_⟩
  rw [← String.toList_inj, String.toList_append, String.toList_ofList, hcs]

lemma startsWith_trans {s p q : String} (hs : startsWith s p) (hp : startsWith p q) :
    startsWith s q := by
  rw [startsWith, List.isPrefixOf_iff_prefix] at *
  exact hp.trans hs

/-- Of two prefixes of one string, the shorter is a prefix of the longer. -/
lemma startsWith_of_length_le {s p q : String} (hp : startsWith s p) (hq : startsWith s q)
    (h : p.length ≤ q.length) : startsWith q p := by
  rw [startsWith, List.isPrefixOf_iff_prefix] at *
  exact List.prefix_of_prefix_length_le hp hq (by rwa [String.length_toList, String.length_toList])

/-- One of the two is a prefix of the other. -/
def Compatible (p q : String) : Prop := startsWith p q ∨ startsWith q p

instance (p q : String) : Decidable (Compatible p q) :=
  inferInstanceAs (Decidable (startsWith p q = true ∨ startsWith q p = true))

/-- Two prefixes of one string are compatible. -/
lemma compatible_of_startsWith {s p q : String} (hp : startsWith s p) (hq : startsWith s q) :
    Compatible p q := by
  rcases Nat.le_total p.length q.length with h | h
  · exact Or.inr (startsWith_of_length_le hp hq h)
  · exact Or.inl (startsWith_of_length_le hq hp h)

lemma linesFrom_append {l : List Char} (hl : '\n' ∉ l) (acc rest : List Char) :
    linesFrom acc (l ++ '\n' :: rest) = closeLine (l.reverse ++ acc) :: linesFrom [] rest := by
  induction l generalizing acc with
  | nil => rw [List.nil_append, linesFrom, List.reverse_nil, List.nil_append]
  | cons c l ih =>
      obtain ⟨hc, hl⟩ := not_or.mp (mt List.mem_cons.mpr hl)
      rw [List.cons_append, linesFrom, ih hl, List.reverse_cons, List.append_assoc]
      · rfl
      · exact fun heq => hc heq.symm

/-- A line up to its line feed, if no carriage return is in front of that. -/
lemma lines_append {l : List Char} (hl : '\n' ∉ l) (hlast : l.getLast? ≠ some '\r')
    (rest : List Char) : lines (l ++ '\n' :: rest) = l :: lines rest := by
  have hclose : closeLine l.reverse = l := by
    rw [← List.head?_reverse] at hlast
    cases h : l.reverse with
    | nil =>
        obtain rfl := List.reverse_eq_nil_iff.mp h
        rfl
    | cons c acc =>
        rw [h, List.head?_cons] at hlast
        rw [closeLine, ← h, List.reverse_reverse]
        rintro acc' heq
        exact hlast (congrArg some (List.cons.inj heq).1)
  rw [lines, linesFrom_append hl, List.append_nil, hclose, lines]

/-- Nothing is dropped where the first character stays. -/
lemma dropWhile_eq_self {p : Char → Bool} {cs : List Char} (h : ∀ c ∈ cs.head?, p c = false) :
    cs.dropWhile p = cs := by
  cases cs with
  | nil => rfl
  | cons c cs => exact List.dropWhile_cons_of_neg (by simpa using h c rfl)

/-- There is nothing to trim where no space is in front or behind. -/
lemma trim_eq_self {cs : List Char} (hhead : ∀ c ∈ cs.head?, isWhitespace c = false)
    (hlast : ∀ c ∈ cs.getLast?, isWhitespace c = false) : trim cs = cs := by
  have hreverse : ∀ c ∈ cs.reverse.head?, isWhitespace c = false := by
    rwa [List.head?_reverse]
  rw [trim, dropWhile_eq_self hhead, dropWhile_eq_self hreverse, List.reverse_reverse]

/-- No space in front or behind. -/
def Trimmed (cs : List Char) : Prop :=
  (∀ c ∈ cs.head?, isWhitespace c = false) ∧ ∀ c ∈ cs.getLast?, isWhitespace c = false

lemma trimmed_of_forall {cs : List Char} (h : ∀ c ∈ cs, isWhitespace c = false) : Trimmed cs :=
  ⟨fun c hc => h c (List.mem_of_mem_head? hc), fun c hc => h c (List.mem_of_mem_getLast? hc)⟩

lemma trim_eq_self_of_forall {cs : List Char} (h : ∀ c ∈ cs, isWhitespace c = false) :
    trim cs = cs :=
  trim_eq_self (trimmed_of_forall h).1 (trimmed_of_forall h).2

/-- Nothing but space. -/
def Blank (cs : List Char) : Prop := ∀ c ∈ cs, isWhitespace c

lemma Blank.reverse {cs : List Char} (h : Blank cs) : ∀ c ∈ cs.reverse, isWhitespace c :=
  fun c hc => h c (List.mem_reverse.mp hc)

lemma head?_dropWhile {p : Char → Bool} (cs : List Char) :
    ∀ c ∈ (cs.dropWhile p).head?, p c = false := by
  intro c hc
  have hnot := List.head?_dropWhile_not p cs
  rwa [Option.mem_def.mp hc] at hnot

lemma trimmed_trim (cs : List Char) : Trimmed (trim cs) := by
  constructor
  · intro c hc
    obtain ⟨back, hback⟩ : trim cs <+: cs.dropWhile isWhitespace :=
      List.rdropWhile_prefix isWhitespace _
    refine head?_dropWhile cs c ?_
    rw [← hback, List.head?_append, Option.mem_def.mp hc]
    rfl
  · rw [trim, List.getLast?_reverse]
    exact head?_dropWhile _

/-- **Trimming** takes the space off, and nothing else. -/
lemma trim_eq_iff {cs w : List Char} :
    trim cs = w ↔ Trimmed w ∧ ∃ front back, Blank front ∧ Blank back ∧ cs = front ++ w ++ back := by
  constructor
  · rintro rfl
    refine ⟨trimmed_trim cs, cs.takeWhile isWhitespace,
      (cs.dropWhile isWhitespace).rtakeWhile isWhitespace, fun c hc => List.mem_takeWhile_imp hc,
      fun c hc => List.mem_rtakeWhile_imp hc, ?_⟩
    calc cs = cs.takeWhile isWhitespace ++ cs.dropWhile isWhitespace :=
          List.takeWhile_append_dropWhile.symm
      _ = cs.takeWhile isWhitespace ++ (trim cs ++
            (cs.dropWhile isWhitespace).rtakeWhile isWhitespace) :=
          congrArg _ List.rdropWhile_append_rtakeWhile.symm
      _ = _ := (List.append_assoc _ _ _).symm
  · rintro ⟨ht, front, back, hfront, hback, rfl⟩
    rw [trim, List.append_assoc, List.dropWhile_append_of_pos hfront]
    cases w with
    | nil =>
        rw [List.nil_append, List.dropWhile_eq_nil_iff.mpr hback]
        rfl
    | cons c w =>
        have hkeep : ((c :: w) ++ back).dropWhile isWhitespace = (c :: w) ++ back :=
          List.dropWhile_cons_of_neg (by simpa using ht.1 c rfl)
        have hlast : ∀ d ∈ (c :: w).reverse.head?, isWhitespace d = false := by
          rw [List.head?_reverse]
          exact ht.2
        rw [hkeep, List.reverse_append, List.dropWhile_append_of_pos hback.reverse,
          dropWhile_eq_self hlast, List.reverse_reverse]

lemma trim_eq_nil_iff {cs : List Char} : trim cs = [] ↔ Blank cs := by
  rw [trim_eq_iff]
  constructor
  · rintro ⟨-, front, back, hfront, hback, rfl⟩
    rw [List.append_nil]
    exact List.forall_mem_append.mpr ⟨hfront, hback⟩
  · intro h
    exact ⟨⟨by simp, by simp⟩, cs, [], h, List.forall_mem_nil _, by simp⟩

/-- Space around a text is trimmed with the space of the text. -/
lemma trim_append_append {front cs back : List Char} (hfront : Blank front) (hback : Blank back) :
    trim (front ++ cs ++ back) = trim cs := by
  obtain ⟨ht, front', back', hfront', hback', hcs⟩ := trim_eq_iff.mp (rfl : trim cs = trim cs)
  refine trim_eq_iff.mpr ⟨ht, front ++ front', back' ++ back,
    List.forall_mem_append.mpr ⟨hfront, hfront'⟩, List.forall_mem_append.mpr ⟨hback', hback⟩, ?_⟩
  conv_lhs => rw [hcs]
  simp only [List.append_assoc]

/-- What a text begins with, behind the space in front, is not trimmed off if it has no space
at its own ends. -/
lemma prefix_trim_iff {p cs : List Char} (hp : p ≠ []) (ht : Trimmed p) :
    p <+: trim cs ↔ ∃ front rest, Blank front ∧ cs = front ++ p ++ rest := by
  constructor
  · rintro ⟨r, hr⟩
    obtain ⟨-, front, back, hfront, -, hcs⟩ := trim_eq_iff.mp hr.symm
    exact ⟨front, r ++ back, hfront, by rw [hcs]; simp⟩
  · rintro ⟨front, rest, hfront, rfl⟩
    have hhead (r : List Char) : ∀ c ∈ (p ++ r).head?, isWhitespace c = false := by
      obtain ⟨c, tail, rfl⟩ := List.exists_cons_of_ne_nil hp
      exact ht.1
    have htrim (w back : List Char) (hw : Trimmed (p ++ w)) (hback : Blank back)
        (hrest : rest = w ++ back) : trim (front ++ p ++ rest) = p ++ w :=
      trim_eq_iff.mpr ⟨hw, front, back, hfront, hback, by rw [hrest]; simp⟩
    obtain ⟨htail, front', back, hfront', hback, hrest⟩ :=
      trim_eq_iff.mp (rfl : trim rest = trim rest)
    cases hnil : trim rest with
    | nil =>
        rw [htrim [] rest (by rwa [List.append_nil]) (trim_eq_nil_iff.mp hnil) rfl]
        exact List.prefix_append _ _
    | cons c tail =>
        have hlast : (p ++ (front' ++ trim rest)).getLast? = (trim rest).getLast? := by
          rw [hnil, ← List.append_assoc, List.getLast?_append_cons]
        rw [htrim (front' ++ trim rest) back ⟨hhead _, by rw [hlast]; exact htail.2⟩ hback hrest]
        exact List.prefix_append _ _

/-- A joined list begins with its first word. -/
lemma startsWith_intercalate (sep w : String) (ws : List String) :
    startsWith (sep.intercalate (w :: ws)) w := by
  cases ws with
  | nil =>
      rw [String.intercalate_singleton]
      exact List.isPrefixOf_iff_prefix.mpr (List.prefix_refl _)
  | cons v ws =>
      rw [String.intercalate_cons_cons, String.append_assoc]
      exact startsWith_append w _

lemma intercalate_ne_empty (sep : String) {w : String} (hw : w ≠ "") (ws : List String) :
    sep.intercalate (w :: ws) ≠ "" := by
  intro h
  obtain ⟨r, hr⟩ := exists_eq_append (startsWith_intercalate sep w ws)
  rw [h] at hr
  exact hw (String.append_eq_empty_iff.mp hr.symm).1

/-! ### Taking off -/

/-- `str::strip_prefix`. -/
def stripPrefix (s p : String) : Option String :=
  (p.toList.isPrefixOf? s.toList).map String.ofList

/-- `str::strip_suffix`. -/
def stripSuffix (s p : String) : Option String :=
  (p.toList.isSuffixOf? s.toList).map String.ofList

lemma isPrefixOf?_eq_some_iff {p cs r : List Char} :
    p.isPrefixOf? cs = some r ↔ cs = p ++ r := by
  induction p generalizing cs with
  | nil => simp [List.isPrefixOf?]
  | cons a p ih =>
      cases cs with
      | nil => simp [List.isPrefixOf?]
      | cons c cs =>
          rw [List.isPrefixOf?]
          by_cases hac : a = c
          · simp [hac, ih]
          · simp [hac, Ne.symm hac]

/-- A text without the character `c` does not reach over it. -/
lemma infix_append_cons_iff {c : Char} {ts cs ds : List Char} (hc : c ∉ ts) :
    ts <:+: cs ++ c :: ds ↔ ts <:+: cs ∨ ts <:+: ds := by
  constructor
  · rintro ⟨s, t, h⟩
    rcases List.append_eq_append_iff.mp h with ⟨as, rfl, -⟩ | ⟨bs, hst, hds⟩
    · exact Or.inl ⟨s, as, rfl⟩
    -- the text begins before the separator or behind it
    rcases List.append_eq_append_iff.mp hst with ⟨as, rfl, rfl⟩ | ⟨as, rfl, rfl⟩
    · cases bs with
      | nil => exact Or.inl ⟨s, [], by simp⟩
      | cons b bs =>
          obtain ⟨rfl, -⟩ := List.cons_eq_cons.mp hds
          exact absurd (List.mem_append_right _ List.mem_cons_self) hc
    · cases as with
      | nil =>
          cases ts with
          | nil => exact Or.inl ⟨cs, [], by simp⟩
          | cons b ts =>
              obtain ⟨rfl, -⟩ := List.cons_eq_cons.mp hds
              exact absurd List.mem_cons_self hc
      | cons b as =>
          obtain ⟨-, rfl⟩ := List.cons_eq_cons.mp hds
          exact Or.inr ⟨as, t, rfl⟩
  · rintro (⟨s, t, rfl⟩ | ⟨s, t, rfl⟩)
    · exact ⟨s, t ++ c :: ds, by simp⟩
    · exact ⟨cs ++ c :: s, t, by simp⟩

lemma ofList_eq_iff {cs : List Char} {r : String} : String.ofList cs = r ↔ cs = r.toList := by
  constructor
  · rintro rfl
    exact String.toList_ofList.symm
  · rintro rfl
    exact String.ofList_toList

lemma stripPrefix_eq_some_iff {s p r : String} : stripPrefix s p = some r ↔ s = p ++ r := by
  rw [stripPrefix, Option.map_eq_some_iff, ← String.toList_inj, String.toList_append]
  simp only [isPrefixOf?_eq_some_iff, ofList_eq_iff, exists_eq_right]

lemma stripSuffix_eq_some_iff {s p r : String} : stripSuffix s p = some r ↔ s = r ++ p := by
  rw [stripSuffix, Option.map_eq_some_iff, ← String.toList_inj, String.toList_append]
  simp only [List.isSuffixOf?, Option.map_eq_some_iff, isPrefixOf?_eq_some_iff, ofList_eq_iff]
  constructor
  · rintro ⟨_, ⟨cs, hcs, rfl⟩, hr⟩
    rw [← List.reverse_inj, hcs, List.reverse_append, ← hr, List.reverse_reverse]
  · intro h
    exact ⟨r.toList, ⟨r.toList.reverse, by rw [h, List.reverse_append], List.reverse_reverse _⟩,
      rfl⟩

/-- `str::split_once` for one character. -/
def splitOnce (c : Char) (cs : List Char) : Option (List Char × List Char) :=
  match cs.dropWhile (· ≠ c) with
  | [] => none
  | _ :: rest => some (cs.takeWhile (· ≠ c), rest)

lemma splitOnce_append {c : Char} {xs : List Char} (hc : c ∉ xs) (ys : List Char) :
    splitOnce c (xs ++ c :: ys) = some (xs, ys) := by
  have hxs : ∀ x ∈ xs, decide (x ≠ c) := fun x hx =>
    decide_eq_true fun heq => hc (heq ▸ hx)
  rw [splitOnce, List.dropWhile_append_of_pos hxs, List.takeWhile_append_of_pos hxs,
    List.dropWhile_cons_of_neg (by simp), List.takeWhile_cons_of_neg (by simp), List.append_nil]

lemma splitOnce_eq_none {c : Char} {cs : List Char} (hc : c ∉ cs) : splitOnce c cs = none := by
  have hdrop : cs.dropWhile (· ≠ c) = [] :=
    List.dropWhile_eq_nil_iff.mpr fun x hx => decide_eq_true fun heq => hc (heq ▸ hx)
  rw [splitOnce, hdrop]

/-- **A text is split** at the first of its separators. -/
lemma splitOnce_eq_some_iff {c : Char} {cs xs ys : List Char} :
    splitOnce c cs = some (xs, ys) ↔ c ∉ xs ∧ cs = xs ++ c :: ys := by
  constructor
  · intro h
    by_cases hc : c ∈ cs
    · obtain ⟨xs', ys', rfl, hc'⟩ := List.eq_append_cons_of_mem hc
      rw [splitOnce_append hc'] at h
      obtain ⟨rfl, rfl⟩ := Prod.mk.inj (Option.some.inj h)
      exact ⟨hc', rfl⟩
    · rw [splitOnce_eq_none hc] at h
      exact absurd h (by simp)
  · rintro ⟨hc, rfl⟩
    exact splitOnce_append hc ys

/-! ### Numerals -/

/-- What is read fits into the type. -/
lemma parseUnsigned_lt {w n : ℕ} {cs : List Char} (h : parseUnsigned w cs = some n) :
    n < 2 ^ w := by
  unfold parseUnsigned at h
  extract_lets digits at h
  split_ifs at h with hcond
  obtain rfl := Option.some.inj h
  exact hcond.2.2

lemma toList_toString (n : ℕ) : (toString n).toList = Nat.toDigits 10 n := by
  rw [Nat.toString_eq_repr, Nat.toList_repr]

/-- Numerals are made of digits. -/
lemma isDigit_of_mem_toString {n : ℕ} {c : Char} (hc : c ∈ (toString n).toList) : c.isDigit := by
  rw [toList_toString] at hc
  exact Nat.isDigit_of_mem_toDigits (by omega) (by omega) hc

/-- A numeral is read back, if it fits into the type. -/
lemma parseUnsigned_toString {w n : ℕ} (h : n < 2 ^ w) :
    parseUnsigned w (toString n).toList = some n := by
  have hdigits : (toString n).toList.all Char.isDigit :=
    List.all_eq_true.mpr fun _ hc => isDigit_of_mem_toString hc
  have hne : (toString n).toList ≠ [] := by
    rw [toList_toString]
    exact Nat.toDigits_ne_nil
  have hplus (r : List Char) : (toString n).toList ≠ '+' :: r := by
    intro heq
    have hplus := List.all_eq_true.mp hdigits '+' (by rw [heq]; exact List.mem_cons_self)
    exact absurd hplus (by decide)
  have hvalue : Nat.ofDigitChars 10 (toString n).toList 0 = n := by
    rw [toList_toString, Nat.ofDigitChars_ten_toDigits]
  rw [parseUnsigned, hvalue, if_pos ⟨hne, hdigits, h⟩]
  exact hplus

/-- A text with a character that no numeral has is not read as a number. -/
lemma parseUnsigned_eq_none {w : ℕ} {cs : List Char} {c : Char} (hc : c ∈ cs)
    (hdigit : c.isDigit = false) (hplus : c ≠ '+') : parseUnsigned w cs = none := by
  unfold parseUnsigned
  extract_lets digits
  have hmem : c ∈ digits := by
    cases cs with
    | nil => exact absurd hc List.not_mem_nil
    | cons d r =>
        by_cases hd : d = '+'
        · subst hd
          exact (List.mem_cons.mp hc).resolve_left hplus
        · have hdigits : digits = d :: r := by grind
          rwa [hdigits]
  refine if_neg fun hcond => ?_
  exact absurd (List.all_eq_true.mp hcond.2.1 c hmem) (by simp [hdigit])

lemma isWhitespace_of_isDigit {c : Char} (h : c.isDigit) : isWhitespace c = false := by
  rw [Char.isDigit, Bool.and_eq_true, decide_eq_true_eq, decide_eq_true_eq] at h
  have hlo : 48 ≤ c.toNat := UInt32.le_iff_toNat_le.mp h.1
  have hhi : c.toNat ≤ 57 := UInt32.le_iff_toNat_le.mp h.2
  simp [isWhitespace]
  omega

/-- Different numbers have different numerals. -/
lemma toDigits_injective {b : ℕ} (hb : 1 < b) (hb' : b ≤ 16) :
    Function.Injective (Nat.toDigits b) := by
  have hdigit : ∀ i < 16, ∀ j < 16, Nat.digitChar i = Nat.digitChar j → i = j := by decide
  have hmod (n : ℕ) : n % b < 16 := (Nat.mod_lt n (by omega)).trans_le hb'
  intro m
  induction m using Nat.strong_induction_on with
  | _ m ih =>
    intro n h
    rw [Nat.toDigits_eq_if hb (n := m), Nat.toDigits_eq_if hb (n := n)] at h
    split_ifs at h with hm hn hn
    · exact hdigit m (by omega) n (by omega) (List.singleton_inj.mp h)
    · have hlength := congrArg List.length h
      simp [Nat.toDigits_ne_nil] at hlength
    · have hlength := congrArg List.length h
      simp [Nat.toDigits_ne_nil] at hlength
    · obtain ⟨hdiv, hlast⟩ := List.append_inj' h rfl
      have hdiv : m / b = n / b := ih _ (Nat.div_lt_self (by omega) hb) hdiv
      have hlast : m % b = n % b := hdigit _ (hmod m) _ (hmod n) (List.singleton_inj.mp hlast)
      rw [← Nat.div_add_mod m b, ← Nat.div_add_mod n b, hdiv, hlast]

lemma toString_injective : Function.Injective (toString : ℕ → String) := by
  intro m n h
  have hlist := congrArg String.toList h
  rw [toList_toString, toList_toString] at hlist
  exact toDigits_injective (by omega) (by omega) hlist

/-- Numerals are made of letters and digits. -/
lemma isAlphanum_of_mem_toDigits {b n : ℕ} (hb : 1 < b) (hb' : b ≤ 16) :
    ∀ c ∈ Nat.toDigits b n, c.isAlphanum := by
  have hdigit : ∀ i < 16, (Nat.digitChar i).isAlphanum := by decide
  induction n using Nat.strong_induction_on with
  | _ n ih =>
    rw [Nat.toDigits_eq_if hb]
    split_ifs with hn
    · exact List.forall_mem_singleton.mpr (hdigit n (by omega))
    · refine List.forall_mem_append.mpr ⟨ih _ (Nat.div_lt_self (by omega) hb), ?_⟩
      exact List.forall_mem_singleton.mpr (hdigit _ ((Nat.mod_lt n (by omega)).trans_le hb'))

example : lines "a\r\n\nb\r".toList = ["a".toList, [], "b\r".toList] := by decide

end Text
