import Mathlib.Tactic
import Mathlib.Data.List.TakeWhile
import Mathlib.Data.List.DropRight

/-!
URLs of the schemes `http` and `https` as the URL parsers of browsers and HTTP clients read
them, on lists of characters.

* `percentEncode`, `percentDecode`: percent-encoding of bytes, and `percentDecode_percentEncode`,
  that it is read back.
* `removeDots`: the removal of dot segments.
* `authority`, `path`, `query`: the parts of a URL.
* `path_append`: the path of a URL to which segments were appended.
-/

namespace Url

/-! ### Percent-encoding -/

/-- A hexadecimal digit, in upper case. -/
def hexDigit (n : ℕ) : Char := (Nat.digitChar n).toUpper

/-- The value of a hexadecimal digit. -/
def hexValue (c : Char) : Option ℕ :=
  if '0' ≤ c ∧ c ≤ '9' then some (c.toNat - 48)
  else if 'A' ≤ c ∧ c ≤ 'F' then some (c.toNat - 55)
  else if 'a' ≤ c ∧ c ≤ 'f' then some (c.toNat - 87)
  else none

/-- A percent sign and the two digits of a byte. -/
def escape (b : UInt8) : List Char := ['%', hexDigit (b.toNat / 16), hexDigit (b.toNat % 16)]

/-- The bytes as text: those to keep as ASCII characters, the others escaped. -/
def percentEncode (keep : UInt8 → Bool) (bs : List UInt8) : List Char :=
  bs.flatMap fun b => if keep b then [Char.ofNat b.toNat] else escape b

/-- The bytes of a text in UTF-8, a percent sign and two digits read as one byte. -/
def percentDecode : List Char → List UInt8
  | '%' :: h :: l :: cs =>
      match hexValue h, hexValue l with
      | some a, some b => UInt8.ofNat (16 * a + b) :: percentDecode cs
      | _, _ => String.utf8EncodeChar '%' ++ percentDecode (h :: l :: cs)
  | c :: cs => String.utf8EncodeChar c ++ percentDecode cs
  | [] => []

lemma hexValue_hexDigit {n : ℕ} (hn : n < 16) : hexValue (hexDigit n) = some n := by
  interval_cases n <;> decide

lemma percentDecode_cons {c : Char} (hc : c ≠ '%') (cs : List Char) :
    percentDecode (c :: cs) = String.utf8EncodeChar c ++ percentDecode cs := by
  rw [percentDecode]
  intro h l cs' heq _
  exact hc heq

lemma percentDecode_escape (b : UInt8) (cs : List Char) :
    percentDecode (escape b ++ cs) = b :: percentDecode cs := by
  have hb : b.toNat < 256 := b.toNat_lt
  have hhigh : hexValue (hexDigit (b.toNat / 16)) = some (b.toNat / 16) :=
    hexValue_hexDigit (by omega)
  have hlow : hexValue (hexDigit (b.toNat % 16)) = some (b.toNat % 16) :=
    hexValue_hexDigit (by omega)
  simp only [escape, List.cons_append, List.nil_append, percentDecode, hhigh, hlow]
  rw [Nat.div_add_mod, UInt8.ofNat_toNat]

lemma toNat_ofNat {b : UInt8} (hb : b < 128) : (Char.ofNat b.toNat).toNat = b.toNat := by
  have hlt : b.toNat < 128 := hb
  rw [Char.ofNat, dif_pos (Or.inl (by omega))]
  rfl

/-- The character of an ASCII byte is encoded as that byte. -/
lemma utf8EncodeChar_ofNat {b : UInt8} (hb : b < 128) :
    String.utf8EncodeChar (Char.ofNat b.toNat) = [b] := by
  have hlt : b.toNat < 128 := hb
  have hval : (Char.ofNat b.toNat).val.toNat = b.toNat := toNat_ofNat hb
  simp only [String.utf8EncodeChar, hval]
  rw [if_pos (by omega), UInt8.ofNat_toNat]

/-- **What is percent-encoded is read back**, if the bytes that are kept are ASCII and not
the percent sign. -/
theorem percentDecode_percentEncode {keep : UInt8 → Bool}
    (hkeep : ∀ b, keep b → b < 128 ∧ b ≠ 37) (bs : List UInt8) :
    percentDecode (percentEncode keep bs) = bs := by
  induction bs with
  | nil => rfl
  | cons b bs ih =>
      rw [percentEncode, List.flatMap_cons, ← percentEncode]
      cases hb : keep b with
      | false => rw [if_neg Bool.false_ne_true, percentDecode_escape, ih]
      | true =>
          obtain ⟨hascii, hpercent⟩ := hkeep b hb
          rw [if_pos rfl, List.singleton_append, percentDecode_cons, utf8EncodeChar_ofNat hascii,
            List.singleton_append, ih]
          intro heq
          have hnat := congrArg Char.toNat heq
          rw [toNat_ofNat hascii] at hnat
          exact hpercent (UInt8.toNat_inj.mp hnat)

/-! ### Dot segments -/

/-- A single-dot segment, percent-encoded or not. -/
def isSingleDot (s : List Char) : Bool :=
  [['.'], ['%', '2', 'e']].contains (s.map Char.toLower)

/-- A double-dot segment, percent-encoded or not. -/
def isDoubleDot (s : List Char) : Bool :=
  [['.', '.'], ['.', '%', '2', 'e'], ['%', '2', 'e', '.'],
    ['%', '2', 'e', '%', '2', 'e']].contains (s.map Char.toLower)

/-- A segment with others behind it. -/
def descend (path : List (List Char)) (s : List Char) : List (List Char) :=
  if isDoubleDot s then path.dropLast else if isSingleDot s then path else path ++ [s]

/-- The last segment. A dot segment leaves an empty segment at the end. -/
def finish (path : List (List Char)) (s : List Char) : List (List Char) :=
  if isDoubleDot s then path.dropLast ++ [[]]
  else if isSingleDot s then path ++ [[]] else path ++ [s]

/-- The segments behind a path without dot segments. -/
def removeDots (path : List (List Char)) : List (List Char) → List (List Char)
  | [] => path
  | [s] => finish path s
  | s :: t :: ss => removeDots (descend path s) (t :: ss)

lemma removeDots_append (path ss : List (List Char)) {ts : List (List Char)} (hts : ts ≠ []) :
    removeDots path (ss ++ ts) = removeDots (ss.foldl descend path) ts := by
  induction ss generalizing path with
  | nil => rfl
  | cons s ss ih =>
      obtain ⟨t, rest, hrest⟩ :=
        List.exists_cons_of_ne_nil (List.append_ne_nil_of_right_ne_nil ss hts)
      rw [List.cons_append, hrest, removeDots, ← hrest, ih, List.foldl_cons]

section Dots

variable {s : List Char} (path : List (List Char))

lemma descend_of_not_dots (hdouble : isDoubleDot s = false) (hsingle : isSingleDot s = false) :
    descend path s = path ++ [s] := by
  rw [descend, hdouble, hsingle]
  rfl

lemma finish_of_not_dots (hdouble : isDoubleDot s = false) (hsingle : isSingleDot s = false) :
    finish path s = path ++ [s] := by
  rw [finish, hdouble, hsingle]
  rfl

end Dots

/-- A lower case of a character is the character, or that of an upper case letter. -/
lemma eq_or_of_toLower_eq {c d : Char} (h : c.toLower = d) :
    c = d ∨ (65 ≤ c.toNat ∧ c.toNat + 32 = d.toNat) := by
  by_cases hupper : c.val ≥ 'A'.val ∧ c.val ≤ 'Z'.val
  · refine Or.inr ⟨hupper.1, ?_⟩
    have hle : c.val.toNat ≤ 90 := hupper.2
    have hval : c.toLower.val = c.val + 32 := congrArg Char.val (dif_pos hupper)
    show c.val.toNat + 32 = d.val.toNat
    rw [← h, hval, UInt32.toNat_add]
    exact (Nat.mod_eq_of_lt (by omega)).symm
  · have hself : c.toLower = c := dif_neg hupper
    exact Or.inl (hself.symm.trans h)

lemma eq_of_toLower_eq {c d : Char} (h : c.toLower = d) (hd : d.toNat < 97) : c = d := by
  rcases eq_or_of_toLower_eq h with heq | ⟨hupper, hadd⟩
  · exact heq
  · omega

lemma eq_of_toLower_eq_e {c : Char} (h : c.toLower = 'e') : c = 'e' ∨ c = 'E' := by
  rcases eq_or_of_toLower_eq h with heq | ⟨hupper, hadd⟩
  · exact Or.inl heq
  · refine Or.inr (Char.toNat_inj.mp ?_)
    change c.toNat + 32 = 101 at hadd
    show c.toNat = 69
    omega

/-- What a segment is whose lower case is a dot, percent-encoded. -/
lemma eq_of_map_toLower {s : List Char} (h : s.map Char.toLower = ['%', '2', 'e']) :
    s = ['%', '2', 'e'] ∨ s = ['%', '2', 'E'] := by
  obtain ⟨a, s, rfl, ha, h⟩ := List.map_eq_cons_iff.mp h
  obtain ⟨b, s, rfl, hb, h⟩ := List.map_eq_cons_iff.mp h
  obtain ⟨c, s, rfl, hc, h⟩ := List.map_eq_cons_iff.mp h
  obtain rfl := List.map_eq_nil_iff.mp h
  obtain rfl := eq_of_toLower_eq ha (by decide)
  obtain rfl := eq_of_toLower_eq hb (by decide)
  rcases eq_of_toLower_eq_e hc with rfl | rfl
  · exact Or.inl rfl
  · exact Or.inr rfl

/-- A dot is read in front of anything. -/
lemma percentDecode_append_of_isSingleDot {s : List Char} (h : isSingleDot s) (cs : List Char) :
    percentDecode (s ++ cs) = 46 :: percentDecode cs := by
  rw [isSingleDot, List.contains_iff_mem] at h
  rcases List.mem_pair.mp h with h | h
  · obtain ⟨a, t, rfl, ha, h⟩ := List.map_eq_cons_iff.mp h
    obtain rfl := List.map_eq_nil_iff.mp h
    obtain rfl := eq_of_toLower_eq ha (by decide)
    rw [List.singleton_append, percentDecode_cons (by decide)]
    rfl
  · rcases eq_of_map_toLower h with rfl | rfl
    · rfl
    · rfl

lemma percentDecode_of_isSingleDot {s : List Char} (h : isSingleDot s) :
    percentDecode s = [46] := by
  have happend := percentDecode_append_of_isSingleDot h []
  rwa [List.append_nil] at happend

/-- A double-dot segment is two single-dot segments in a row. -/
lemma exists_of_isDoubleDot {s : List Char} (h : isDoubleDot s) :
    ∃ t u, s = t ++ u ∧ isSingleDot t ∧ isSingleDot u := by
  have hsplit {a b : List Char} (ha : [['.'], ['%', '2', 'e']].contains a)
      (hb : [['.'], ['%', '2', 'e']].contains b) (hlow : s.map Char.toLower = a ++ b) :
      ∃ t u, s = t ++ u ∧ isSingleDot t ∧ isSingleDot u := by
    obtain ⟨t, u, rfl, rfl, rfl⟩ := List.map_eq_append_iff.mp hlow
    exact ⟨t, u, rfl, ha, hb⟩
  rw [isDoubleDot, List.contains_iff_mem] at h
  simp only [List.mem_cons, List.not_mem_nil, or_false] at h
  rcases h with h | h | h | h
  · exact hsplit (a := ['.']) (b := ['.']) rfl rfl h
  · exact hsplit (a := ['.']) (b := ['%', '2', 'e']) rfl rfl h
  · exact hsplit (a := ['%', '2', 'e']) (b := ['.']) rfl rfl h
  · exact hsplit (a := ['%', '2', 'e']) (b := ['%', '2', 'e']) rfl rfl h

lemma percentDecode_of_isDoubleDot {s : List Char} (h : isDoubleDot s) :
    percentDecode s = [46, 46] := by
  obtain ⟨t, u, rfl, ht, hu⟩ := exists_of_isDoubleDot h
  rw [percentDecode_append_of_isSingleDot ht, percentDecode_of_isSingleDot hu]

/-! ### The parts of a URL -/

/-- Tabs and line ends are no part of a URL. -/
def isTabOrNewline (c : Char) : Bool := c == '\t' || c == '\n' || c == '\r'

/-- The slashes of `http` and `https` are of both kinds. -/
def isSlash (c : Char) : Bool := c == '/' || c == '\\'

/-- What comes behind the path. -/
def endsPath (c : Char) : Bool := c == '?' || c == '#'

/-- What comes behind the authority. -/
def endsAuthority (c : Char) : Bool := isSlash c || endsPath c

/-- What is behind the scheme and its slashes. -/
def afterScheme (url : List Char) : List Char :=
  ((url.filter (!isTabOrNewline ·)).dropWhile (· != ':')).tail.dropWhile isSlash

/-- The authority. -/
def authority (url : List Char) : List Char := (afterScheme url).takeWhile (!endsAuthority ·)

/-- The path and what is behind it. -/
def afterAuthority (url : List Char) : List Char := (afterScheme url).dropWhile (!endsAuthority ·)

/-- The path as it is written. -/
def pathText (url : List Char) : List Char := (afterAuthority url).takeWhile (!endsPath ·)

/-- The query and the fragment. -/
def query (url : List Char) : List Char := (afterAuthority url).dropWhile (!endsPath ·)

/-- The path percent-encode set. -/
def inPathSet (c : Char) : Bool :=
  let n := c.toNat
  n ≤ 0x20 || 0x7E < n || n == 0x22 || n == 0x23 || n == 0x3C || n == 0x3E || n == 0x3F ||
    n == 0x5E || n == 0x60 || n == 0x7B || n == 0x7D

/-- A segment as it is requested. -/
def encodeSegment (s : List Char) : List Char :=
  s.flatMap fun c => if inPathSet c then (String.utf8EncodeChar c).flatMap escape else [c]

/-- The segments of a path as it is written, the dot segments among them. -/
def segments (text : List Char) : List (List Char) :=
  (text.tail.splitOnP isSlash).map encodeSegment

/-- The path, without dot segments. -/
def path (url : List Char) : List (List Char) := removeDots [] (segments (pathText url))

/-- The path under which what is appended to the URL lies. -/
def directory (url : List Char) : List (List Char) :=
  if pathText url = [] then [] else (segments (pathText url)).foldl descend []

/-! ### Segments behind a URL -/

/-- A character that stands for itself in a segment. -/
def IsPlain (c : Char) : Prop := isSlash c = false ∧ inPathSet c = false

instance (c : Char) : Decidable (IsPlain c) :=
  inferInstanceAs (Decidable (isSlash c = false ∧ inPathSet c = false))

/-- A segment that can be checked to be plain. -/
lemma isPlain_of_all {s : List Char} (h : s.all fun c => decide (IsPlain c)) :
    ∀ c ∈ s, IsPlain c := fun c hc => of_decide_eq_true (List.all_eq_true.mp h c hc)

/-- Segments with a slash in front of each. -/
def slashed (ss : List (List Char)) : List Char := ss.flatMap fun s => '/' :: s

lemma inPathSet_of_endsPath {c : Char} (h : endsPath c) : inPathSet c := by
  rcases Bool.or_eq_true_iff.mp h with h | h
  · rw [eq_of_beq h]
    rfl
  · rw [eq_of_beq h]
    rfl

lemma inPathSet_of_isTabOrNewline {c : Char} (h : isTabOrNewline c) : inPathSet c := by
  rcases Bool.or_eq_true_iff.mp h with h | h
  · rcases Bool.or_eq_true_iff.mp h with h | h
    · rw [eq_of_beq h]
      rfl
    · rw [eq_of_beq h]
      rfl
  · rw [eq_of_beq h]
    rfl

lemma IsPlain.endsPath {c : Char} (hc : IsPlain c) : endsPath c = false :=
  Bool.eq_false_iff.mpr fun h => Bool.eq_false_iff.mp hc.2 (inPathSet_of_endsPath h)

lemma IsPlain.isTabOrNewline {c : Char} (hc : IsPlain c) : isTabOrNewline c = false :=
  Bool.eq_false_iff.mpr fun h => Bool.eq_false_iff.mp hc.2 (inPathSet_of_isTabOrNewline h)

lemma encodeSegment_eq_self {s : List Char} (hs : ∀ c ∈ s, IsPlain c) : encodeSegment s = s := by
  induction s with
  | nil => rfl
  | cons c s ih =>
      rw [encodeSegment, List.flatMap_cons, ← encodeSegment,
        ih fun d hd => hs d (List.mem_cons_of_mem _ hd), (hs c List.mem_cons_self).2]
      rfl

lemma isPlain_hexDigit {n : ℕ} (hn : n < 16) : IsPlain (hexDigit n) := by
  interval_cases n <;> decide

/-- Percent-encoded text is plain if the characters that are kept are. -/
lemma isPlain_of_mem_percentEncode {keep : UInt8 → Bool}
    (hkeep : ∀ b, keep b → IsPlain (Char.ofNat b.toNat)) (bs : List UInt8) :
    ∀ c ∈ percentEncode keep bs, IsPlain c := by
  intro c hc
  obtain ⟨b, -, hcb⟩ := List.mem_flatMap.mp hc
  have hb : b.toNat < 256 := b.toNat_lt
  split_ifs at hcb with hkept
  · rw [List.mem_singleton.mp hcb]
    exact hkeep b hkept
  · simp only [escape, List.mem_cons, List.not_mem_nil, or_false] at hcb
    rcases hcb with rfl | rfl | rfl
    · decide
    · exact isPlain_hexDigit (by omega)
    · exact isPlain_hexDigit (by omega)

lemma splitOnP_append_slashed {ss : List (List Char)} (hss : ∀ s ∈ ss, ∀ c ∈ s, IsPlain c)
    (cs : List Char) : (cs ++ slashed ss).splitOnP isSlash = cs.splitOnP isSlash ++ ss := by
  induction ss generalizing cs with
  | nil => rw [slashed, List.flatMap_nil, List.append_nil, List.append_nil]
  | cons s ss ih =>
      have hplain := hss s List.mem_cons_self
      rw [slashed, List.flatMap_cons, ← slashed, List.cons_append,
        List.splitOnP_append_cons _ _ rfl, ih fun t ht => hss t (List.mem_cons_of_mem _ ht),
        List.splitOnP_eq_singleton fun c hc => (hplain c hc).1, List.singleton_append]

/-- What is known of the characters of appended segments. -/
lemma forall_mem_slashed {f : Char → Bool} (hslash : f '/' = false)
    (hplain : ∀ c, IsPlain c → f c = false) {ss : List (List Char)}
    (hss : ∀ s ∈ ss, ∀ c ∈ s, IsPlain c) : ∀ c ∈ slashed ss, f c = false := by
  intro c hc
  obtain ⟨s, hs, hcs⟩ := List.mem_flatMap.mp hc
  rcases List.mem_cons.mp hcs with rfl | hcs
  · exact hslash
  · exact hplain c (hss s hs c hcs)

lemma dropWhile_append_of_ne_nil {α : Type*} {p : α → Bool} {l : List α}
    (h : l.dropWhile p ≠ []) (m : List α) : (l ++ m).dropWhile p = l.dropWhile p ++ m := by
  rw [List.dropWhile_append, if_neg (by simpa using h)]

lemma afterScheme_append {url cs : List Char} (hurl : afterScheme url ≠ [])
    (hcs : ∀ c ∈ cs, isTabOrNewline c = false) :
    afterScheme (url ++ cs) = afterScheme url ++ cs := by
  have hkeep : cs.filter (!isTabOrNewline ·) = cs :=
    List.filter_eq_self.mpr fun c hc => by rw [hcs c hc]; rfl
  rw [afterScheme] at hurl
  have hscheme : (url.filter (!isTabOrNewline ·)).dropWhile (· != ':') ≠ [] := by
    intro hnil
    rw [hnil] at hurl
    exact hurl rfl
  rw [afterScheme, List.filter_append, hkeep, dropWhile_append_of_ne_nil hscheme,
    List.tail_append_of_ne_nil hscheme, dropWhile_append_of_ne_nil hurl, afterScheme]

/-- Slashes are nothing to begin an authority with. -/
lemma afterScheme_append_eq_nil {url cs : List Char} (hcs : ∀ c ∈ cs, c = '/')
    (h : afterScheme url = []) : afterScheme (url ++ cs) = [] := by
  have hdrop {p : Char → Bool} (hp : p '/') : cs.dropWhile p = [] :=
    List.dropWhile_eq_nil_iff.mpr fun c hc => by rw [hcs c hc, hp]
  have hkeep : cs.filter (!isTabOrNewline ·) = cs :=
    List.filter_eq_self.mpr fun c hc => by rw [hcs c hc]; rfl
  rw [afterScheme] at h ⊢
  rw [List.filter_append, hkeep, List.dropWhile_append]
  split_ifs with hscheme
  · rw [hdrop rfl]
    rfl
  · rw [List.tail_append_of_ne_nil (by simpa using hscheme), List.dropWhile_append, h,
      List.isEmpty_nil, if_pos rfl, hdrop rfl]

/-- A URL with an authority and nothing behind its path. -/
structure IsBase (url : List Char) : Prop where
  authority_ne_nil : authority url ≠ []
  query_eq_nil : query url = []

namespace IsBase

variable {url : List Char} {ss : List (List Char)}

lemma afterScheme_ne_nil (h : IsBase url) : afterScheme url ≠ [] := by
  intro hnil
  apply h.authority_ne_nil
  rw [authority, hnil, List.takeWhile_nil]

lemma pathText_eq (h : IsBase url) : pathText url = afterAuthority url := by
  have happend := List.takeWhile_append_dropWhile (p := (!endsPath ·)) (l := afterAuthority url)
  rwa [← query, h.query_eq_nil, List.append_nil] at happend

lemma afterAuthority_append (h : IsBase url) (hss : ∀ s ∈ ss, ∀ c ∈ s, IsPlain c) :
    afterAuthority (url ++ slashed ss) = afterAuthority url ++ slashed ss := by
  have htab : ∀ c ∈ slashed ss, isTabOrNewline c = false :=
    forall_mem_slashed rfl (fun c hc => hc.isTabOrNewline) hss
  rw [afterAuthority, afterScheme_append h.afterScheme_ne_nil htab, afterAuthority,
    List.dropWhile_append]
  split_ifs with hnil
  · -- the authority is the rest of the URL, and ends at the first slash
    rw [List.isEmpty_iff] at hnil
    rw [hnil, List.nil_append]
    cases ss with
    | nil => rfl
    | cons s ss => rfl
  · rfl

lemma pathText_append (h : IsBase url) (hss : ∀ s ∈ ss, ∀ c ∈ s, IsPlain c) :
    pathText (url ++ slashed ss) = pathText url ++ slashed ss := by
  have hend : ∀ c ∈ slashed ss, endsPath c = false :=
    forall_mem_slashed rfl (fun c hc => hc.endsPath) hss
  have hself : ∀ c ∈ afterAuthority url, (!endsPath c) = true :=
    List.dropWhile_eq_nil_iff.mp h.query_eq_nil
  rw [h.pathText_eq, pathText, h.afterAuthority_append hss, List.takeWhile_append_of_pos hself]
  congr 1
  rw [List.takeWhile_eq_self_iff]
  intro c hc
  rw [hend c hc]
  rfl

/-- **The path of a URL to which segments were appended.** -/
theorem path_append (h : IsBase url) (hne : ss ≠ []) (hss : ∀ s ∈ ss, ∀ c ∈ s, IsPlain c) :
    path (url ++ slashed ss) = removeDots (directory url) ss := by
  have hself : ss.map encodeSegment = ss := by
    rw [List.map_congr_left fun s hs => encodeSegment_eq_self (hss s hs), List.map_id']
  rw [path, segments, h.pathText_append hss, directory]
  cases hpath : pathText url with
  | nil =>
      obtain ⟨s, rest, rfl⟩ := List.exists_cons_of_ne_nil hne
      have hsplit : (slashed (s :: rest)).tail.splitOnP isSlash = s :: rest := by
        have hplain := hss s List.mem_cons_self
        rw [slashed, List.flatMap_cons, ← slashed, List.cons_append, List.tail_cons,
          splitOnP_append_slashed fun t ht => hss t (List.mem_cons_of_mem _ ht),
          List.splitOnP_eq_singleton fun c hc => (hplain c hc).1, List.singleton_append]
      rw [if_pos rfl, List.nil_append, hsplit, hself]
  | cons a text =>
      rw [if_neg (List.cons_ne_nil a text), List.cons_append, List.tail_cons,
        splitOnP_append_slashed hss, List.map_append, hself, removeDots_append _ _ hne, segments,
        List.tail_cons]

lemma query_eq_nil_iff : query url = [] ↔ ∀ c ∈ afterScheme url, endsPath c = false := by
  have happend :=
    List.takeWhile_append_dropWhile (p := (!endsAuthority ·)) (l := afterScheme url)
  rw [query, List.dropWhile_eq_nil_iff]
  constructor
  · intro hrest c hc
    rw [← happend, List.mem_append] at hc
    rcases hc with hc | hc
    · have hauth := List.mem_takeWhile_imp (p := (!endsAuthority ·)) hc
      simp only [endsAuthority, Bool.not_or, Bool.and_eq_true, Bool.not_eq_true'] at hauth
      exact hauth.2
    · simpa using hrest c hc
  · intro hall c hc
    have hmem : c ∈ afterScheme url := by
      rw [← happend]
      exact List.mem_append_right _ hc
    rw [hall c hmem]
    rfl

/-- Slashes behind a URL do not make it one. -/
lemma of_append {cs : List Char} (hcs : ∀ c ∈ cs, c = '/') (h : IsBase (url ++ cs)) :
    IsBase url := by
  have htab : ∀ c ∈ cs, isTabOrNewline c = false := by
    intro c hc
    rw [hcs c hc]
    rfl
  have hne : afterScheme url ≠ [] := fun hnil =>
    h.afterScheme_ne_nil (afterScheme_append_eq_nil hcs hnil)
  have hscheme := afterScheme_append hne htab
  constructor
  · have hauth := h.authority_ne_nil
    rw [authority, hscheme] at hauth
    obtain ⟨a, w, hw⟩ := List.exists_cons_of_ne_nil hne
    rw [hw, List.cons_append, List.takeWhile_cons] at hauth
    rw [authority, hw, List.takeWhile_cons]
    split_ifs at hauth ⊢ with ha
    · exact List.cons_ne_nil _ _
    · exact absurd rfl hauth
  · have hall := query_eq_nil_iff.mp h.query_eq_nil
    rw [hscheme] at hall
    exact query_eq_nil_iff.mpr fun c hc => hall c (List.mem_append_left _ hc)

end IsBase

end Url
