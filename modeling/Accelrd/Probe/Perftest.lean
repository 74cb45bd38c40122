import Mathlib.Tactic
import Accelrd.Library.Binary64
import Accelrd.Library.Words

/-!
`src/probe/perftest.rs`: the summary row in the output of `ib_send_bw`.

* `parse`: the code. `candidates` are the rows it looks at.
* `parse_eq_some_iff`: what is parsed is the summary row, `parseRow_eq_some_iff` word by
  word.
* `Layout`: where a summary stands in an output, by the marks of its header and the words of
  its row.
* `parse_layout`: a summary is found wherever it stands, and nothing is found where there is
  none.
* `FiniteFigures`: the figures of the summary row are numbers, and not too large.
-/

namespace Accelrd.Probe.Perftest

/-- `Summary`. -/
structure Summary where
  bytes : ℕ
  iterations : ℕ
  bwPeakGbps : Binary64
  bwAvgGbps : Binary64
  msgRateMpps : Binary64
  deriving DecidableEq

/-- `is_header`. -/
def isHeader (line : List Char) : Bool :=
  Text.contains line "#bytes" && Text.contains line "#iterations" && Text.contains line "MsgRate"

/-- A trimmed line between the header and the row. -/
def isSeparator (trimmed : List Char) : Bool :=
  trimmed.isEmpty || "---".toList.isPrefixOf trimmed

/-- The words of a row. -/
def rowWords (row : List Char) : List (List Char) := Text.words Text.isWhitespace row

/-- A figure of a row. -/
def parseFigure (word : List Char) : Option Binary64 := Binary64.parse (String.ofList word)

/-- `parse_row`. -/
def parseRow (row : List Char) : Option Summary :=
  match rowWords row with
  | bytes :: iterations :: bwPeak :: bwAvg :: msgRate :: _ => do
      let bytes ← Text.parseUnsigned 64 bytes
      let iterations ← Text.parseUnsigned 64 iterations
      let bwPeak ← parseFigure bwPeak
      let bwAvg ← parseFigure bwAvg
      let msgRate ← parseFigure msgRate
      some ⟨bytes, iterations, bwPeak, bwAvg, msgRate⟩
  | _ => none

/-- The line that is taken for the row, among the lines after a header. -/
def rowAfter (rest : List (List Char)) : Option (List Char) :=
  (rest.map Text.trim).find? fun trimmed => !isSeparator trimmed

/-- The rows that the code looks at: one for each header that has one. -/
def candidates : List (List Char) → List (List Char)
  | [] => []
  | line :: rest => (if isHeader line then (rowAfter rest).toList else []) ++ candidates rest

/-- The loops of `parse`. -/
def parseLines : List (List Char) → Option Summary
  | [] => none
  | line :: rest =>
      if isHeader line then
        match (rowAfter rest).bind parseRow with
        | some s => some s
        | none => parseLines rest
      else parseLines rest

/-- `parse`. -/
def parse (stdout : String) : Option Summary := parseLines (Text.lines stdout.toList)

/-- The row that the summary is read from. -/
def summaryRow (stdout : String) : Option (List Char) :=
  (candidates (Text.lines stdout.toList)).find? fun row => (parseRow row).isSome

lemma parseLines_eq (lines : List (List Char)) :
    parseLines lines = (candidates lines).findSome? parseRow := by
  induction lines with
  | nil => rfl
  | cons line rest ih =>
      rw [parseLines, candidates, ih, List.findSome?_append]
      by_cases hheader : isHeader line
      · rw [if_pos hheader, if_pos hheader]
        cases hrow : rowAfter rest with
        | none => rfl
        | some row => cases hs : parseRow row <;> simp [hs]
      · rw [if_neg hheader, if_neg hheader]
        rfl

/-- **What is parsed** is the summary row. -/
theorem parse_eq_some_iff {stdout : String} {s : Summary} :
    parse stdout = some s ↔ ∃ row, summaryRow stdout = some row ∧ parseRow row = some s := by
  have hfind (rows : List (List Char)) : rows.findSome? parseRow =
      (rows.find? fun row => (parseRow row).isSome).bind parseRow := by
    induction rows with
    | nil => rfl
    | cons row rows ih => cases h : parseRow row <;> simp [h, ih]
  rw [parse, parseLines_eq, hfind, Option.bind_eq_some_iff, summaryRow]

/-- The words of a row that is accepted. -/
lemma parseRow_eq_some_iff {row : List Char} {s : Summary} :
    parseRow row = some s ↔ ∃ bytes iterations bwPeak bwAvg msgRate rest,
      rowWords row = bytes :: iterations :: bwPeak :: bwAvg :: msgRate :: rest ∧
      Text.parseUnsigned 64 bytes = some s.bytes ∧
      Text.parseUnsigned 64 iterations = some s.iterations ∧
      parseFigure bwPeak = some s.bwPeakGbps ∧ parseFigure bwAvg = some s.bwAvgGbps ∧
      parseFigure msgRate = some s.msgRateMpps := by
  obtain ⟨b, i, p, a, m⟩ := s
  rw [parseRow]
  split
  · rename_i bytes iterations bwPeak bwAvg msgRate rest hwords
    simp only [hwords, List.cons.injEq, Option.bind_eq_bind, Option.bind_eq_some_iff,
      Option.some.injEq, Summary.mk.injEq]
    constructor
    · rintro ⟨_, hb, _, hi, _, hp, _, ha, _, hm, rfl, rfl, rfl, rfl, rfl⟩
      exact ⟨_, _, _, _, _, _, ⟨rfl, rfl, rfl, rfl, rfl, rfl⟩, hb, hi, hp, ha, hm⟩
    · rintro ⟨_, _, _, _, _, _, ⟨rfl, rfl, rfl, rfl, rfl, rfl⟩, hb, hi, hp, ha, hm⟩
      exact ⟨_, hb, _, hi, _, hp, _, ha, _, hm, rfl, rfl, rfl, rfl, rfl⟩
  · rename_i hwords
    refine iff_of_false (by simp) ?_
    rintro ⟨bytes, iterations, bwPeak, bwAvg, msgRate, rest, heq, -⟩
    exact hwords _ _ _ _ _ _ heq

/-- The three words of a row that are read as figures. -/
def figureWords (row : List Char) : List (List Char) := ((rowWords row).drop 2).take 3

/-- The word is read as a double that is neither infinite nor not a number: it is not one of
the words for these, and as a decimal it is not too large. -/
def FiniteFigure (word : List Char) : Prop := ∃ x, parseFigure word = some x ∧ ¬ x.isSpecial

/-- The figures of the summary row are finite. -/
def FiniteFigures (stdout : String) : Prop :=
  ∀ row, summaryRow stdout = some row → ∀ word ∈ figureWords row, FiniteFigure word

/-- What the words say of the figures. -/
lemma finiteFigures_iff {stdout : String} {s : Summary} (h : parse stdout = some s) :
    FiniteFigures stdout ↔
      ¬ s.bwPeakGbps.isSpecial ∧ ¬ s.bwAvgGbps.isSpecial ∧ ¬ s.msgRateMpps.isSpecial := by
  obtain ⟨row, hrow, hs⟩ := parse_eq_some_iff.mp h
  obtain ⟨bytes, iterations, bwPeak, bwAvg, msgRate, rest, hwords, -, -, hp, ha, hm⟩ :=
    parseRow_eq_some_iff.mp hs
  have hfigures : figureWords row = [bwPeak, bwAvg, msgRate] := by rw [figureWords, hwords]; rfl
  simp only [FiniteFigures, hrow, Option.some.injEq, forall_eq', hfigures, List.forall_mem_cons,
    List.not_mem_nil, IsEmpty.forall_iff, implies_true, and_true, FiniteFigure, hp, ha, hm,
    exists_eq_left']

/-- The size of a message fits into its type. -/
lemma bytes_lt_of_parse {stdout : String} {s : Summary} (h : parse stdout = some s) :
    s.bytes < 2 ^ 64 := by
  obtain ⟨row, -, hs⟩ := parse_eq_some_iff.mp h
  obtain ⟨bytes, -, -, -, -, -, -, hb, -⟩ := parseRow_eq_some_iff.mp hs
  exact Text.parseUnsigned_lt hb

/-! ### Where the summary stands -/

/-- A line with the three marks of a header. -/
def IsHeader (line : List Char) : Prop :=
  ∀ mark ∈ ["#bytes", "#iterations", "MsgRate"], mark.toList <:+: line

/-- A line with nothing but space, or with a rule behind it. -/
def IsGap (line : List Char) : Prop :=
  Text.Blank line ∨ ∃ front rest, Text.Blank front ∧ line = front ++ "---".toList ++ rest

/-- A line that begins with words for the values of a summary. -/
def IsRow (row : List Char) (s : Summary) : Prop :=
  ∃ bytes iterations bwPeak bwAvg msgRate,
    Text.BeginsWith Text.isWhitespace [bytes, iterations, bwPeak, bwAvg, msgRate] row ∧
    Text.parseUnsigned 64 bytes = some s.bytes ∧
    Text.parseUnsigned 64 iterations = some s.iterations ∧
    parseFigure bwPeak = some s.bwPeakGbps ∧ parseFigure bwAvg = some s.bwAvgGbps ∧
    parseFigure msgRate = some s.msgRateMpps

/-- After the given lines there are a header, blank lines and rules, and a row. -/
def Layout (lines before : List (List Char)) (s : Summary) : Prop :=
  ∃ header gaps row rest, lines = before ++ header :: (gaps ++ row :: rest) ∧
    IsHeader header ∧ (∀ gap ∈ gaps, IsGap gap) ∧ IsRow row s

lemma isHeader_iff {line : List Char} : isHeader line ↔ IsHeader line := by
  rw [isHeader, Bool.and_eq_true, Bool.and_eq_true, and_assoc, IsHeader, List.forall_mem_cons,
    List.forall_mem_cons, List.forall_mem_singleton]
  simp only [Text.contains, decide_eq_true_eq]

lemma isSeparator_trim_iff {line : List Char} : isSeparator (Text.trim line) ↔ IsGap line := by
  have hdashes : Text.Trimmed "---".toList :=
    Text.trimmed_of_forall (Text.not_separates_of_all (by decide))
  rw [isSeparator, Bool.or_eq_true, List.isEmpty_iff, Text.trim_eq_nil_iff,
    List.isPrefixOf_iff_prefix, Text.prefix_trim_iff (by decide) hdashes, IsGap]

/-- The space around a row does not matter. -/
lemma parseRow_trim (row : List Char) : parseRow (Text.trim row) = parseRow row := by
  rw [parseRow, parseRow, rowWords, rowWords, Text.words_trim]

lemma parseRow_trim_eq_some_iff {row : List Char} {s : Summary} :
    parseRow (Text.trim row) = some s ↔ IsRow row s := by
  rw [parseRow_trim, parseRow_eq_some_iff, IsRow]
  refine exists₅_congr fun bytes iterations bwPeak bwAvg msgRate => ?_
  rw [Text.beginsWith_iff, exists_and_right]
  exact and_congr_left fun _ => ⟨fun ⟨rest, h⟩ => ⟨rest, h.symm⟩, fun ⟨rest, h⟩ => ⟨rest, h.symm⟩⟩

/-- A row begins with a number: it is neither blank nor a rule. -/
lemma IsRow.not_isSeparator {row : List Char} {s : Summary} (h : IsRow row s) :
    isSeparator (Text.trim row) = false := by
  obtain ⟨bytes, iterations, bwPeak, bwAvg, msgRate, rest, hwords, hbytes, -⟩ :=
    parseRow_eq_some_iff.mp (parseRow_trim_eq_some_iff.mpr h)
  rw [rowWords] at hwords
  cases htrim : Text.trim row with
  | nil =>
      rw [htrim] at hwords
      exact absurd hwords (by simp)
  | cons c cs =>
      rw [htrim] at hwords
      have hdash : c ≠ '-' := by
        rintro rfl
        obtain ⟨w, ws, hw⟩ := @Text.exists_words_cons Text.isWhitespace '-' (by decide) cs
        obtain ⟨rfl, -⟩ := List.cons.inj (hw.symm.trans hwords)
        exact absurd hbytes (by simp [Text.parseUnsigned])
      simp [isSeparator, List.isPrefixOf, Ne.symm hdash]

/-- The line after the blank lines and rules. -/
lemma rowAfter_append {gaps rest : List (List Char)} {row : List Char}
    (hgaps : ∀ gap ∈ gaps, IsGap gap) (hrow : isSeparator (Text.trim row) = false) :
    rowAfter (gaps ++ row :: rest) = some (Text.trim row) := by
  induction gaps with
  | nil => simp [rowAfter, hrow]
  | cons gap gaps ih =>
      rw [List.forall_mem_cons] at hgaps
      rw [← ih hgaps.2]
      simp [rowAfter, isSeparator_trim_iff.mpr hgaps.1]

lemma rowAfter_eq_some {lines : List (List Char)} {t : List Char} (h : rowAfter lines = some t) :
    ∃ gaps row rest, lines = gaps ++ row :: rest ∧ Text.trim row = t ∧ ∀ gap ∈ gaps, IsGap gap := by
  induction lines with
  | nil => exact absurd h (by simp [rowAfter])
  | cons line lines ih =>
      cases hline : isSeparator (Text.trim line) with
      | true =>
          have hnext : rowAfter (line :: lines) = rowAfter lines := by simp [rowAfter, hline]
          obtain ⟨gaps, row, rest, rfl, hrow, hgaps⟩ := ih (hnext ▸ h)
          exact ⟨line :: gaps, row, rest, rfl, hrow,
            List.forall_mem_cons.mpr ⟨isSeparator_trim_iff.mp hline, hgaps⟩⟩
      | false =>
          have hhere : rowAfter (line :: lines) = some (Text.trim line) := by
            simp [rowAfter, hline]
          exact ⟨[], line, lines, rfl, Option.some.inj (hhere.symm.trans h),
            List.forall_mem_nil _⟩

/-- The rows that are looked at stand after a header. -/
lemma mem_candidates_iff {lines : List (List Char)} {t : List Char} :
    t ∈ candidates lines ↔ ∃ before header rest, lines = before ++ header :: rest ∧
      IsHeader header ∧ rowAfter rest = some t := by
  induction lines with
  | nil => simp [candidates]
  | cons line lines ih =>
      rw [candidates, List.mem_append, ih]
      constructor
      · rintro (h | ⟨before, header, rest, rfl, hheader, hrow⟩)
        · split_ifs at h with hline
          · exact ⟨[], line, lines, rfl, isHeader_iff.mp hline, Option.mem_toList.mp h⟩
          · exact absurd h List.not_mem_nil
        · exact ⟨line :: before, header, rest, rfl, hheader, hrow⟩
      · rintro ⟨before, header, rest, heq, hheader, hrow⟩
        cases before with
        | nil =>
            obtain ⟨rfl, rfl⟩ := List.cons.inj heq
            rw [if_pos (isHeader_iff.mpr hheader)]
            exact Or.inl (Option.mem_toList.mpr hrow)
        | cons first before =>
            obtain ⟨rfl, rfl⟩ := List.cons.inj heq
            exact Or.inr ⟨before, header, rest, rfl, hheader, hrow⟩

/-- The first header of an output decides if a row follows it. -/
lemma parseLines_of_layout {lines before : List (List Char)} {s : Summary}
    (hbefore : ∀ line ∈ before, ¬IsHeader line) (h : Layout lines before s) :
    parseLines lines = some s := by
  obtain ⟨header, gaps, row, rest, rfl, hheader, hgaps, hrow⟩ := h
  induction before with
  | nil =>
      rw [List.nil_append, parseLines, if_pos (isHeader_iff.mpr hheader),
        rowAfter_append hgaps hrow.not_isSeparator, Option.bind_some,
        parseRow_trim_eq_some_iff.mpr hrow]
  | cons line before ih =>
      rw [List.forall_mem_cons] at hbefore
      rw [List.cons_append, parseLines, if_neg (isHeader_iff.not.mpr hbefore.1), ih hbefore.2]

/-- Nothing is found where no header is followed by a row. -/
lemma parseLines_eq_none_iff {lines : List (List Char)} :
    parseLines lines = none ↔ ¬∃ before s, Layout lines before s := by
  rw [parseLines_eq, List.findSome?_eq_none_iff]
  constructor
  · rintro h ⟨before, s, header, gaps, row, rest, hlines, hheader, hgaps, hrow⟩
    have hmem := mem_candidates_iff.mpr ⟨before, header, gaps ++ row :: rest, hlines, hheader,
      rowAfter_append hgaps hrow.not_isSeparator⟩
    have hnone := h _ hmem
    rw [parseRow_trim_eq_some_iff.mpr hrow] at hnone
    exact absurd hnone (by simp)
  · intro h t ht
    obtain ⟨before, header, after, hlines, hheader, hafter⟩ := mem_candidates_iff.mp ht
    obtain ⟨gaps, row, rest, rfl, rfl, hgaps⟩ := rowAfter_eq_some hafter
    by_contra hsome
    obtain ⟨s, hs⟩ := Option.ne_none_iff_exists'.mp hsome
    exact h ⟨before, s, header, gaps, row, rest, hlines, hheader, hgaps,
      parseRow_trim_eq_some_iff.mp hs⟩

/-- **The summary is found in any output**: its values are those of the row after the first
header, whatever stands before, between and after, and nothing is parsed just if no header
is followed by a row. -/
theorem parse_layout (stdout : String) :
    (∀ before s, (∀ line ∈ before, ¬IsHeader line) →
      Layout (Text.lines stdout.toList) before s → parse stdout = some s) ∧
    (parse stdout = none ↔ ¬∃ before s, Layout (Text.lines stdout.toList) before s) :=
  ⟨fun _ _ hbefore h => parseLines_of_layout hbefore h, parseLines_eq_none_iff⟩

/-- The end of an output of `ib_send_bw`, with a rule and a blank line before its row. -/
def sampleOutput : String :=
  String.join [" GID: 00:00:255:255:10:00:00:02\n----------------\n",
    " #bytes     #iterations    BW peak[Gb/sec]    BW average[Gb/sec]   MsgRate[Mpps]\n",
    "----------------\n\n 65536      5000             89.60              89.40      0.179173\n",
    "----------------\n"]

/-- The values of its row. -/
def sampleSummary : Summary where
  bytes := 65536
  iterations := 5000
  bwPeakGbps := Binary64.ofDecimal false 8960 (-2)
  bwAvgGbps := Binary64.ofDecimal false 8940 (-2)
  msgRateMpps := Binary64.ofDecimal false 179173 (-6)

/-- They are found; where the output ends with the header there are none. -/
theorem parse_sampleOutput :
    parse sampleOutput = some sampleSummary ∧ parse " #bytes #iterations MsgRate\n" = none := by
  obtain ⟨hfound, -⟩ := parse_layout sampleOutput
  obtain ⟨-, hnone⟩ := parse_layout " #bytes #iterations MsgRate\n"
  let header := " #bytes     #iterations    BW peak[Gb/sec]    BW average[Gb/sec]   MsgRate[Mpps]"
  let row := " 65536      5000             89.60              89.40      0.179173"
  have hlines : Text.lines sampleOutput.toList =
      [" GID: 00:00:255:255:10:00:00:02".toList, "----------------".toList] ++ header.toList ::
        (["----------------".toList, []] ++ row.toList :: ["----------------".toList]) := by
    rw [sampleOutput, String.toList_join]
    decide +kernel
  constructor
  · refine hfound _ sampleSummary ?_ ⟨_, _, _, _, hlines, ?_, ?_, ?_⟩
    · intro line hline
      rw [← isHeader_iff]
      revert line hline
      decide +kernel
    · rw [← isHeader_iff]
      decide +kernel
    · refine List.forall_mem_cons.mpr ⟨Or.inr ⟨[], "-------------".toList, ?_, rfl⟩, ?_⟩
      · exact List.forall_mem_nil _
      · exact List.forall_mem_singleton.mpr (Or.inl (List.forall_mem_nil _))
    · refine ⟨"65536".toList, "5000".toList, "89.60".toList, "89.40".toList, "0.179173".toList,
        Text.beginsWith_iff.mpr ?_, ?_, ?_, ?_, ?_, ?_⟩
      all_goals decide +kernel
  · rw [hnone]
    rintro ⟨before, s, header, gaps, row, rest, heq, -⟩
    have hlength := congrArg List.length heq
    have hone : (Text.lines " #bytes #iterations MsgRate\n".toList).length = 1 := by decide +kernel
    rw [hone] at hlength
    simp only [List.length_append, List.length_cons] at hlength
    omega

end Accelrd.Probe.Perftest
