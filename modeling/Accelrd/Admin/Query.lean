import Mathlib.Tactic
import Accelrd.Library.Url
import Accelrd.Library.Utf8

/-!
`query_metric` of `src/admin/mutel.rs` and the route `/api/metrics/query/{name}` of
`src/admin/routes.rs`: the request that the console makes of the metric store for the metric
of a name.

* `urlencode`, `MutelClient.queryMetric`, `metricQuery`: the code.
* `StaysBelow`: the request is for one segment below the metrics of the store, and the name
  is read back from it.
* `staysBelow_iff`: the names for which this is so.
-/

namespace Accelrd.Admin

/-! ### The request -/

/-- The bytes that stand for themselves. -/
def isUnreserved (b : UInt8) : Bool :=
  (65 ≤ b && b ≤ 90) || (97 ≤ b && b ≤ 122) || (48 ≤ b && b ≤ 57) || b == 45 || b == 95 ||
    b == 46 || b == 126

/-- `urlencode`. -/
def urlencode (s : String) : String :=
  String.ofList (Url.percentEncode isUnreserved (Utf8.bytes s))

/-- `MetricQueryParams`. -/
structure MetricQueryParams where
  filter : Option String
  groupBy : Option String
  agg : Option String
  start : Option Int64
  end_ : Option Int64
  maxPoints : Option UInt32

/-- `MetricQueryParams::to_pairs`. -/
def MetricQueryParams.toPairs (p : MetricQueryParams) : List (String × String) :=
  (p.filter.map fun v => ("filter", v)).toList ++
    (p.groupBy.map fun v => ("group_by", v)).toList ++
    (p.agg.map fun v => ("agg", v)).toList ++
    (p.start.map fun v => ("start", toString v)).toList ++
    (p.end_.map fun v => ("end", toString v)).toList ++
    (p.maxPoints.map fun v => ("max_points", toString v)).toList

/-- `MutelClient`, with the base of its URLs. -/
structure MutelClient where
  base : String
  isBase : Url.IsBase base.toList

/-- `MutelClient::new`, for a URL without query and fragment: the slashes at its end are
trimmed. -/
def MutelClient.new (base : String) (h : Url.IsBase base.toList) : MutelClient where
  base := String.ofList (base.toList.rdropWhile (· == '/'))
  isBase := by
    rw [String.toList_ofList]
    have hslashes : ∀ c ∈ base.toList.rtakeWhile (· == '/'), c = '/' := fun c hc =>
      eq_of_beq (List.mem_rtakeWhile_imp (p := (· == '/')) hc)
    refine Url.IsBase.of_append hslashes ?_
    rw [List.rdropWhile_append_rtakeWhile]
    exact h

/-- The URL of a metric. -/
def MutelClient.queryUrl (c : MutelClient) (name : String) : String :=
  c.base ++ "/api/metrics/" ++ urlencode name

/-- The path of a request and the pairs of its query. -/
structure Request where
  path : List (List Char)
  query : List (String × String)

/-- `MutelClient::query_metric`, the request. The pairs are set on the parsed URL. -/
def MutelClient.queryMetric (c : MutelClient) (name : String) (params : MetricQueryParams) :
    Request :=
  { path := Url.path (c.queryUrl name).toList
    query := params.toPairs }

/-- `MetricQueryQs`. -/
structure MetricQueryQs where
  filter : Option String
  groupBy : Option String
  agg : Option String
  start : Option Int64
  end_ : Option Int64
  maxPoints : Option UInt32

/-- `metric_query`, the request it makes. -/
def metricQuery (c : MutelClient) (name : String) (qs : MetricQueryQs) : Request :=
  c.queryMetric name
    { filter := qs.filter
      groupBy := qs.groupBy
      agg := qs.agg
      start := qs.start
      end_ := qs.end_
      maxPoints := qs.maxPoints }

/-- The request stays in one segment below the metrics of the store, and that segment is
read back as the name. -/
def StaysBelow (c : MutelClient) (name : String) (qs : MetricQueryQs) : Prop :=
  Url.percentDecode (urlencode name).toList = Utf8.bytes name ∧
    ∃ seg, (metricQuery c name qs).path =
        Url.directory c.base.toList ++ ["api".toList, "metrics".toList, seg] ∧
      Url.percentDecode seg = Utf8.bytes name

/-! ### The segment of a name -/

/-- The bytes that stand for themselves are ASCII, not the percent sign, and plain. -/
lemma of_isUnreserved {b : UInt8} (hb : isUnreserved b) :
    (b < 128 ∧ b ≠ 37) ∧ Url.IsPlain (Char.ofNat b.toNat) := by
  have hall : ∀ n < 256, isUnreserved (UInt8.ofNat n) →
      (UInt8.ofNat n < 128 ∧ UInt8.ofNat n ≠ 37) ∧ Url.IsPlain (Char.ofNat n) := by
    decide +kernel
  have hself := hall b.toNat b.toNat_lt
  rw [UInt8.ofNat_toNat] at hself
  exact hself hb

/-- **The encoded name is read back.** -/
lemma percentDecode_urlencode (name : String) :
    Url.percentDecode (urlencode name).toList = Utf8.bytes name := by
  rw [urlencode, String.toList_ofList]
  exact Url.percentDecode_percentEncode (fun b hb => (of_isUnreserved hb).1) _

lemma isPlain_of_mem_urlencode (name : String) : ∀ c ∈ (urlencode name).toList, Url.IsPlain c := by
  rw [urlencode, String.toList_ofList]
  exact Url.isPlain_of_mem_percentEncode (fun b hb => (of_isUnreserved hb).2) _

/-- Only a dot is encoded as a single-dot segment. -/
lemma eq_of_isSingleDot {name : String} (h : Url.isSingleDot (urlencode name).toList) :
    name = "." := by
  rw [← Utf8.bytes_inj, ← percentDecode_urlencode, Url.percentDecode_of_isSingleDot h]
  rfl

/-- Only two dots are encoded as a double-dot segment. -/
lemma eq_of_isDoubleDot {name : String} (h : Url.isDoubleDot (urlencode name).toList) :
    name = ".." := by
  rw [← Utf8.bytes_inj, ← percentDecode_urlencode, Url.percentDecode_of_isDoubleDot h]
  rfl

section

variable (c : MutelClient) (name : String) (qs : MetricQueryQs)

lemma toList_queryUrl : (c.queryUrl name).toList = c.base.toList ++
    Url.slashed ["api".toList, "metrics".toList, (urlencode name).toList] := by
  have hpath : "/api/metrics/".toList =
      '/' :: "api".toList ++ '/' :: "metrics".toList ++ ['/'] := rfl
  rw [MutelClient.queryUrl, String.toList_append, String.toList_append, hpath]
  simp only [Url.slashed, List.flatMap_cons, List.flatMap_nil, List.append_assoc,
    List.cons_append, List.nil_append, List.append_nil]

/-- The path of the request, with the name still to be looked at as a dot segment. -/
lemma path_metricQuery : (metricQuery c name qs).path =
    Url.finish (Url.directory c.base.toList ++ ["api".toList] ++ ["metrics".toList])
      (urlencode name).toList := by
  have hplain : ∀ s ∈ ["api".toList, "metrics".toList, (urlencode name).toList], ∀ d ∈ s,
      Url.IsPlain d := by
    intro s hs
    simp only [List.mem_cons, List.not_mem_nil, or_false] at hs
    rcases hs with rfl | rfl | rfl
    · exact Url.isPlain_of_all (by decide)
    · exact Url.isPlain_of_all (by decide)
    · exact isPlain_of_mem_urlencode name
  show Url.path (c.queryUrl name).toList = _
  rw [toList_queryUrl, c.isBase.path_append (List.cons_ne_nil _ _) hplain, Url.removeDots,
    Url.removeDots, Url.removeDots, Url.descend_of_not_dots _ (by decide) (by decide),
    Url.descend_of_not_dots _ (by decide) (by decide)]

/-- For the name of one dot all metrics are requested. -/
lemma path_metricQuery_dot : (metricQuery c "." qs).path =
    Url.directory c.base.toList ++ ["api".toList, "metrics".toList, []] := by
  have hname : (urlencode ".").toList = ['.'] := by decide
  rw [path_metricQuery, hname, List.append_assoc, Url.finish, if_neg (by decide),
    if_pos (by decide), List.append_assoc]
  rfl

/-- For the name of two dots the segment of the metrics is gone as well. -/
lemma path_metricQuery_dots : (metricQuery c ".." qs).path =
    Url.directory c.base.toList ++ ["api".toList, []] := by
  have hname : (urlencode "..").toList = ['.', '.'] := by decide
  rw [path_metricQuery, hname, Url.finish, if_pos (by decide), List.dropLast_concat,
    List.append_assoc]
  rfl

end

/-- **The request stays in one segment, which is read back as the name, unless the name is
one dot or two.** -/
theorem staysBelow_iff (c : MutelClient) (name : String) (qs : MetricQueryQs) :
    StaysBelow c name qs ↔ name ≠ "." ∧ name ≠ ".." := by
  constructor
  · rintro ⟨-, seg, hpath, hseg⟩
    constructor
    · rintro rfl
      rw [path_metricQuery_dot] at hpath
      have hnil : seg = [] := by simpa using hpath.symm
      rw [hnil] at hseg
      exact absurd hseg (by decide)
    · rintro rfl
      rw [path_metricQuery_dots] at hpath
      have hlength := congrArg List.length (List.append_cancel_left hpath)
      simp only [List.length_cons, List.length_nil] at hlength
      omega
  · rintro ⟨hdot, hdots⟩
    refine ⟨percentDecode_urlencode name, (urlencode name).toList, ?_,
      percentDecode_urlencode name⟩
    have hdouble : Url.isDoubleDot (urlencode name).toList = false :=
      Bool.eq_false_iff.mpr fun h => hdots (eq_of_isDoubleDot h)
    have hsingle : Url.isSingleDot (urlencode name).toList = false :=
      Bool.eq_false_iff.mpr fun h => hdot (eq_of_isSingleDot h)
    rw [path_metricQuery, Url.finish_of_not_dots _ hdouble hsingle, List.append_assoc,
      List.append_assoc]
    rfl

/-- The store of an installation. -/
def store : MutelClient := MutelClient.new "http://mutel:8080/" ⟨by decide, by decide⟩

/-- For the name `..` the root of the API of the store is requested. -/
theorem twoDots_leave_metrics :
    (metricQuery store ".." ⟨none, none, none, none, none, none⟩).path = ["api".toList, []] ∧
      ¬ StaysBelow store ".." ⟨none, none, none, none, none, none⟩ := by
  have hpath : (metricQuery store ".." ⟨none, none, none, none, none, none⟩).path =
      ["api".toList, []] := by
    rw [path_metricQuery_dots]
    decide
  refine ⟨hpath, ?_⟩
  rintro ⟨-, seg, hstays, -⟩
  rw [hpath] at hstays
  have hlength := congrArg List.length hstays
  rw [List.length_append] at hlength
  simp only [List.length_cons, List.length_nil] at hlength
  omega

end Accelrd.Admin
