import Mathlib.Tactic
import Accelrd.Library.Boxes
import Accelrd.Library.Rollup
import Accelrd.Library.Sorting
import Accelrd.Admin.Console
import Accelrd.Admin.Node
import Accelrd.Admin.Utilization

/-!
`static/admin/js/topology.js`: the picture of the racks and their nodes. Numbers are exact,
and texts are their UTF-16 code units, by which the script counts and compares.

* `renderNode`, `groupByRack`, `render`: the code. `localeCompare` and the texts of built-in
  functions (`NativeText`) are parameters.
* `Drawn`: what is asked of the picture.
* `drawn_render`: every picture of a cluster that has nodes is like that.
* `render_perm`: the picture does not depend on the order in which the nodes are listed.
-/

namespace Accelrd.Admin

open Boxes Prober Rollup

/-! ### Texts -/

/-- A string of the script. -/
abbrev JsString : Type := List ℕ

/-- The code units of a character. -/
def unitsOf (c : Char) : JsString :=
  if c.toNat < 0x10000 then [c.toNat]
  else [0xd800 + (c.toNat - 0x10000) / 0x400, 0xdc00 + (c.toNat - 0x10000) % 0x400]

/-- The code units of a text. -/
def utf16 (s : String) : JsString := s.toList.flatMap unitsOf

/-- `truncate`. -/
def truncate (s : JsString) (n : ℕ) : JsString :=
  if s.length ≤ n then s else s.take (n - 1) ++ utf16 "…"

/-- `toFixed` with one digit, for numbers below `10 ^ 21` that are not negative. -/
def toFixed1 (x : ℚ) : String :=
  toString (⌊x * 10 + 1 / 2⌋₊ / 10) ++ "." ++ toString (⌊x * 10 + 1 / 2⌋₊ % 10)

/-- The loop of `fmtBytes`, over the units that are left. -/
def scaleBytes : ℚ → List String → ℚ × String
  | v, [] => (v, "")
  | v, [unit] => (v, unit)
  | v, unit :: larger => if v ≥ 1024 then scaleBytes (v / 1024) larger else (v, unit)

/-- `fmtBytes`, of a number. -/
def topologyBytes (n : ℚ) : String :=
  let (v, unit) := scaleBytes |n| ["B", "KiB", "MiB", "GiB", "TiB", "PiB"]
  (if v ≥ 100 then toFixed0 v else toFixed1 v) ++ " " ++ unit

/-! ### Shapes -/

/-- What an SVG is made of, with the attributes that do not say where it is. -/
inductive Shape where
  | rect (box : Box) (attrs : List (String × String))
  | text (x y : ℚ) (attrs : List (String × String)) (content : JsString)
  | title (content : JsString)

/-- A shape in a group with a `translate`. -/
def Shape.move (dx dy : ℚ) : Shape → Shape
  | .rect box attrs => .rect (box.move dx dy) attrs
  | .text x y attrs content => .text (x + dx) (y + dy) attrs content
  | .title content => .title content

/-- A group with a `translate`. -/
def group (x y : ℚ) (children : List Shape) : List Shape := children.map (Shape.move x y)

/-- The boxes of the rectangles. -/
def Shape.box : Shape → Option Box
  | .rect box _ => some box
  | _ => none

/-- The boxes of the rectangles in a group. -/
def boxesOf (shapes : List Shape) : List Box := shapes.filterMap Shape.box

/-- An SVG, with one entry for each child. -/
structure Svg where
  width : ℚ
  height : ℚ
  children : List (List Shape)

/-- `COL_W`. -/
def colW : ℚ := 240

/-- `NODE_H`. -/
def nodeH : ℚ := 108

/-- `NODE_GAP`. -/
def nodeGap : ℚ := 12

/-- `COL_GAP`. -/
def colGap : ℚ := 36

/-- `PAD`. -/
def pad : ℚ := 24

/-- `HEADER_H`. -/
def headerH : ℚ := 36

/-! ### A card -/

/-- How the engine prints a function that is built in. -/
class NativeText where
  text : String → String

/-- With the blanks that most engines put. -/
instance oneLine : NativeText where
  text name := "function " ++ name ++ "() { [native code] }"

/-- What an object inherits from `Object.prototype` under a key, as the text that an attribute
is set to. -/
def inherited [NativeText] (key : String) : Option String :=
  if key = "__proto__" then some "[object Object]"
  else if key = "constructor" then some (NativeText.text "Object")
  else if key ∈ ["hasOwnProperty", "isPrototypeOf", "propertyIsEnumerable", "toLocaleString",
      "toString", "valueOf", "__defineGetter__", "__defineSetter__", "__lookupGetter__",
      "__lookupSetter__"] then
    some (NativeText.text key)
  else none

/-- `VERDICT_COLOR[v]`, which also finds what is inherited. -/
def verdictColor [NativeText] : String → Option String
  | "pass" | "ok" => some "#99c794"
  | "fail" | "error" => some "#ec5f67"
  | v => inherited v

/-- `nodeColor`. -/
def nodeColor [NativeText] (node : NodeView) : String :=
  let v := node.lastProbe.bind (·.verdict)
  if !node.rdmaCapable then
    match v with
    | some "ok" | some "pass" => "#7a8db4"
    | some "fail" | some "error" => "#ec5f67"
    | _ => "#3a3f5e"
  else (v.bind verdictColor).getD "#fac863"

/-- `stripeColor`. -/
def stripeColor [NativeText] (node : NodeView) : String :=
  if !node.rdmaCapable then "#5e6480" else nodeColor node

/-- `verdictLabel`. -/
def verdictLabel (node : NodeView) : String :=
  match node.lastProbe with
  | none => "untested"
  | some p =>
      let v := textOr p.verdict "untested"
      if p.source = .preflight then
        if v = "ok" ∨ v = "pass" then "no rdma" else v ++ " · no rdma"
      else v ++ " · rdma"

/-- `chip`. -/
def chip (x y : ℚ) (label : String) (count : ℕ) : List Shape :=
  group x y [
    .rect ⟨0, 0, 64, 18⟩ [("rx", "3"), ("fill", "#1a2456"), ("stroke", "#5e46c1"),
      ("stroke-width", "1")],
    .text 32 13 [("text-anchor", "middle"),
      ("font-family", "SF Mono, Cascadia Code, monospace"), ("font-size", "10"),
      ("fill", "#c0c5ce")] (utf16 (label ++ " " ++ toString count))]

/-- `tempColor`. -/
def tempColor : Option ℚ → String
  | none => "#65737e"
  | some c => if c ≥ 90 then "#ec5f67" else if c ≥ 80 then "#fac863" else "#99c794"

/-- `Object.keys(node.vendor_counts || {}).sort()`, with the counts. -/
def sortedVendors (node : NodeView) : List (String × ℕ) :=
  sortBy (fun a b => compare (utf16 a.1) (utf16 b.1)) node.vendorCounts.toList

/-- The loop over the vendors. -/
def chips : ℚ → List (String × ℕ) → List Shape
  | _, [] => []
  | cx, (v, count) :: rest => chip cx 48 v count ++
      if cx + 70 + 64 > colW - 12 then [] else chips (cx + 70) rest

/-- A text of the row with the live metrics. -/
def liveText (x : ℚ) (fill content : String) : Shape :=
  .text x 82 [("font-family", "SF Mono, Cascadia Code, monospace"), ("font-size", "10"),
    ("fill", fill)] (utf16 content)

/-- The text of the power. -/
def powerText : Option ℚ → String
  | none => "— W"
  | some p => if p ≥ 1000 then toFixed1 (p / 1000) ++ "kW" else toFixed0 p ++ "W"

/-- `memUsed / memTotal`, at least zero and at most one. -/
def memFrac (used total : ℚ) : ℚ := max 0 (min 1 (used / total))

/-- The bar of the accelerator memory. -/
def memoryBar (live : Option NodeFleetMetrics) : List Shape :=
  let total := (live.bind (·.memTotalBytes)).getD 0
  let used := (live.bind (·.memUsedBytes)).getD 0
  let barW := colW - 24
  .rect ⟨12, 92, barW, 8⟩ [("rx", "2"), ("fill", "#1a2456"), ("stroke", "#2d1b5e")] ::
    if total > 0 then
      let frac := memFrac used total
      [.rect ⟨12, 92, barW * frac, 8⟩ [("rx", "2"),
          ("fill", if frac ≥ 9 / 10 then "#ec5f67" else if frac ≥ 3 / 4 then "#fac863"
            else "#3bb1bc")],
        .text (colW - 12) 91 [("text-anchor", "end"),
          ("font-family", "SF Mono, Cascadia Code, monospace"), ("font-size", "9"),
          ("fill", "#65737e")] (utf16 (topologyBytes used ++ " / " ++ topologyBytes total))]
    else []

/-- The bottom row: the reason of a failure, else the bar. -/
def bottomRow (node : NodeView) (live : Option NodeFleetMetrics) : List Shape :=
  let verdict := node.lastProbe.bind (·.verdict)
  let reason := (node.lastProbe.bind (·.reason)).filter (· ≠ "")
  let isFail := verdict = some "fail" ∨ verdict = some "error" ∨ verdict = some "degraded"
  match reason with
  | some reason =>
      if isFail then
        [.text 12 99 [("font-family", "SF Mono, Cascadia Code, monospace"), ("font-size", "9"),
          ("fill", "#ec5f67")] (truncate (utf16 reason) 38)]
      else memoryBar live
  | none => memoryBar live

/-- The badge of a node without RDMA. -/
def badge : List Shape :=
  group (colW - 64) 6 [
    .rect ⟨0, 0, 56, 14⟩ [("rx", "7"), ("fill", "#1a2456"), ("stroke", "#5e6480")],
    .text 28 10 [("text-anchor", "middle"),
      ("font-family", "SF Mono, Cascadia Code, monospace"), ("font-size", "9"),
      ("fill", "#a7adba")] (utf16 "no-rdma")]

/-- What `renderNode` puts into the group of a node. -/
def cardShapes [NativeText] (node : NodeView) (live : Option NodeFleetMetrics) : List Shape :=
  let dimmed := !node.rdmaCapable
  let tip := node.name ++ ": " ++ verdictLabel node
  let reason := (node.lastProbe.bind (·.reason)).filter (· ≠ "")
  [.rect ⟨0, 0, colW, nodeH⟩ [("rx", "4"), ("fill", if dimmed then "#0c1438" else "#0f1b4c"),
      ("stroke", nodeColor node), ("stroke-width", "1.5"),
      ("stroke-dasharray", if dimmed then "4 3" else "")],
    .rect ⟨0, 0, 4, nodeH⟩ [("rx", "2"), ("fill", stripeColor node)],
    .text 12 18 [("font-family", "SF Mono, Cascadia Code, monospace"), ("font-size", "12"),
      ("font-weight", "700"), ("fill", if dimmed then "#8d93a8" else "#c0c5ce")]
      (utf16 node.name)] ++
  (if dimmed then badge else []) ++
  [.text 12 34 [("font-family", "SF Pro Text, sans-serif"), ("font-size", "11"),
      ("fill", "#a7adba")]
      (utf16 (toString (node.totalAccelerators.getD 0) ++ " accel · " ++
        toString node.fabricDomains ++ " fab · " ++ verdictLabel node))] ++
  chips 12 (sortedVendors node) ++
  [liveText 12 (tempColor (live.bind (·.tempC)))
      ((live.bind (·.tempC)).elim "— °C" fun c => toFixed0 c ++ "°C"),
    liveText 60 "#a7adba" (powerText (live.bind (·.powerWatts))),
    liveText 110 "#a7adba" (nodeCardUtil live)] ++
  bottomRow node live ++
  [.title (utf16 (reason.elim tip fun reason => tip ++ "\n" ++ reason))]

/-- `renderNode`. -/
def renderNode [NativeText] (node : NodeView) (live : Option NodeFleetMetrics) (x y : ℚ) :
    List Shape :=
  group x y (cardShapes node live)

/-- `renderRackHeader`. -/
def renderRackHeader (label : String) (x y w : ℚ) : List Shape :=
  group x y [
    .rect ⟨0, 0, w, headerH - 8⟩ [("rx", "3"), ("fill", "#1a2456"), ("stroke", "#6b5cb7")],
    .text (w / 2) 18 [("text-anchor", "middle"),
      ("font-family", "SF Mono, Cascadia Code, monospace"), ("font-size", "12"),
      ("font-weight", "700"), ("fill", "#7ee8e3")] (utf16 label)]

/-! ### The page -/

/-- `n.rack`, if it is truthy. -/
def rackOf (n : NodeView) : Option String := n.rack.filter (· ≠ "")

/-- A column, by its label and its nodes. -/
abbrev Column : Type := String × List NodeView

section Script

variable (localeCompare : String → String → Ordering)

/-- `ns.sort((a, b) => a.name.localeCompare(b.name))`. -/
def sortNodes (ns : List NodeView) : List NodeView :=
  sortBy (fun a b => localeCompare a.name b.name) ns

/-- The columns of the racks, `[...buckets.entries()].sort(…)`. -/
def rackColumns (nodes : List NodeView) : List Column :=
  sortBy (fun a b => localeCompare a.1 b.1)
    (arrivals (nodes.filterMap fun n => (rackOf n).map (·, n)))

/-- `groupByRack`. -/
def groupByRack (nodes : List NodeView) : List Column :=
  let unassigned := nodes.filter fun n => rackOf n = none
  let cols := rackColumns localeCompare nodes ++
    if unassigned.length > 0 then [("(no rack)", unassigned)] else []
  cols.map fun c => (c.1, sortNodes localeCompare c.2)

/-- `byNode[n.name]`. -/
abbrev Live : Type := String → Option NodeFleetMetrics

variable (byNode : Live)

/-- The inner loop of `render`. -/
def renderColumn [NativeText] (x : ℚ) : ℚ → List NodeView → List (List Shape)
  | _, [] => []
  | y, n :: ns => renderNode n (byNode n.name) x y :: renderColumn x (y + (nodeH + nodeGap)) ns

/-- The outer loop of `render`. -/
def renderColumns [NativeText] : ℚ → List Column → List (List Shape)
  | _, [] => []
  | x, (rack, ns) :: cols => renderRackHeader rack x pad colW ::
      renderColumn byNode x (pad + headerH) ns ++ renderColumns (x + (colW + colGap)) cols

/-- What is drawn if there is no node. -/
def placeholder : Svg where
  width := 320
  height := 80
  children := [[.text 160 44 [("text-anchor", "middle"), ("font-family", "SF Pro Text, sans-serif"),
    ("font-size", "13"), ("fill", "#65737e")] (utf16 "No nodes to render")]]

/-- `render`. -/
def render [NativeText] (nodes : List NodeView) : Svg :=
  if nodes.length = 0 then placeholder
  else
    let cols := groupByRack localeCompare nodes
    let tallest : ℕ := cols.foldl (fun m c => max m c.2.length) 0
    { width := pad * 2 + cols.length * colW + (cols.length - 1) * colGap
      height := pad * 2 + headerH + tallest * (nodeH + nodeGap)
      children := renderColumns byNode pad cols }

end Script

/-! ### Boxes of a card -/

@[simp] lemma boxesOf_nil : boxesOf [] = [] := rfl

@[simp] lemma boxesOf_rect (box : Box) (attrs : List (String × String)) (shapes : List Shape) :
    boxesOf (.rect box attrs :: shapes) = box :: boxesOf shapes := rfl

@[simp] lemma boxesOf_text (x y : ℚ) (attrs : List (String × String)) (content : JsString)
    (shapes : List Shape) : boxesOf (.text x y attrs content :: shapes) = boxesOf shapes := rfl

@[simp] lemma boxesOf_title (content : JsString) (shapes : List Shape) :
    boxesOf (.title content :: shapes) = boxesOf shapes := rfl

@[simp] lemma boxesOf_append (shapes shapes' : List Shape) :
    boxesOf (shapes ++ shapes') = boxesOf shapes ++ boxesOf shapes' := List.filterMap_append

/-- A group moves its boxes. -/
@[simp] lemma boxesOf_group (x y : ℚ) (shapes : List Shape) :
    boxesOf (group x y shapes) = (boxesOf shapes).map (Box.move x y) := by
  rw [boxesOf, boxesOf, group, List.filterMap_map, List.map_filterMap]
  refine congrArg (List.filterMap · shapes) (funext fun shape => ?_)
  cases shape <;> rfl

/-- What is in a group is in the place of the group. -/
lemma within_group {shapes : List Shape} {w h : ℚ} (hw : Within (boxesOf shapes) ⟨0, 0, w, h⟩)
    (x y : ℚ) : Within (boxesOf (group x y shapes)) ⟨x, y, w, h⟩ := by
  have hmove := hw.move x y
  rw [Box.move, zero_add, zero_add] at hmove
  rwa [boxesOf_group]

lemma boxesOf_chip (x y : ℚ) (label : String) (count : ℕ) :
    boxesOf (chip x y label count) = [⟨x, y, 64, 18⟩] := by
  simp [chip, Box.move]

/-- The chips are inside the card, from the place on at which they begin. -/
lemma within_chips (vendors : List (String × ℕ)) {cx : ℚ} (hright : cx + 64 ≤ colW - 12) :
    Within (boxesOf (chips cx vendors)) ⟨cx, 48, colW - 12 - cx, 18⟩ := by
  induction vendors generalizing cx with
  | nil => exact within_nil _
  | cons v vendors ih =>
      rw [chips, boxesOf_append, boxesOf_chip]
      refine Within.append (List.forall_mem_singleton.mpr ?_) ?_
      · exact ⟨le_refl _, le_refl _, by linarith, le_refl _⟩
      · split_ifs with hbreak
        · exact within_nil _
        · refine (ih (le_of_not_gt hbreak)).mono ⟨?_, le_refl _, ?_, le_refl _⟩
          · show cx ≤ cx + 70
            linarith
          · show cx + 70 + (colW - 12 - (cx + 70)) ≤ cx + (colW - 12 - cx)
            linarith

lemma memFrac_mem (used total : ℚ) : 0 ≤ memFrac used total ∧ memFrac used total ≤ 1 :=
  ⟨le_max_left _ _, max_le zero_le_one (min_le_left _ _)⟩

/-- The bar is not longer than its frame. -/
lemma within_memoryBar (live : Option NodeFleetMetrics) :
    Within (boxesOf (memoryBar live)) ⟨0, 0, colW, nodeH⟩ := by
  have hbar (frac : ℚ) (h : 0 ≤ frac ∧ frac ≤ 1) :
      Box.Inside ⟨12, 92, (colW - 24) * frac, 8⟩ ⟨0, 0, colW, nodeH⟩ := by
    constructor <;> simp only [colW, nodeH] <;> linarith
  have hfull : Box.Inside ⟨12, 92, colW - 24, 8⟩ ⟨0, 0, colW, nodeH⟩ := by
    simpa using hbar 1 ⟨zero_le_one, le_refl 1⟩
  rw [memoryBar]
  split_ifs
  · rw [boxesOf_rect, boxesOf_rect, boxesOf_text]
    refine List.forall_mem_cons.mpr ⟨hfull, List.forall_mem_singleton.mpr ?_⟩
    exact hbar _ (memFrac_mem _ _)
  · exact List.forall_mem_singleton.mpr hfull

lemma within_bottomRow (node : NodeView) (live : Option NodeFleetMetrics) :
    Within (boxesOf (bottomRow node live)) ⟨0, 0, colW, nodeH⟩ := by
  rw [bottomRow]
  split
  · split_ifs
    · exact within_nil _
    · exact within_memoryBar live
  · exact within_memoryBar live

/-- **A card stays in its place.** -/
lemma within_cardShapes [NativeText] (node : NodeView) (live : Option NodeFleetMetrics) :
    Within (boxesOf (cardShapes node live)) ⟨0, 0, colW, nodeH⟩ := by
  have hbadge : Within (boxesOf badge) ⟨0, 0, colW, nodeH⟩ := by
    refine (within_group (w := 56) (h := 14) ?_ (colW - 64) 6).mono ?_
    · exact List.forall_mem_singleton.mpr (Box.Inside.refl _)
    · constructor <;> norm_num [colW, nodeH]
  have hchips : Within (boxesOf (chips 12 (sortedVendors node))) ⟨0, 0, colW, nodeH⟩ := by
    refine (within_chips _ (by norm_num [colW])).mono ?_
    constructor <;> norm_num [colW, nodeH]
  have hstripe : Box.Inside ⟨0, 0, 4, nodeH⟩ ⟨0, 0, colW, nodeH⟩ :=
    ⟨le_refl _, le_refl _, by norm_num [colW], le_refl _⟩
  have hnone : Within [] ⟨0, 0, colW, nodeH⟩ := within_nil _
  simp only [cardShapes, boxesOf_append]
  refine ((((((Within.append ?_ ?_).append hnone).append hchips).append hnone).append
    (within_bottomRow node live)).append hnone)
  · exact List.forall_mem_cons.mpr ⟨Box.Inside.refl _, List.forall_mem_singleton.mpr hstripe⟩
  · split_ifs
    · exact hbadge
    · exact hnone

/-! ### The loops -/

section Loops

variable (byNode : Live)

/-- A node, and the corner of its card. -/
structure Cell where
  node : NodeView
  x : ℚ
  y : ℚ

/-- The card. -/
def Cell.card [NativeText] (c : Cell) : List Shape := renderNode c.node (byNode c.node.name) c.x c.y

/-- The header of a column, by its label and its left side. -/
def headerOf (h : String × ℚ) : List Shape := renderRackHeader h.1 h.2 pad colW

/-- The cells of a column. -/
def columnCells (x : ℚ) : ℚ → List NodeView → List Cell
  | _, [] => []
  | y, n :: ns => ⟨n, x, y⟩ :: columnCells x (y + (nodeH + nodeGap)) ns

/-- The cells of all columns. -/
def cellsOf : ℚ → List Column → List Cell
  | _, [] => []
  | x, (_, ns) :: cols => columnCells x (pad + headerH) ns ++ cellsOf (x + (colW + colGap)) cols

/-- The headers of all columns. -/
def headersOf : ℚ → List Column → List (String × ℚ)
  | _, [] => []
  | x, (rack, _) :: cols => (rack, x) :: headersOf (x + (colW + colGap)) cols

lemma renderColumn_eq [NativeText] (x y : ℚ) (ns : List NodeView) :
    renderColumn byNode x y ns = (columnCells x y ns).map (Cell.card byNode) := by
  induction ns generalizing y with
  | nil => rfl
  | cons n ns ih => rw [renderColumn, ih]; rfl

/-- What is drawn: the headers and the cards. -/
lemma renderColumns_perm [NativeText] (x : ℚ) (cols : List Column) :
    (renderColumns byNode x cols).Perm
      ((headersOf x cols).map headerOf ++ (cellsOf x cols).map (Cell.card byNode)) := by
  induction cols generalizing x with
  | nil => exact List.Perm.refl _
  | cons c cols ih =>
      rw [renderColumns, headersOf, cellsOf, renderColumn_eq, List.map_cons, List.cons_append,
        List.map_append]
      exact List.Perm.cons _
        (((ih _).append_left _).trans (List.perm_append_comm_assoc _ _ _))

lemma map_node_columnCells (x y : ℚ) (ns : List NodeView) :
    (columnCells x y ns).map Cell.node = ns := by
  induction ns generalizing y with
  | nil => rfl
  | cons n ns ih => rw [columnCells, List.map_cons, ih]

lemma map_node_cellsOf (x : ℚ) (cols : List Column) :
    (cellsOf x cols).map Cell.node = cols.flatMap Prod.snd := by
  induction cols generalizing x with
  | nil => rfl
  | cons c cols ih =>
      rw [cellsOf, List.map_append, map_node_columnCells, ih, List.flatMap_cons]

/-- The cells of a column are on its left side. -/
lemma of_mem_columnCells {x y : ℚ} {ns : List NodeView} {c : Cell} (h : c ∈ columnCells x y ns) :
    c.x = x ∧ c.node ∈ ns := by
  induction ns generalizing y with
  | nil => exact absurd h List.not_mem_nil
  | cons n ns ih =>
      rcases List.mem_cons.mp h with rfl | h
      · exact ⟨rfl, List.mem_cons_self⟩
      · exact ⟨(ih h).1, List.mem_cons_of_mem _ (ih h).2⟩

/-- Later columns are further to the right. -/
lemma le_of_mem_cellsOf {x : ℚ} {cols : List Column} {c : Cell} (h : c ∈ cellsOf x cols) :
    x ≤ c.x ∧ ∃ col ∈ cols, c.node ∈ col.2 ∧ (col.1, c.x) ∈ headersOf x cols := by
  induction cols generalizing x with
  | nil => exact absurd h List.not_mem_nil
  | cons col cols ih =>
      rcases List.mem_append.mp h with h | h
      · obtain ⟨hx, hmem⟩ := of_mem_columnCells h
        exact ⟨hx.ge, col, List.mem_cons_self, hmem, by rw [hx]; exact List.mem_cons_self⟩
      · obtain ⟨hx, col', hcol', hmem, hhead⟩ := ih h
        refine ⟨le_trans ?_ hx, col', List.mem_cons_of_mem _ hcol', hmem,
          List.mem_cons_of_mem _ hhead⟩
        norm_num [colW, colGap]

/-- Two cells are in one column if and only if they are so in the list. -/
lemma x_eq_iff {key : NodeView → Option String} {x : ℚ} {cols : List Column}
    (hsame : ∀ col ∈ cols, ∀ n ∈ col.2, ∀ n' ∈ col.2, key n = key n')
    (hother : cols.Pairwise fun col col' => ∀ n ∈ col.2, ∀ n' ∈ col'.2, key n ≠ key n') :
    ∀ c ∈ cellsOf x cols, ∀ c' ∈ cellsOf x cols, c.x = c'.x ↔ key c.node = key c'.node := by
  induction cols generalizing x with
  | nil => exact fun c hc => absurd hc List.not_mem_nil
  | cons col cols ih =>
      rw [List.forall_mem_cons] at hsame
      rw [List.pairwise_cons] at hother
      have hcross : ∀ c ∈ columnCells x (pad + headerH) col.2,
          ∀ c' ∈ cellsOf (x + (colW + colGap)) cols,
            c.x ≠ c'.x ∧ key c.node ≠ key c'.node := by
        intro c hc c' hc'
        obtain ⟨hx, hmem⟩ := of_mem_columnCells hc
        obtain ⟨hx', col', hcol', hmem', -⟩ := le_of_mem_cellsOf hc'
        refine ⟨fun heq => ?_, hother.1 col' hcol' _ hmem _ hmem'⟩
        rw [← heq, hx] at hx'
        norm_num [colW, colGap] at hx'
      intro c hc c' hc'
      rcases List.mem_append.mp hc with hc | hc <;> rcases List.mem_append.mp hc' with hc' | hc'
      · obtain ⟨hx, hmem⟩ := of_mem_columnCells hc
        obtain ⟨hx', hmem'⟩ := of_mem_columnCells hc'
        exact iff_of_true (hx.trans hx'.symm) (hsame.1 _ hmem _ hmem')
      · exact iff_of_false (hcross c hc c' hc').1 (hcross c hc c' hc').2
      · exact iff_of_false (hcross c' hc' c hc).1.symm (hcross c' hc' c hc).2.symm
      · exact ih hsame.2 hother.2 c hc c' hc'

/-- Headers are in the order of their left sides. -/
lemma pairwise_headersOf (x : ℚ) (cols : List Column) :
    (headersOf x cols).Pairwise (fun h h' => h.2 < h'.2) ∧ ∀ h ∈ headersOf x cols, x ≤ h.2 := by
  induction cols generalizing x with
  | nil => exact ⟨List.Pairwise.nil, fun h hh => absurd hh List.not_mem_nil⟩
  | cons c cols ih =>
      obtain ⟨hpair, hle⟩ := ih (x + (colW + colGap))
      have hgap : x < x + (colW + colGap) := by norm_num [colW, colGap]
      refine ⟨List.pairwise_cons.mpr ⟨fun h hh => hgap.trans_le (hle h hh), hpair⟩, ?_⟩
      exact List.forall_mem_cons.mpr ⟨le_refl x, fun h hh => hgap.le.trans (hle h hh)⟩

/-! ### The places -/

/-- The cards of a column are below each other. -/
lemma within_renderColumn [NativeText] (x y : ℚ) (ns : List NodeView) :
    (∀ g ∈ renderColumn byNode x y ns,
      Within (boxesOf g) ⟨x, y, colW, ns.length * (nodeH + nodeGap)⟩) ∧
    (renderColumn byNode x y ns).Pairwise fun g g' => Apart (boxesOf g) (boxesOf g') := by
  induction ns generalizing y with
  | nil => exact ⟨fun g hg => absurd hg List.not_mem_nil, List.Pairwise.nil⟩
  | cons n ns ih =>
      obtain ⟨hwithin, hapart⟩ := ih (y + (nodeH + nodeGap))
      have hcard : Within (boxesOf (renderNode n (byNode n.name) x y)) ⟨x, y, colW, nodeH⟩ :=
        within_group (within_cardShapes n _) x y
      have hlen : (0 : ℚ) ≤ ns.length := Nat.cast_nonneg _
      have hgap : (0 : ℚ) < nodeGap := by norm_num [nodeGap]
      have hpos : (0 : ℚ) < nodeH + nodeGap := by norm_num [nodeH, nodeGap]
      rw [renderColumn, List.length_cons, Nat.cast_succ, add_mul, one_mul]
      constructor
      · refine List.forall_mem_cons.mpr ⟨hcard.mono ⟨le_refl _, le_refl _, le_refl _, ?_⟩,
          fun g hg => (hwithin g hg).mono ⟨le_refl _, ?_, le_refl _, ?_⟩⟩
        · show y + nodeH ≤ y + (ns.length * (nodeH + nodeGap) + (nodeH + nodeGap))
          nlinarith
        · show y ≤ y + (nodeH + nodeGap)
          linarith
        · show y + (nodeH + nodeGap) + ns.length * (nodeH + nodeGap) ≤
            y + (ns.length * (nodeH + nodeGap) + (nodeH + nodeGap))
          linarith
      · refine List.pairwise_cons.mpr ⟨fun g hg => hcard.apart (hwithin g hg) ?_, hapart⟩
        refine .inr (.inr (.inl ?_))
        show y + nodeH ≤ y + (nodeH + nodeGap)
        linarith

/-- The columns are beside each other. -/
lemma within_renderColumns [NativeText] {tallest : ℕ} (x : ℚ) {cols : List Column}
    (htallest : ∀ col ∈ cols, col.2.length ≤ tallest) :
    (∀ g ∈ renderColumns byNode x cols, Within (boxesOf g)
      ⟨x, pad, cols.length * (colW + colGap) - colGap,
        headerH + tallest * (nodeH + nodeGap)⟩) ∧
    (renderColumns byNode x cols).Pairwise fun g g' => Apart (boxesOf g) (boxesOf g') := by
  induction cols generalizing x with
  | nil => exact ⟨fun g hg => absurd hg List.not_mem_nil, List.Pairwise.nil⟩
  | cons col cols ih =>
      obtain ⟨rack, ns⟩ := col
      rw [List.forall_mem_cons] at htallest
      obtain ⟨hwithin, hapart⟩ := ih (x + (colW + colGap)) htallest.2
      obtain ⟨hcolumn, hbelow⟩ := within_renderColumn byNode x (pad + headerH) ns
      have hheader : Within (boxesOf (renderRackHeader rack x pad colW))
          ⟨x, pad, colW, headerH⟩ := by
        refine within_group (w := colW) (h := headerH) ?_ x pad
        exact List.forall_mem_singleton.mpr
          ⟨le_refl _, le_refl _, le_refl _, by norm_num [headerH]⟩
      have hns : (ns.length : ℚ) * (nodeH + nodeGap) ≤ tallest * (nodeH + nodeGap) :=
        mul_le_mul_of_nonneg_right (Nat.cast_le.mpr htallest.1) (by norm_num [nodeH, nodeGap])
      have hcols : (0 : ℚ) ≤ cols.length * (colW + colGap) :=
        mul_nonneg (Nat.cast_nonneg _) (by norm_num [colW, colGap])
      -- the strip of the first column
      have hfirst : ∀ g ∈ renderRackHeader rack x pad colW ::
          renderColumn byNode x (pad + headerH) ns,
          Within (boxesOf g) ⟨x, pad, colW, headerH + tallest * (nodeH + nodeGap)⟩ := by
        refine List.forall_mem_cons.mpr ⟨hheader.mono ⟨le_refl _, le_refl _, le_refl _, ?_⟩,
          fun g hg => (hcolumn g hg).mono ⟨le_refl _, ?_, le_refl _, ?_⟩⟩
        · have htall : (0 : ℚ) ≤ tallest * (nodeH + nodeGap) :=
            mul_nonneg (Nat.cast_nonneg _) (by norm_num [nodeH, nodeGap])
          show pad + headerH ≤ pad + (headerH + tallest * (nodeH + nodeGap))
          linarith
        · show pad ≤ pad + headerH
          norm_num [headerH]
        · show pad + headerH + ns.length * (nodeH + nodeGap) ≤
            pad + (headerH + tallest * (nodeH + nodeGap))
          linarith
      rw [renderColumns, List.length_cons, Nat.cast_succ, add_mul, one_mul]
      constructor
      · refine List.forall_mem_append.mpr
          ⟨fun g hg => (hfirst g hg).mono ⟨le_refl _, le_refl _, ?_, le_refl _⟩,
            fun g hg => (hwithin g hg).mono ⟨?_, le_refl _, ?_, le_refl _⟩⟩
        · show x + colW ≤ x + (cols.length * (colW + colGap) + (colW + colGap) - colGap)
          linarith
        · show x ≤ x + (colW + colGap)
          norm_num [colW, colGap]
        · show x + (colW + colGap) + (cols.length * (colW + colGap) - colGap) ≤
            x + (cols.length * (colW + colGap) + (colW + colGap) - colGap)
          linarith
      · refine List.pairwise_append.mpr ⟨List.pairwise_cons.mpr ⟨fun g hg => ?_, hbelow⟩, hapart,
          fun g hg g' hg' => (hfirst g hg).apart (hwithin g' hg') (.inl ?_)⟩
        · exact hheader.apart (hcolumn g hg) (.inr (.inr (.inl (le_refl _))))
        · show x + colW ≤ x + (colW + colGap)
          norm_num [colGap]

end Loops

/-! ### Columns -/

section Columns

variable (localeCompare : String → String → Ordering) (nodes : List NodeView)

/-- The nodes of a rack, with the rack. -/
lemma mem_rackColumns {c : Column} (hc : c ∈ rackColumns localeCompare nodes) :
    ∀ n ∈ c.2, rackOf n = some c.1 := by
  have hmem := (sortBy_perm _ _).mem_iff.mp hc
  rw [← Prod.mk.eta (p := c), mem_arrivals, valuesOf_filterMap_key] at hmem
  intro n hn
  rw [hmem.1] at hn
  exact of_decide_eq_true (List.mem_filter.mp hn).2

lemma mem_sortNodes {ns : List NodeView} {n : NodeView} :
    n ∈ sortNodes localeCompare ns ↔ n ∈ ns := (sortBy_perm _ _).mem_iff

/-- **The columns** have each node once. -/
lemma flatMap_groupByRack_perm :
    ((groupByRack localeCompare nodes).flatMap Prod.snd).Perm nodes := by
  have hracks : ((rackColumns localeCompare nodes).flatMap Prod.snd).Perm
      (nodes.filter fun n => (rackOf n).isSome) := by
    refine ((sortBy_perm _ _).flatMap_right _).trans ?_
    refine (flatMap_snd_arrivals_perm _).trans (List.Perm.of_eq ?_)
    exact map_snd_filterMap_key rackOf nodes
  have hunassigned : List.flatMap Prod.snd
      (if (nodes.filter fun n => rackOf n = none).length > 0 then
        [("(no rack)", nodes.filter fun n => rackOf n = none)] else ([] : List Column)) =
      nodes.filter fun n => !(rackOf n).isSome := by
    have hfilter : (nodes.filter fun n => rackOf n = none) =
        nodes.filter fun n => !(rackOf n).isSome :=
      List.filter_congr fun n _ => by cases rackOf n <;> rfl
    rw [hfilter]
    split_ifs with hpos
    · exact List.flatMap_singleton _ _
    · exact (List.length_eq_zero_iff.mp (by omega)).symm
  rw [groupByRack, List.flatMap_map]
  refine (List.Perm.flatMap_left _ fun c _ => sortBy_perm _ c.2).trans ?_
  rw [List.flatMap_append]
  refine (List.Perm.append hracks (List.Perm.of_eq hunassigned)).trans ?_
  exact List.filter_append_perm _ _

/-- The nodes of a column have one rack, after which it is called. -/
lemma label_of_mem {c : Column} (hc : c ∈ groupByRack localeCompare nodes) :
    ∃ key : Option String, c.1 = key.getD "(no rack)" ∧ ∀ n ∈ c.2, rackOf n = key := by
  rw [groupByRack, List.mem_map] at hc
  obtain ⟨c, hc, rfl⟩ := hc
  rcases List.mem_append.mp hc with hc | hc
  · exact ⟨some c.1, rfl, fun n hn => mem_rackColumns localeCompare nodes hc n
      ((mem_sortNodes localeCompare).mp hn)⟩
  · split_ifs at hc with hpos
    · obtain rfl := List.mem_singleton.mp hc
      exact ⟨none, rfl, fun n hn => of_decide_eq_true
        (List.mem_filter.mp ((mem_sortNodes localeCompare).mp hn)).2⟩
    · exact absurd hc List.not_mem_nil

/-- Different columns have different racks. -/
lemma pairwise_groupByRack :
    (groupByRack localeCompare nodes).Pairwise
      fun c c' => ∀ n ∈ c.2, ∀ n' ∈ c'.2, rackOf n ≠ rackOf n' := by
  have hkeys : ((rackColumns localeCompare nodes).map Prod.fst).Nodup :=
    ((sortBy_perm _ _).map Prod.fst).nodup_iff.mpr (nodup_arrivals _)
  have hracks {c : Column} := @mem_rackColumns localeCompare nodes c
  rw [groupByRack, List.pairwise_map, List.pairwise_append]
  simp only [mem_sortNodes]
  refine ⟨?_, ?_, ?_⟩
  · refine (List.pairwise_map.mp hkeys).imp_of_mem fun {c c'} hc hc' hne n hn n' hn' heq => hne ?_
    rw [hracks hc n hn, hracks hc' n' hn'] at heq
    exact Option.some.inj heq
  · split_ifs
    · exact List.pairwise_singleton _ _
    · exact List.Pairwise.nil
  · intro c hc c' hc' n hn n' hn' heq
    split_ifs at hc' with hpos
    · obtain rfl := List.mem_singleton.mp hc'
      have hnone : rackOf n' = none := of_decide_eq_true (List.mem_filter.mp hn').2
      rw [hracks hc n hn, hnone] at heq
      cases heq
    · exact absurd hc' List.not_mem_nil

/-- No column is longer than the tallest. -/
lemma length_le_tallest (cols : List Column) (m : ℕ) :
    m ≤ cols.foldl (fun m c => max m c.2.length) m ∧
      ∀ c ∈ cols, c.2.length ≤ cols.foldl (fun m c => max m c.2.length) m := by
  induction cols generalizing m with
  | nil => exact ⟨le_refl m, fun c hc => absurd hc List.not_mem_nil⟩
  | cons c cols ih =>
      obtain ⟨hle, hall⟩ := ih (max m c.2.length)
      rw [List.foldl_cons]
      exact ⟨(le_max_left _ _).trans hle,
        List.forall_mem_cons.mpr ⟨(le_max_right _ _).trans hle, hall⟩⟩

end Columns

/-! ### The picture -/

/-- What is asked of the picture of some nodes: it consists of a header for each column and a
card for each node, the columns are the racks, no box is on another, and all are inside. -/
structure Drawn [NativeText] (byNode : Live) (nodes : List NodeView) (svg : Svg)
    (headers : List (String × ℚ)) (cells : List Cell) : Prop where
  children : svg.children.Perm (headers.map headerOf ++ cells.map (Cell.card byNode))
  once : (cells.map Cell.node).Perm nodes
  column : ∀ c ∈ cells, ∀ c' ∈ cells, c.x = c'.x ↔ rackOf c.node = rackOf c'.node
  headed : ∀ c ∈ cells, ((rackOf c.node).getD "(no rack)", c.x) ∈ headers
  headers : headers.Pairwise fun h h' => h.2 < h'.2
  apart : svg.children.Pairwise fun g g' => Apart (boxesOf g) (boxesOf g')
  inside : ∀ g ∈ svg.children, Within (boxesOf g) ⟨0, 0, svg.width, svg.height⟩

/-- **The picture of a cluster.** Whatever nodes the server returns, with whatever racks,
vendors and live metrics, and however the locale compares their names, every node has one
card, in the column of its rack, and no rectangle of one card or header is on one of another
or outside of the picture. -/
theorem drawn_render [NativeText] (localeCompare : String → String → Ordering) (byNode : Live)
    {nodes : List NodeView} (hnodes : nodes ≠ []) :
    ∃ headers cells, Drawn byNode nodes (render localeCompare byNode nodes) headers cells := by
  have hperm := flatMap_groupByRack_perm localeCompare nodes
  have hlabel {c : Column} := @label_of_mem localeCompare nodes c
  have hother := pairwise_groupByRack localeCompare nodes
  rw [render, if_neg (fun h => hnodes (List.length_eq_zero_iff.mp h))]
  generalize groupByRack localeCompare nodes = cols at hperm hlabel hother ⊢
  have hsame : ∀ c ∈ cols, ∀ n ∈ c.2, ∀ n' ∈ c.2, rackOf n = rackOf n' := by
    intro c hc n hn n' hn'
    obtain ⟨key, -, hkey⟩ := hlabel hc
    rw [hkey n hn, hkey n' hn']
  have hlength : (1 : ℚ) ≤ cols.length := by
    refine Nat.one_le_cast.mpr (List.length_pos_iff.mpr fun hnil => hnodes ?_)
    rw [hnil] at hperm
    exact hperm.symm.eq_nil
  obtain ⟨hwithin, hapart⟩ :=
    within_renderColumns byNode pad (length_le_tallest cols 0).2
  refine ⟨headersOf pad cols, cellsOf pad cols, renderColumns_perm byNode pad cols,
    by rwa [map_node_cellsOf], x_eq_iff hsame hother, ?headed, (pairwise_headersOf pad cols).1,
    hapart, ?inside⟩
  case headed =>
    intro c hc
    obtain ⟨-, col, hcol, hmem, hhead⟩ := le_of_mem_cellsOf hc
    obtain ⟨key, hkey, hrack⟩ := hlabel hcol
    rwa [hrack _ hmem, ← hkey]
  case inside =>
    intro g hg
    refine (hwithin g hg).mono ⟨?_, ?_, ?_, ?_⟩ <;>
      simp only [pad, headerH, colW, colGap, nodeH, nodeGap] <;> linarith

/-- A node in a rack, or in none. -/
def plainView (name : String) (rack : Option String) : NodeView where
  name := name
  rack := rack
  block := none
  vendorCounts := ∅
  modelCounts := ∅
  totalAccelerators := none
  fabricDomains := 0
  rdmaCapable := false
  lastProbe := none
  conditions := []
  ready := true
  topoLabels := ∅

/-- Two racks, and a node without one. -/
def threeViews : List NodeView :=
  [plainView "node-b" (some "r1"), plainView "node-c" none, plainView "node-a" (some "r0")]

/-- They have a picture. -/
theorem drawn_render_three :
    ∃ headers cells,
      Drawn (fun _ => none) threeViews (render compare (fun _ => none) threeViews) headers cells :=
  drawn_render compare (fun _ => none) (List.cons_ne_nil _ _)

/-! ### The order of the list -/

/-- A locale that tells these texts apart. -/
def TellsApart (localeCompare : String → String → Ordering) (texts : List String) : Prop :=
  ∀ a ∈ texts, ∀ b ∈ texts, localeCompare a b = .eq → a = b

section Order

variable {localeCompare : String → String → Ordering} [Std.TransCmp localeCompare]

variable (localeCompare) in
/-- A comparison of one member of each. -/
lemma transCmp_on {α : Type} (f : α → String) :
    Std.TransCmp fun a b => localeCompare (f a) (f b) where
  eq_swap := Std.OrientedCmp.eq_swap
  isLE_trans := Std.TransCmp.isLE_trans

variable {nodes nodes' : List NodeView}

lemma sortNodes_perm (hnames : (nodes.map NodeView.name).Nodup)
    (hlocale : TellsApart localeCompare (nodes.map NodeView.name)) (h : nodes'.Perm nodes) :
    sortNodes localeCompare nodes' = sortNodes localeCompare nodes := by
  have := transCmp_on localeCompare NodeView.name
  refine Sorting.insertionSort_cmp_eq_of_perm h fun a ha b hb heq => ?_
  exact List.inj_on_of_nodup_map hnames ha hb
    (hlocale _ (List.mem_map_of_mem ha) _ (List.mem_map_of_mem hb) heq)

/-- The nodes of some kind are sorted the same way. -/
lemma sortNodes_filter_perm (hnames : (nodes.map NodeView.name).Nodup)
    (hlocale : TellsApart localeCompare (nodes.map NodeView.name)) (h : nodes'.Perm nodes)
    (p : NodeView → Bool) :
    sortNodes localeCompare (nodes'.filter p) = sortNodes localeCompare (nodes.filter p) := by
  have hsub : ((nodes.filter p).map NodeView.name).Sublist (nodes.map NodeView.name) :=
    List.filter_sublist.map _
  exact sortNodes_perm (hnames.sublist hsub)
    (fun a ha b hb => hlocale a (hsub.subset ha) b (hsub.subset hb)) (h.filter p)

/-- A column with its nodes in order. -/
def sortColumn (localeCompare : String → String → Ordering) (c : Column) : Column :=
  (c.1, sortNodes localeCompare c.2)

/-- The buckets, with their nodes in order. -/
def sortedBuckets (localeCompare : String → String → Ordering) (nodes : List NodeView) :
    List Column :=
  (arrivals (nodes.filterMap fun n => (rackOf n).map (·, n))).map (sortColumn localeCompare)

lemma map_rackColumns (localeCompare : String → String → Ordering) (nodes : List NodeView) :
    (rackColumns localeCompare nodes).map (sortColumn localeCompare) =
      sortBy (fun a b => localeCompare a.1 b.1) (sortedBuckets localeCompare nodes) := by
  rw [sortedBuckets, rackColumns]
  refine (sortBy_map (fun a b => ?_) _).symm
  rfl

omit [Std.TransCmp localeCompare] in
lemma mem_sortedBuckets {c : Column} : c ∈ sortedBuckets localeCompare nodes ↔
    c.2 = sortNodes localeCompare (nodes.filter (rackOf · = some c.1)) ∧ c.2 ≠ [] := by
  have hnil (ns : List NodeView) : sortNodes localeCompare ns = [] ↔ ns = [] := by
    rw [← List.length_eq_zero_iff, sortNodes, (sortBy_perm _ ns).length_eq,
      List.length_eq_zero_iff]
  obtain ⟨rack, ns⟩ := c
  rw [sortedBuckets, List.mem_map]
  constructor
  · rintro ⟨⟨rack', ns'⟩, hmem, heq⟩
    obtain ⟨rfl, rfl⟩ := Prod.mk.inj heq
    rw [mem_arrivals, valuesOf_filterMap_key] at hmem
    exact ⟨by rw [hmem.1], (hnil ns').not.mpr hmem.2⟩
  · rintro ⟨hns, hne⟩
    refine ⟨(rack, nodes.filter (rackOf · = some rack)), ?_, by rw [sortColumn, ← hns]⟩
    rw [mem_arrivals, valuesOf_filterMap_key]
    refine ⟨rfl, (hnil _).not.mp ?_⟩
    rwa [← hns]

omit [Std.TransCmp localeCompare] in
lemma nodup_sortedBuckets : ((sortedBuckets localeCompare nodes).map Prod.fst).Nodup := by
  rw [sortedBuckets, List.map_map]
  exact nodup_arrivals _

/-- The columns come out the same. -/
lemma groupByRack_perm (hnames : (nodes.map NodeView.name).Nodup)
    (hlocale : TellsApart localeCompare (nodes.map NodeView.name))
    (hracks : TellsApart localeCompare (nodes.filterMap rackOf)) (h : nodes'.Perm nodes) :
    groupByRack localeCompare nodes' = groupByRack localeCompare nodes := by
  have hbuckets : (sortedBuckets localeCompare nodes').Perm (sortedBuckets localeCompare nodes) :=
    (List.perm_ext_iff_of_nodup (nodup_sortedBuckets.of_map _)
      (nodup_sortedBuckets.of_map _)).mpr fun c => by
        rw [mem_sortedBuckets, mem_sortedBuckets, sortNodes_filter_perm hnames hlocale h]
  have hcolumns : (rackColumns localeCompare nodes').map (sortColumn localeCompare) =
      (rackColumns localeCompare nodes).map (sortColumn localeCompare) := by
    have := transCmp_on localeCompare (Prod.fst : Column → String)
    rw [map_rackColumns, map_rackColumns]
    refine Sorting.insertionSort_cmp_eq_of_perm hbuckets fun a ha b hb heq => ?_
    have hrack {c : Column} (hc : c ∈ sortedBuckets localeCompare nodes) :
        c.1 ∈ nodes.filterMap rackOf := by
      obtain ⟨hns, hne⟩ := mem_sortedBuckets.mp hc
      obtain ⟨n, hn⟩ := List.exists_mem_of_ne_nil _ hne
      rw [hns, mem_sortNodes, List.mem_filter] at hn
      exact List.mem_filterMap.mpr ⟨n, hn.1, of_decide_eq_true hn.2⟩
    exact List.inj_on_of_nodup_map nodup_sortedBuckets ha hb
      (hracks _ (hrack ha) _ (hrack hb) heq)
  have hrest := sortNodes_filter_perm hnames hlocale h fun n => rackOf n = none
  have hlength := (h.filter fun n => rackOf n = none).length_eq
  rw [groupByRack, groupByRack, List.map_append, List.map_append]
  refine congrArg₂ (· ++ ·) hcolumns ?_
  rw [hlength]
  split_ifs
  · rw [List.map_singleton, List.map_singleton, hrest]
  · rfl

/-- **The layout is deterministic.** The API server may list the nodes in any order: where no
two nodes have the same name, and the locale tells their names and racks apart, the picture is
the same. -/
theorem render_perm [NativeText] (byNode : Live) (hnames : (nodes.map NodeView.name).Nodup)
    (hlocale : TellsApart localeCompare (nodes.map NodeView.name))
    (hracks : TellsApart localeCompare (nodes.filterMap rackOf)) (h : nodes'.Perm nodes) :
    render localeCompare byNode nodes' = render localeCompare byNode nodes := by
  rw [render, render, h.length_eq, groupByRack_perm hnames hlocale hracks h]

/-- The picture of the three nodes, listed in the other order. -/
theorem render_perm_three :
    render compare (fun _ => none) threeViews.reverse =
      render compare (fun _ => none) threeViews :=
  render_perm (fun _ => none) (by decide) (fun _ _ _ _ => Std.compare_eq_iff_eq.mp)
    (fun _ _ _ _ => Std.compare_eq_iff_eq.mp) (List.reverse_perm _)

end Order

end Accelrd.Admin
