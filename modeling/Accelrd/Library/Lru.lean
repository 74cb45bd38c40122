import Mathlib.Tactic
import Mathlib.Data.List.Sort
import Mathlib.Data.Prod.Lex
import Mathlib.Order.WithBot
import Accelrd.Library.PairRotation

/-!
Least-recently-used scheduling of pairs: every name carries the stamp of its last
turn, the two names that come first in the order (never served, then oldest
stamp, then name) are served together, and both get the same new stamp.

* `ranking_touch`: a stamp newer than all others turns the ranking by one step of
  `PairRotation.rotate`. This is where equal stamps are broken by name.
* `getElem?_picks`: hence the picks of a run are the front pairs of the turning
  ranking, and cycles that pick nothing do not disturb it. `mem_window` reads off
  that nobody starves.
* `stale_turn`: a pick consumes up to two names whose stamp is older than a given
  threshold, and by `stale_turn_le` newer stamps add none. This bounds the number of
  picks in a window.
-/

namespace Lru

variable {τ ν : Type} [LinearOrder τ] [LinearOrder ν]

/-- A name with the stamp of its last turn, in the order of the schedule: never
served first, then by stamp, then by name. -/
abbrev Slot (τ ν : Type) [LinearOrder τ] [LinearOrder ν] : Type := WithBot τ ×ₗ ν

/-- The stamp of the last turn, `⊥` when there was none. -/
def Slot.last (s : Slot τ ν) : WithBot τ := (ofLex s).1

def Slot.name (s : Slot τ ν) : ν := (ofLex s).2

def Slot.mk (last : WithBot τ) (name : ν) : Slot τ ν := toLex (last, name)

@[simp] lemma Slot.last_mk (t : WithBot τ) (n : ν) : (Slot.mk t n).last = t := rfl

@[simp] lemma Slot.name_mk (t : WithBot τ) (n : ν) : (Slot.mk t n).name = n := rfl

lemma Slot.mk_le_mk {t t' : WithBot τ} {n n' : ν} :
    Slot.mk t n ≤ Slot.mk t' n' ↔ t < t' ∨ (t = t' ∧ n ≤ n') := Prod.Lex.toLex_le_toLex

lemma Slot.le_of_last_lt {s s' : Slot τ ν} (h : s.last < s'.last) : s ≤ s' :=
  Prod.Lex.le_iff.mpr (Or.inl h)

lemma Slot.last_le {s s' : Slot τ ν} (h : s ≤ s') : s.last ≤ s'.last := by
  rcases Prod.Lex.le_iff.mp h with h | ⟨h, -⟩
  · exact h.le
  · exact h.le

/-- The schedule: the slots in order. -/
def order (l : List (Slot τ ν)) : List (Slot τ ν) := l.insertionSort (· ≤ ·)

/-- The names in the order of the schedule. -/
def ranking (l : List (Slot τ ν)) : List ν := (order l).map Slot.name

/-- Give the names `a` and `b` the stamp `t`. -/
def touch (t : τ) (a b : ν) (l : List (Slot τ ν)) : List (Slot τ ν) :=
  l.map fun s => if s.name = a ∨ s.name = b then Slot.mk t s.name else s

lemma order_perm (l : List (Slot τ ν)) : (order l).Perm l := List.perm_insertionSort _ l

lemma order_sorted (l : List (Slot τ ν)) : (order l).Pairwise (· ≤ ·) :=
  List.pairwise_insertionSort _ l

lemma length_ranking (l : List (Slot τ ν)) : (ranking l).length = l.length := by
  rw [ranking, List.length_map, (order_perm l).length_eq]

lemma ranking_perm (l : List (Slot τ ν)) : (ranking l).Perm (l.map Slot.name) :=
  (order_perm l).map _

/-- A sorted arrangement of the slots is the schedule. -/
lemma order_eq {l o : List (Slot τ ν)} (hp : o.Perm l) (hs : o.Pairwise (· ≤ ·)) : order l = o :=
  List.Perm.eq_of_pairwise (fun _ _ _ _ h h' => le_antisymm h h') (order_sorted l) hs
    ((order_perm l).trans hp.symm)

@[simp] lemma map_name_touch (t : τ) (a b : ν) (l : List (Slot τ ν)) :
    (touch t a b l).map Slot.name = l.map Slot.name := by
  rw [touch, List.map_map]
  refine List.map_congr_left fun s _ => ?_
  simp only [Function.comp_apply]
  split_ifs <;> rfl

/-! ### A new stamp turns the ranking -/

/-- Names that are not touched keep their slots. -/
lemma touch_of_notMem {t : τ} {a b : ν} {l : List (Slot τ ν)}
    (h : ∀ s ∈ l, s.name ≠ a ∧ s.name ≠ b) : touch t a b l = l := by
  rw [touch]
  refine (List.map_congr_left fun s hs => ?_).trans (List.map_id l)
  rw [if_neg (not_or.mpr (h s hs))]
  rfl

/-- The schedule starts with these two slots. -/
lemma exists_order_cons {l : List (Slot τ ν)} {a b : ν} {rest : List ν}
    (hr : ranking l = a :: b :: rest) :
    ∃ s₁ s₂ o, order l = s₁ :: s₂ :: o ∧ s₁.name = a ∧ s₂.name = b ∧ o.map Slot.name = rest := by
  obtain ⟨s₁, o, ho, h₁, ho'⟩ := List.map_eq_cons_iff.mp hr
  obtain ⟨s₂, o, rfl, h₂, h₃⟩ := List.map_eq_cons_iff.mp ho'
  exact ⟨s₁, s₂, o, ho, h₁, h₂, h₃⟩

/-- Touching the first two slots leaves those behind them alone. -/
lemma touch_order {l : List (Slot τ ν)} {t : τ} {s₁ s₂ : Slot τ ν} {o : List (Slot τ ν)}
    (hnd : (l.map Slot.name).Nodup) (ho : order l = s₁ :: s₂ :: o) :
    touch t s₁.name s₂.name (order l) = Slot.mk t s₁.name :: Slot.mk t s₂.name :: o := by
  have hnd' : ((order l).map Slot.name).Nodup := ((order_perm l).map _).nodup_iff.mpr hnd
  rw [ho] at hnd' ⊢
  simp only [List.map_cons, List.nodup_cons, List.mem_cons, not_or, List.mem_map, not_exists,
    not_and] at hnd'
  have hrest : touch t s₁.name s₂.name o = o :=
    touch_of_notMem fun s hs => ⟨hnd'.1.2 s hs, hnd'.2.1 s hs⟩
  simp only [touch, List.map_cons, true_or, or_true, if_true]
  exact congrArg _ (congrArg _ hrest)

/-- **A turn of the ranking**: when the first two names get a stamp newer than all
others, they go to the back, in the order of their names. -/
theorem ranking_touch {l : List (Slot τ ν)} {t : τ} {a b : ν} {rest : List ν}
    (hnd : (l.map Slot.name).Nodup) (hfresh : ∀ s ∈ l, s.last < t)
    (hr : ranking l = a :: b :: rest) :
    ranking (touch t a b l) = PairRotation.rotate (ranking l) := by
  obtain ⟨s₁, s₂, o, ho, rfl, rfl, rfl⟩ := exists_order_cons hr
  have hsorted := order_sorted l
  rw [ho, List.pairwise_cons, List.pairwise_cons] at hsorted
  have hstep : order (touch t s₁.name s₂.name l)
      = o ++ [Slot.mk t (min s₁.name s₂.name), Slot.mk t (max s₁.name s₂.name)] := by
    refine order_eq ?_ ?_
    · have hpair : [Slot.mk (t : WithBot τ) (min s₁.name s₂.name),
          Slot.mk t (max s₁.name s₂.name)].Perm [Slot.mk t s₁.name, Slot.mk t s₂.name] :=
        (PairRotation.perm_min_max s₁.name s₂.name).map (Slot.mk (t : WithBot τ))
      calc o ++ [Slot.mk (t : WithBot τ) (min s₁.name s₂.name), Slot.mk t (max s₁.name s₂.name)]
          |>.Perm (o ++ [Slot.mk t s₁.name, Slot.mk t s₂.name]) := hpair.append_left o
        _ |>.Perm (Slot.mk t s₁.name :: Slot.mk t s₂.name :: o) := List.perm_append_comm
        _ = touch t s₁.name s₂.name (order l) := (touch_order hnd ho).symm
        _ |>.Perm (touch t s₁.name s₂.name l) := (order_perm l).map _
    · rw [List.pairwise_append]
      refine ⟨hsorted.2.2, ?_, fun s hs s' hs' => Slot.le_of_last_lt ?_⟩
      · simp [Slot.mk_le_mk]
      · have hlast : s'.last = t := by
          simp only [List.mem_cons, List.not_mem_nil, or_false] at hs'
          rcases hs' with rfl | rfl <;> rfl
        rw [hlast]
        exact hfresh s ((order_perm l).mem_iff.mp (by simp [ho, hs]))
  rw [ranking, hstep, hr]
  simp

/-! ### Runs -/

variable (τ) in
/-- One cycle of the scheduler: the cutoff it uses, and the stamp it gives to what
it picks. -/
structure Turn where
  cutoff : τ
  stamp : τ

/-- The pair the scheduler picks: the first two names, unless the first of them
has a stamp that is not older than the cutoff. -/
def pick (cutoff : τ) (l : List (Slot τ ν)) : Option (ν × ν) :=
  match order l with
  | s₁ :: s₂ :: _ => if s₁.last < cutoff then some (s₁.name, s₂.name) else none
  | _ => none

/-- One cycle: what is picked gets the stamp. -/
def turn (l : List (Slot τ ν)) (c : Turn τ) : List (Slot τ ν) :=
  match pick c.cutoff l with
  | some (a, b) => touch c.stamp a b l
  | none => l

/-- The picks of a run, in order. -/
def picks : List (Slot τ ν) → List (Turn τ) → List (ν × ν)
  | _, [] => []
  | l, c :: cs => (pick c.cutoff l).toList ++ picks (turn l c) cs

/-- Every stamp of the run is newer than all stamps at that time. -/
def Fresh : List (Slot τ ν) → List (Turn τ) → Prop
  | _, [] => True
  | l, c :: cs => ((pick c.cutoff l).isSome → ∀ s ∈ l, s.last < c.stamp) ∧ Fresh (turn l c) cs

@[simp] lemma map_name_turn (l : List (Slot τ ν)) (c : Turn τ) :
    (turn l c).map Slot.name = l.map Slot.name := by
  rw [turn]
  split
  · exact map_name_touch _ _ _ _
  · rfl

@[simp] lemma length_turn (l : List (Slot τ ν)) (c : Turn τ) : (turn l c).length = l.length := by
  have h := congrArg List.length (map_name_turn l c)
  rw [List.length_map, List.length_map] at h
  exact h

/-- A turn keeps the stamps below a bound that is above the new stamp. -/
lemma forall_mem_turn_lt {l : List (Slot τ ν)} {c : Turn τ} {w : WithBot τ}
    (h : ∀ s ∈ l, s.last < w) (hstamp : c.stamp < w) : ∀ s ∈ turn l c, s.last < w := by
  rw [turn]
  split
  · intro s hs
    obtain ⟨s', hs', rfl⟩ := List.mem_map.mp hs
    split_ifs
    · exact hstamp
    · exact h s' hs'
  · exact h

/-- What is picked stands at the front of the ranking. -/
lemma ranking_of_pick {cutoff : τ} {l : List (Slot τ ν)} {a b : ν}
    (h : pick cutoff l = some (a, b)) : ∃ rest, ranking l = a :: b :: rest := by
  rw [pick] at h
  split at h
  · rename_i s₁ s₂ o ho
    split_ifs at h
    obtain ⟨rfl, rfl⟩ : s₁.name = a ∧ s₂.name = b := by simpa using h
    exact ⟨o.map Slot.name, by rw [ranking, ho]; rfl⟩
  · simp at h

/-- A cycle that picks turns the ranking, one that does not leaves it alone. -/
lemma ranking_turn {l : List (Slot τ ν)} {c : Turn τ} (hnd : (l.map Slot.name).Nodup)
    (hfresh : (pick c.cutoff l).isSome → ∀ s ∈ l, s.last < c.stamp) :
    ranking (turn l c)
      = if (pick c.cutoff l).isSome then PairRotation.rotate (ranking l) else ranking l := by
  cases hp : pick c.cutoff l with
  | none => simp [turn, hp]
  | some p =>
      obtain ⟨a, b⟩ := p
      obtain ⟨rest, hr⟩ := ranking_of_pick hp
      rw [hp] at hfresh
      simpa [turn, hp] using ranking_touch hnd (hfresh rfl) hr

/-- **The picks of a run**: the `k`-th pick is the front pair of the ranking after
`k` turns. -/
theorem getElem?_picks {l : List (Slot τ ν)} {cs : List (Turn τ)} {k : ℕ} {a b : ν}
    (hnd : (l.map Slot.name).Nodup) (hfresh : Fresh l cs) (h : (picks l cs)[k]? = some (a, b)) :
    ∃ rest, PairRotation.rotate^[k] (ranking l) = a :: b :: rest := by
  induction cs generalizing l k with
  | nil => simp [picks] at h
  | cons c cs ih =>
      have hstep := ranking_turn hnd hfresh.1
      cases hp : pick c.cutoff l with
      | none =>
          simp only [picks, hp, Option.toList_none, List.nil_append] at h
          simp only [hp, Option.isSome_none, Bool.false_eq_true, if_false] at hstep
          rw [← hstep]
          exact ih (by rwa [map_name_turn]) hfresh.2 h
      | some p =>
          simp only [picks, hp, Option.toList_some, List.singleton_append] at h
          cases k with
          | zero =>
              obtain rfl : p = (a, b) := by simpa using h
              exact ranking_of_pick hp
          | succ k =>
              rw [List.getElem?_cons_succ] at h
              obtain ⟨rest, hrest⟩ := ih (by rwa [map_name_turn]) hfresh.2 h
              rw [hstep, hp, Option.isSome_some, if_pos rfl] at hrest
              exact ⟨rest, by rw [Function.iterate_succ_apply]; exact hrest⟩

/-- **Nobody starves**: any `⌈N/2⌉` consecutive picks contain every name. -/
theorem mem_window {l : List (Slot τ ν)} {cs : List (Turn τ)} {i : ℕ} {x : ν}
    (hnd : (l.map Slot.name).Nodup) (hfresh : Fresh l cs)
    (hi : i + (l.length + 1) / 2 ≤ (picks l cs).length) (hx : x ∈ l.map Slot.name) :
    ∃ p ∈ ((picks l cs).drop i).take ((l.length + 1) / 2), x = p.1 ∨ x = p.2 := by
  have hlen : (PairRotation.rotate^[i] (ranking l)).length = l.length := by
    rw [PairRotation.length_rotate_iterate, length_ranking]
  obtain ⟨k, hk, hmem⟩ := PairRotation.served_within (q := PairRotation.rotate^[i] (ranking l))
    ((PairRotation.rotate_iterate_perm i _).mem_iff.mpr ((ranking_perm l).mem_iff.mpr hx))
  rw [hlen] at hk
  rw [← Function.iterate_add_apply] at hmem
  have hlt : i + k < (picks l cs).length := by omega
  obtain ⟨⟨a, b⟩, hp⟩ : ∃ p, (picks l cs)[i + k] = p := ⟨_, rfl⟩
  obtain ⟨rest, hrest⟩ := getElem?_picks hnd hfresh
    ((List.getElem?_eq_getElem hlt).trans (congrArg some hp))
  rw [Nat.add_comm k i, hrest] at hmem
  refine ⟨(a, b), ?_, by simpa using hmem⟩
  rw [← hp]
  refine List.mem_iff_getElem.mpr ⟨k, by simp; omega, ?_⟩
  simp

/-! ### The load of a window -/

/-- The number of names whose stamp is older than `w`. -/
def stale (w : τ) (l : List (Slot τ ν)) : ℕ :=
  l.countP fun s => decide (s.last < (w : WithBot τ))

lemma stale_le_length (w : τ) (l : List (Slot τ ν)) : stale w l ≤ l.length := List.countP_le_length

lemma stale_order (w : τ) (l : List (Slot τ ν)) : stale w (order l) = stale w l :=
  (order_perm l).countP_eq _

/-- In the schedule, nothing is stale behind a name that is not. -/
lemma stale_eq_zero {w : τ} {s : Slot τ ν} {o : List (Slot τ ν)} (hs : ¬ s.last < w)
    (ho : ∀ s' ∈ o, s ≤ s') : stale w o = 0 := by
  refine List.countP_eq_zero.mpr fun s' hs' => ?_
  have hle : w ≤ s'.last := (not_lt.mp hs).trans (Slot.last_le (ho s' hs'))
  simpa using hle

/-- **A pick consumes two stale names**, or the last one. -/
theorem stale_turn {w : τ} {l : List (Slot τ ν)} {c : Turn τ} (hnd : (l.map Slot.name).Nodup)
    (hcut : c.cutoff ≤ w) (hstamp : w ≤ c.stamp) (hp : (pick c.cutoff l).isSome) :
    0 < stale w l ∧ stale w (turn l c) ≤ stale w l - 2 := by
  obtain ⟨⟨a, b⟩, hpick⟩ := Option.isSome_iff_exists.mp hp
  have hturn : turn l c = touch c.stamp a b l := by rw [turn, hpick]
  rw [pick] at hpick
  split at hpick
  · rename_i s₁ s₂ o ho
    split_ifs at hpick with hlt
    obtain ⟨rfl, rfl⟩ : s₁.name = a ∧ s₂.name = b := by simpa using hpick
    have hstale₁ : s₁.last < w := hlt.trans_le (WithBot.coe_le_coe.mpr hcut)
    have hfresh : ¬ (c.stamp : WithBot τ) < w := not_lt.mpr (WithBot.coe_le_coe.mpr hstamp)
    -- what is touched is not stale any more, what stands behind is as before
    have hafter : stale w (turn l c) = stale w o := by
      have hperm : (touch c.stamp s₁.name s₂.name (order l)).Perm (turn l c) := by
        rw [hturn]
        exact (order_perm l).map _
      rw [stale, ← hperm.countP_eq, touch_order hnd ho,
        List.countP_cons_of_neg (by simpa using hstamp),
        List.countP_cons_of_neg (by simpa using hstamp), stale]
    have hbefore : stale w l = stale w (s₂ :: o) + 1 := by
      rw [← stale_order, ho, stale, List.countP_cons_of_pos (by simpa using hstale₁), stale]
    have hsorted := order_sorted l
    rw [ho, List.pairwise_cons, List.pairwise_cons] at hsorted
    by_cases hstale₂ : s₂.last < w
    · have : stale w (s₂ :: o) = stale w o + 1 := by
        rw [stale, List.countP_cons_of_pos (by simpa using hstale₂), stale]
      omega
    · have := stale_eq_zero hstale₂ hsorted.2.1
      omega
  · simp at hpick

/-- A stamp that is not older than `w` makes nothing stale. -/
lemma stale_turn_le {w : τ} (l : List (Slot τ ν)) {c : Turn τ} (hstamp : w ≤ c.stamp) :
    stale w (turn l c) ≤ stale w l := by
  rw [turn]
  split
  · rw [stale, stale, touch, List.countP_map]
    refine List.countP_mono_left fun s _ hs => ?_
    rw [Function.comp_apply] at hs
    split_ifs at hs
    · simp only [Slot.last_mk, WithBot.coe_lt_coe, decide_eq_true_eq] at hs
      exact absurd hs hstamp.not_gt
    · exact hs
  · exact le_rfl

/-- The front of the ranking is picked when every name is overdue. -/
lemma pick_of_overdue {cutoff : τ} {l : List (Slot τ ν)} {a b : ν} {rest : List ν}
    (hr : ranking l = a :: b :: rest) (h : ∀ s ∈ l, s.last < cutoff) :
    pick cutoff l = some (a, b) := by
  obtain ⟨s₁, s₂, o, ho, rfl, rfl, -⟩ := exists_order_cons hr
  rw [pick, ho]
  exact if_pos (h s₁ ((order_perm l).mem_iff.mp (by simp [ho])))

end Lru
