import Mathlib.Tactic

/-!
Connected components of a finite graph by a worklist.

* `Adjacency`: neighbour lists with finitely many keys.
* `drain`: the loop that empties a worklist; `drain_spec` says what one run of it adds to
  the vertices that were visited before.
* `components`: one worklist for each key that was not visited yet, isolated vertices left
  out.
* `component_of_mem`, `nodup_flatten_components`, `exists_component`: on a symmetric
  graph these are the components with at least one edge, each of them once, in whichever
  order the keys come.
-/

namespace Components

open Relation

variable {V : Type} [DecidableEq V]

/-- Neighbour lists. A vertex that is not a key has no neighbours. -/
structure Adjacency (V : Type) where
  keys : List V
  next : V → List V
  next_eq_nil : ∀ v, v ∉ keys → next v = []

/-- `b` is among the neighbours of `a`. -/
def Adjacency.Link (g : Adjacency V) (a b : V) : Prop := b ∈ g.next a

/-! ### Visiting -/

/-- The keys that are not visited yet. -/
def Adjacency.fresh (g : Adjacency V) (visited : List V) : ℕ :=
  (g.keys.filter (· ∉ visited)).length

/-- Visiting a key leaves fewer of them. -/
lemma Adjacency.fresh_lt {g : Adjacency V} {visited : List V} {n : V} (hn : n ∉ visited)
    (hkey : n ∈ g.keys) : g.fresh (n :: visited) < g.fresh visited := by
  have hfilter : g.keys.filter (· ∉ n :: visited)
      = (g.keys.filter (· ∉ visited)).filter (· ≠ n) := by
    rw [List.filter_filter]
    exact List.filter_congr fun x _ => by simp [not_or]
  rw [fresh, fresh, hfilter, List.length_filter_lt_length_iff_exists]
  exact ⟨n, List.mem_filter.mpr ⟨hkey, by simpa using hn⟩, by simp⟩

/-- Visiting never leaves more keys. -/
lemma Adjacency.fresh_cons_le (g : Adjacency V) (visited : List V) (n : V) :
    g.fresh (n :: visited) ≤ g.fresh visited := by
  refine (List.Sublist.length_le ?_)
  refine List.monotone_filter_right _ fun x hx => ?_
  simp only [List.mem_cons, not_or, decide_eq_true_eq] at hx ⊢
  exact hx.2

/-- The neighbours of a vertex that were not visited, the last one on top. -/
def Adjacency.unvisited (g : Adjacency V) (visited : List V) (n : V) : List V :=
  ((g.next n).filter (· ∉ visited)).reverse

lemma Adjacency.mem_unvisited {g : Adjacency V} {visited : List V} {n x : V} :
    x ∈ g.unvisited visited n ↔ g.Link n x ∧ x ∉ visited := by
  rw [unvisited, List.mem_reverse, List.mem_filter, decide_eq_true_eq, Link]

/-- The worklist loop, on a stack: the top is skipped if it was visited, and otherwise
visited, with its neighbours that were not visited pushed one after the other. The loop
ends because it visits a key or makes the stack shorter. -/
def drain (g : Adjacency V) (visited group : List V) : List V → List V × List V
  | [] => (visited, group)
  | n :: stack =>
      if n ∈ visited then drain g visited group stack
      else drain g (n :: visited) (group ++ [n]) (g.unvisited (n :: visited) n ++ stack)
termination_by stack => (g.fresh visited, stack.length)
decreasing_by
  · exact Prod.Lex.right _ (by simp)
  · rename_i hn
    by_cases hkey : n ∈ g.keys
    · exact Prod.Lex.left _ _ (g.fresh_lt hn hkey)
    · rw [Adjacency.unvisited, g.next_eq_nil n hkey]
      rcases (g.fresh_cons_le visited n).lt_or_eq with hlt | heq
      · exact Prod.Lex.left _ _ hlt
      · rw [heq]
        exact Prod.Lex.right _ (by simp)

/-- What a run of the loop adds to the visited vertices. -/
structure Drained (g : Adjacency V) (visited stack added : List V) : Prop where
  nodup : added.Nodup
  disjoint : ∀ x ∈ added, x ∉ visited
  reached : ∀ x ∈ added, ∃ s ∈ stack, ReflTransGen g.Link s x
  stack_mem : ∀ s ∈ stack, s ∈ added ∨ s ∈ visited
  closed : ∀ x ∈ added, ∀ y ∈ g.next x, y ∈ added ∨ y ∈ visited

/-- **The run of a worklist.** -/
lemma drain_spec (g : Adjacency V) (visited group stack : List V) :
    ∃ added, drain g visited group stack = (added.reverse ++ visited, group ++ added) ∧
      Drained g visited stack added := by
  fun_induction drain g visited group stack with
  | case1 visited group =>
      exact ⟨[], by simp, ⟨List.nodup_nil, by simp, by simp, by simp, by simp⟩⟩
  | case2 visited group n stack hn ih =>
      obtain ⟨added, hrun, h⟩ := ih
      refine ⟨added, hrun, h.nodup, h.disjoint, fun x hx => ?_, ?_, h.closed⟩
      · obtain ⟨s, hs, hsx⟩ := h.reached x hx
        exact ⟨s, List.mem_cons_of_mem _ hs, hsx⟩
      · exact List.forall_mem_cons.mpr ⟨Or.inr hn, h.stack_mem⟩
  | case3 visited group n stack hn ih =>
      obtain ⟨added, hrun, h⟩ := ih
      -- what is visited after `n` is `n` and what the rest of the run adds
      have hmem (y : V) (hy : y ∈ added ∨ y ∈ n :: visited) : y ∈ n :: added ∨ y ∈ visited := by
        rcases hy with hy | hy
        · exact Or.inl (List.mem_cons_of_mem _ hy)
        · rcases List.mem_cons.mp hy with rfl | hy
          · exact Or.inl List.mem_cons_self
          · exact Or.inr hy
      refine ⟨n :: added, ?run, ?nodup, ?disjoint, ?reached, ?stack, ?closed⟩
      case run =>
        rw [hrun]
        simp
      case nodup =>
        exact List.nodup_cons.mpr ⟨fun hna => h.disjoint n hna List.mem_cons_self, h.nodup⟩
      case disjoint =>
        refine List.forall_mem_cons.mpr ⟨hn, fun x hx hv => ?_⟩
        exact h.disjoint x hx (List.mem_cons_of_mem _ hv)
      case reached =>
        refine List.forall_mem_cons.mpr ⟨⟨n, List.mem_cons_self, .refl⟩, fun x hx => ?_⟩
        obtain ⟨s, hs, hsx⟩ := h.reached x hx
        rcases List.mem_append.mp hs with hs | hs
        · have hlink : g.Link n s := (Adjacency.mem_unvisited.mp hs).1
          exact ⟨n, List.mem_cons_self, .head hlink hsx⟩
        · exact ⟨s, List.mem_cons_of_mem _ hs, hsx⟩
      case stack =>
        refine List.forall_mem_cons.mpr ⟨Or.inl List.mem_cons_self, fun s hs => ?_⟩
        exact hmem s (h.stack_mem s (List.mem_append_right _ hs))
      case closed =>
        refine List.forall_mem_cons.mpr ⟨fun y hy => ?_, fun x hx y hy =>
          hmem y (h.closed x hx y hy)⟩
        by_cases hyv : y ∈ n :: visited
        · exact hmem y (Or.inr hyv)
        · refine hmem y (h.stack_mem y (List.mem_append_left _ ?_))
          exact Adjacency.mem_unvisited.mpr ⟨hy, hyv⟩

/-! ### One component for each key -/

/-- The outer loop: a worklist for each key that was not visited and has a neighbour. -/
def components (g : Adjacency V) (visited : List V) : List V → List (List V)
  | [] => []
  | start :: keys =>
      if start ∈ visited ∨ g.next start = [] then components g visited keys
      else
        let (visited', group) := drain g visited [] [start]
        group :: components g visited' keys

/-- No edge leaves the set. -/
def Closed (g : Adjacency V) (visited : List V) : Prop :=
  ∀ x ∈ visited, ∀ y ∈ g.next x, y ∈ visited

omit [DecidableEq V] in
lemma Closed.reach {g : Adjacency V} {visited : List V} (h : Closed g visited) {x y : V}
    (hx : x ∈ visited) (hxy : ReflTransGen g.Link x y) : y ∈ visited := by
  induction hxy with
  | refl => exact hx
  | tail _ hlink ih => exact h _ ih _ hlink

section Symmetric

variable {g : Adjacency V} (hsymm : ∀ a b, g.Link a b → g.Link b a)

omit [DecidableEq V] in
include hsymm in
lemma reach_symm {x y : V} (h : ReflTransGen g.Link x y) : ReflTransGen g.Link y x := by
  induction h with
  | refl => exact .refl
  | tail _ hlink ih => exact .head (hsymm _ _ hlink) ih

include hsymm in
/-- **One worklist collects one component.** -/
lemma drain_start {visited : List V} {start : V} (hclosed : Closed g visited)
    (hstart : start ∉ visited) :
    ∃ group, drain g visited [] [start] = (group.reverse ++ visited, group) ∧ group.Nodup ∧
      (∀ x, x ∈ group ↔ ReflTransGen g.Link start x) ∧ (∀ x ∈ group, x ∉ visited) ∧
      Closed g (group.reverse ++ visited) := by
  obtain ⟨group, hrun, h⟩ := drain_spec g visited [] [start]
  have hclosed' : Closed g (group.reverse ++ visited) := by
    intro x hx y hy
    rw [List.mem_append, List.mem_reverse] at hx ⊢
    rcases hx with hx | hx
    · exact h.closed x hx y hy
    · exact Or.inr (hclosed x hx y hy)
  have hmem (x : V) : x ∈ group ↔ ReflTransGen g.Link start x := by
    constructor
    · intro hx
      obtain ⟨s, hs, hsx⟩ := h.reached x hx
      rwa [List.mem_singleton.mp hs] at hsx
    · intro hx
      have hs : start ∈ group.reverse ++ visited := by
        rw [List.mem_append, List.mem_reverse]
        exact h.stack_mem start List.mem_cons_self
      have hx' := hclosed'.reach hs hx
      rw [List.mem_append, List.mem_reverse] at hx'
      exact hx'.resolve_right fun hv => hstart (hclosed.reach hv (reach_symm hsymm hx))
  exact ⟨group, by simpa using hrun, h.nodup, hmem, h.disjoint, hclosed'⟩

include hsymm in
/-- What the outer loop returns, after any number of turns. -/
lemma components_spec (visited keys : List V) (hclosed : Closed g visited) :
    (components g visited keys).flatten.Nodup ∧
      (∀ x ∈ (components g visited keys).flatten, x ∉ visited) ∧
      (∀ group ∈ components g visited keys, ∃ start, g.next start ≠ [] ∧
        ∀ x, x ∈ group ↔ ReflTransGen g.Link start x) ∧
      ∀ k ∈ keys, g.next k ≠ [] → k ∉ visited → k ∈ (components g visited keys).flatten := by
  induction keys generalizing visited with
  | nil => simp [components]
  | cons start keys ih =>
      rw [components]
      by_cases hskip : start ∈ visited ∨ g.next start = []
      · rw [if_pos hskip]
        obtain ⟨hnodup, hdisjoint, hgroups, hkeys⟩ := ih visited hclosed
        refine ⟨hnodup, hdisjoint, hgroups, List.forall_mem_cons.mpr ⟨fun hne hv => ?_, hkeys⟩⟩
        exact absurd hskip (not_or.mpr ⟨hv, hne⟩)
      · rw [if_neg hskip]
        rw [not_or] at hskip
        obtain ⟨group, hrun, hnodup, hmem, hfresh, hclosed'⟩ :=
          drain_start hsymm hclosed hskip.1
        obtain ⟨hnodup', hdisjoint, hgroups, hkeys⟩ := ih _ hclosed'
        simp only [hrun, List.flatten_cons]
        refine ⟨List.nodup_append'.mpr ⟨hnodup, hnodup', ?_⟩, ?_, ?_, ?_⟩
        · intro x hx hx'
          exact hdisjoint x hx' (List.mem_append_left _ (List.mem_reverse.mpr hx))
        · refine List.forall_mem_append.mpr ⟨hfresh, fun x hx hv => ?_⟩
          exact hdisjoint x hx (List.mem_append_right _ hv)
        · exact List.forall_mem_cons.mpr ⟨⟨start, hskip.2, hmem⟩, hgroups⟩
        · refine List.forall_mem_cons.mpr ⟨fun _ _ => ?_, fun k hk hne hv => ?_⟩
          · exact List.mem_append_left _ ((hmem start).mpr .refl)
          · by_cases hkg : k ∈ group
            · exact List.mem_append_left _ hkg
            · refine List.mem_append_right _ (hkeys k hk hne ?_)
              rw [List.mem_append, List.mem_reverse, not_or]
              exact ⟨hkg, hv⟩

include hsymm in
/-- **A vertex lies in at most one of the collected groups, and once.** -/
theorem nodup_flatten_components (keys : List V) : (components g [] keys).flatten.Nodup :=
  (components_spec hsymm [] keys (by simp [Closed])).1

include hsymm in
/-- **A collected group is a component with an edge.** -/
theorem component_of_mem {keys group : List V} (h : group ∈ components g [] keys) :
    ∃ start, g.next start ≠ [] ∧ ∀ x, x ∈ group ↔ ReflTransGen g.Link start x :=
  (components_spec hsymm [] keys (by simp [Closed])).2.2.1 group h

include hsymm in
/-- **A vertex with an edge is in a collected group.** -/
theorem exists_component {keys : List V} (hkeys : ∀ v ∈ g.keys, v ∈ keys) {v : V}
    (hv : g.next v ≠ []) : v ∈ (components g [] keys).flatten := by
  refine (components_spec hsymm [] keys (by simp [Closed])).2.2.2 v (hkeys v ?_) hv
    List.not_mem_nil
  exact by_contra fun hkey => hv (g.next_eq_nil v hkey)

end Symmetric

end Components
