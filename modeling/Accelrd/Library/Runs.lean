import Mathlib.Tactic

/-!
A finite set of numbers as its maximal runs of consecutive ones.

* `maximalRuns`: every finite set has them.
* `MaximalRuns.flatMap_toList`: written out one after the other, they are the set in
  ascending order.
-/

namespace Runs

/-- Consecutive numbers, from `first` to `last`. -/
structure Run where
  first : ℕ
  last : ℕ
  le : first ≤ last

namespace Run

/-- The numbers of a run. -/
def toList (r : Run) : List ℕ := List.range' r.first (r.last + 1 - r.first)

lemma mem_toList {r : Run} {n : ℕ} : n ∈ r.toList ↔ r.first ≤ n ∧ n ≤ r.last := by
  have hle := r.le
  rw [toList, List.mem_range'_1]
  omega

lemma first_mem (r : Run) : r.first ∈ r.toList := mem_toList.mpr ⟨Nat.le_refl _, r.le⟩

lemma last_mem (r : Run) : r.last ∈ r.toList := mem_toList.mpr ⟨r.le, Nat.le_refl _⟩

/-- A number between two runs is missing. -/
def Before (r t : Run) : Prop := r.last + 1 < t.first

instance : IsTrans Run Before where
  trans r t u hrt htu := by
    have hle := t.le
    rw [Before] at *
    omega

/-- The run of one number. -/
def single (n : ℕ) : Run := ⟨n, n, Nat.le_refl n⟩

/-- A run with the number in front of it. -/
def extend (r : Run) (n : ℕ) (h : n + 1 = r.first) : Run :=
  ⟨n, r.last, (Nat.le_succ n).trans (h.trans_le r.le)⟩

@[simp] lemma first_single (n : ℕ) : (single n).first = n := rfl

@[simp] lemma last_single (n : ℕ) : (single n).last = n := rfl

@[simp] lemma first_extend (r : Run) (n : ℕ) (h : n + 1 = r.first) :
    (r.extend n h).first = n := rfl

@[simp] lemma last_extend (r : Run) (n : ℕ) (h : n + 1 = r.first) :
    (r.extend n h).last = r.last := rfl

lemma mem_toList_single {n m : ℕ} : m ∈ (single n).toList ↔ m = n := by
  rw [mem_toList, first_single, last_single]
  omega

lemma mem_toList_extend {r : Run} {n : ℕ} (h : n + 1 = r.first) {m : ℕ} :
    m ∈ (r.extend n h).toList ↔ m = n ∨ m ∈ r.toList := by
  have hle := r.le
  rw [mem_toList, mem_toList, first_extend, last_extend]
  omega

end Run

/-- The maximal runs of a set, in ascending order. No two of them make one run, since a number
between them is missing. -/
structure MaximalRuns (s : Finset ℕ) where
  list : List Run
  gaps : list.IsChain Run.Before
  mem_iff : ∀ n, n ∈ s ↔ ∃ r ∈ list, n ∈ r.toList

/-- **The runs of a set**, written out, are the set in ascending order. -/
theorem MaximalRuns.flatMap_toList {s : Finset ℕ} (m : MaximalRuns s) :
    m.list.flatMap Run.toList = s.sort (· ≤ ·) := by
  have hgaps : m.list.Pairwise Run.Before := List.isChain_iff_pairwise.mp m.gaps
  have hsorted : (m.list.flatMap Run.toList).Pairwise (· < ·) := by
    refine List.pairwise_flatMap.mpr ⟨fun r _ => List.pairwise_lt_range', hgaps.imp ?_⟩
    intro r t hrt x hx y hy
    have hlast := (Run.mem_toList.mp hx).2
    have hfirst := (Run.mem_toList.mp hy).1
    rw [Run.Before] at hrt
    omega
  have hset : (m.list.flatMap Run.toList).toFinset = s := by
    ext n
    rw [List.mem_toFinset, List.mem_flatMap, m.mem_iff]
  calc m.list.flatMap Run.toList
      = (m.list.flatMap Run.toList).toFinset.sort (· ≤ ·) :=
        ((List.toFinset_sort _ (hsorted.imp Nat.ne_of_lt)).mpr (hsorted.imp Nat.le_of_lt)).symm
    _ = s.sort (· ≤ ·) := by rw [hset]

/-! ### Every set has them -/

/-- The runs of a list with one more number in front. -/
def push (n : ℕ) : List Run → List Run
  | [] => [.single n]
  | r :: rs => if h : n + 1 = r.first then r.extend n h :: rs else .single n :: r :: rs

lemma mem_push {n : ℕ} {rs : List Run} {m : ℕ} :
    (∃ r ∈ push n rs, m ∈ r.toList) ↔ m = n ∨ ∃ r ∈ rs, m ∈ r.toList := by
  cases rs with
  | nil => simp [push, Run.mem_toList_single]
  | cons r rs =>
      rw [push]
      split_ifs with h
      · simp [Run.mem_toList_extend h, or_assoc]
      · simp [Run.mem_toList_single]

lemma gaps_push {n : ℕ} {rs : List Run} (hgaps : rs.IsChain Run.Before)
    (hlt : ∀ r ∈ rs, n < r.first) : (push n rs).IsChain Run.Before := by
  cases rs with
  | nil => exact List.isChain_singleton _
  | cons r rs =>
      rw [push]
      split_ifs with h
      · obtain ⟨hhead, htail⟩ := List.isChain_cons.mp hgaps
        exact List.isChain_cons.mpr ⟨fun t ht => hhead t ht, htail⟩
      · have hr := hlt r List.mem_cons_self
        refine List.isChain_cons_cons.mpr ⟨?_, hgaps⟩
        rw [Run.Before, Run.last_single]
        omega

/-- The runs of an ascending list, from its end. -/
def ofList (ns : List ℕ) : List Run := ns.foldr push []

lemma mem_ofList {ns : List ℕ} {m : ℕ} : (∃ r ∈ ofList ns, m ∈ r.toList) ↔ m ∈ ns := by
  induction ns with
  | nil => simp [ofList]
  | cons n ns ih => rw [ofList, List.foldr_cons, mem_push, ← ofList, ih, List.mem_cons]

lemma gaps_ofList {ns : List ℕ} (h : ns.Pairwise (· < ·)) : (ofList ns).IsChain Run.Before := by
  induction ns with
  | nil => exact List.isChain_nil
  | cons n ns ih =>
      obtain ⟨hn, hns⟩ := List.pairwise_cons.mp h
      exact gaps_push (ih hns) fun r hr => hn r.first (mem_ofList.mp ⟨r, hr, r.first_mem⟩)

/-- The maximal runs of a set. -/
def maximalRuns (s : Finset ℕ) : MaximalRuns s where
  list := ofList (s.sort (· ≤ ·))
  gaps := gaps_ofList s.sortedLT_sort.pairwise
  mem_iff n := by rw [mem_ofList, Finset.mem_sort]

end Runs
