import Mathlib.Tactic
import Mathlib.Data.Sym.Sym2

/-!
A queue that is served two at a time: the two elements at the front are served
together and go to the back, the smaller one first.

* `mem_take_rotate_iterate`: nobody starves. The element at place `i` is served
  in turn `i/2` at the latest, hence within `⌈N/2⌉` turns (`served_within`).
* `pairsCovered_iff`: which pairs are ever served *together*. After the first
  round the queue is a string of sorted pairs, with one single element in front
  when the length is odd. From then on an even queue serves the same pairs for
  ever, and an odd queue only ever joins the larger element of one pair with the
  smaller element of the next. So of the three pairs among the three largest
  elements at least one is never served once there are four elements or more,
  and all pairs are served exactly for two elements, or for three of which the
  smallest comes last.
-/

namespace PairRotation

variable {α : Type*}

/-- The queue serves `x` and `y` together in this turn. -/
def ServesPair (q : List α) (x y : α) : Prop :=
  ∃ a b rest, q = a :: b :: rest ∧ s(a, b) = s(x, y)

lemma ServesPair.swap {q : List α} {x y : α} (h : ServesPair q x y) : ServesPair q y x := by
  obtain ⟨a, b, rest, hq, hab⟩ := h
  exact ⟨a, b, rest, hq, by rw [hab, Sym2.eq_swap]⟩

section Turn

variable [LinearOrder α]

/-- One turn: the two elements at the front go to the back, the smaller one
first. -/
def rotate : List α → List α
  | a :: b :: rest => rest ++ [min a b, max a b]
  | q => q

@[simp] lemma rotate_cons_cons (a b : α) (rest : List α) :
    rotate (a :: b :: rest) = rest ++ [min a b, max a b] := rfl

/-- The pair that is put back is the pair that was taken. -/
lemma perm_min_max (a b : α) : [min a b, max a b].Perm [a, b] := by
  rcases le_total a b with h | h
  · simp [h]
  · simpa [h] using List.Perm.swap a b []

lemma rotate_perm (q : List α) : (rotate q).Perm q := by
  match q with
  | [] => exact List.Perm.refl _
  | [a] => exact List.Perm.refl _
  | a :: b :: rest =>
      rw [rotate_cons_cons]
      exact List.perm_append_comm.trans ((perm_min_max a b).append_right rest)

lemma rotate_iterate_perm (k : ℕ) (q : List α) : (rotate^[k] q).Perm q := by
  induction k generalizing q with
  | zero => exact List.Perm.refl _
  | succ k ih =>
      rw [Function.iterate_succ_apply]
      exact (ih _).trans (rotate_perm q)

@[simp] lemma length_rotate_iterate (k : ℕ) (q : List α) :
    (rotate^[k] q).length = q.length :=
  (rotate_iterate_perm k q).length_eq

/-! ### Nobody starves -/

/-- The element at place `i` is served in turn `i/2` at the latest: every turn
moves it two places to the front. -/
theorem mem_take_rotate_iterate : ∀ (i : ℕ) (q : List α) (x : α), q[i]? = some x →
    ∃ k ≤ i / 2, x ∈ (rotate^[k] q).take 2
  | i, [], x, h => by simp at h
  | 0, a :: q, x, h => ⟨0, by simp, by simp_all⟩
  | 1, [a], x, h => by simp at h
  | 1, a :: b :: q, x, h => ⟨0, by simp, by simp_all⟩
  | i + 2, [a], x, h => by simp at h
  | i + 2, a :: b :: rest, x, h => by
      have hx : (rest ++ [min a b, max a b])[i]? = some x := by
        have hi : i < rest.length := by
          by_contra hi
          simp [List.getElem?_eq_none (not_lt.mp hi)] at h
        rw [List.getElem?_append_left hi]
        simpa using h
      obtain ⟨k, hk, hmem⟩ := mem_take_rotate_iterate i _ x hx
      exact ⟨k + 1, by omega, hmem⟩

/-- **Nobody starves**: every element is served within `⌈N/2⌉` turns. -/
theorem served_within {q : List α} {x : α} (hx : x ∈ q) :
    ∃ k < (q.length + 1) / 2, x ∈ (rotate^[k] q).take 2 := by
  obtain ⟨i, hi, rfl⟩ := List.mem_iff_getElem.mp hx
  obtain ⟨k, hk, hmem⟩ := mem_take_rotate_iterate i q q[i] (List.getElem?_eq_getElem hi)
  exact ⟨k, by omega, hmem⟩

end Turn

/-! ### The queue as a string of pairs -/

/-- A list of pairs, written out. -/
def flat (ps : List (α × α)) : List α := ps.flatMap fun p => [p.1, p.2]

/-- The pairs of the list, without their order. -/
def unordered (ps : List (α × α)) : List (Sym2 α) := ps.map fun p => s(p.1, p.2)

@[simp] lemma flat_nil : flat ([] : List (α × α)) = [] := rfl

@[simp] lemma flat_cons (p : α × α) (ps : List (α × α)) :
    flat (p :: ps) = p.1 :: p.2 :: flat ps := rfl

@[simp] lemma flat_append (ps qs : List (α × α)) : flat (ps ++ qs) = flat ps ++ flat qs := by
  simp [flat]

lemma length_flat (ps : List (α × α)) : (flat ps).length = 2 * ps.length := by
  induction ps with
  | nil => rfl
  | cons p ps ih => simp only [flat_cons, List.length_cons, ih]; omega

lemma fst_mem_flat {p : α × α} {ps : List (α × α)} (h : p ∈ ps) : p.1 ∈ flat ps :=
  List.mem_flatMap.mpr ⟨p, h, by simp⟩

lemma snd_mem_flat {p : α × α} {ps : List (α × α)} (h : p ∈ ps) : p.2 ∈ flat ps :=
  List.mem_flatMap.mpr ⟨p, h, by simp⟩

/-- A list of even length is a list of pairs. -/
lemma exists_flat : ∀ (q : List α), Even q.length → ∃ ps, q = flat ps
  | [], _ => ⟨[], rfl⟩
  | [a], h => by simp at h
  | a :: b :: rest, h => by
      obtain ⟨ps, rfl⟩ := exists_flat rest (by
        simpa [Nat.even_add_one] using h)
      exact ⟨(a, b) :: ps, rfl⟩

/-- In a list without repetition an element has one partner. -/
lemma partner_unique {ps : List (α × α)} (hnd : (flat ps).Nodup) {a b c : α}
    (hb : s(a, b) ∈ unordered ps) (hc : s(a, c) ∈ unordered ps) : b = c := by
  induction ps with
  | nil => simp [unordered] at hb
  | cons p ps ih =>
      obtain ⟨u, v⟩ := p
      have hmem : ∀ {d : α}, s(a, d) ∈ unordered ps → a ∈ flat ps := by
        intro d hd
        obtain ⟨⟨u', v'⟩, hp, hpe⟩ := List.mem_map.mp hd
        rcases Sym2.eq_iff.mp hpe with ⟨rfl, rfl⟩ | ⟨rfl, rfl⟩
        · exact fst_mem_flat hp
        · exact snd_mem_flat hp
      simp only [flat_cons, List.nodup_cons, List.mem_cons, not_or] at hnd
      obtain ⟨⟨huv, hu⟩, hv, hnd⟩ := hnd
      rcases List.mem_cons.mp hb with hb | hb <;> rcases List.mem_cons.mp hc with hc | hc
      · exact Sym2.congr_right.mp (hb.trans hc.symm)
      · have := hmem hc
        rcases Sym2.eq_iff.mp hb with ⟨rfl, rfl⟩ | ⟨rfl, rfl⟩ <;> contradiction
      · have := hmem hb
        rcases Sym2.eq_iff.mp hc with ⟨rfl, rfl⟩ | ⟨rfl, rfl⟩ <;> contradiction
      · exact ih hnd hb hc

section Pairs

variable [LinearOrder α]

/-- The pair as the queue puts it back. -/
def sortPair (a b : α) : α × α := (min a b, max a b)

lemma mk_sortPair (a b : α) : s((sortPair a b).1, (sortPair a b).2) = s(a, b) := by
  rcases le_total a b with h | h
  · simp [sortPair, h]
  · simp [sortPair, h, Sym2.eq_swap]

lemma sortPair_lt {a b : α} (h : a ≠ b) : (sortPair a b).1 < (sortPair a b).2 :=
  min_lt_max.mpr h

/-- A turn of a queue that starts with a pair. -/
lemma rotate_flat_cons_append (p : α × α) (ps : List (α × α)) (l : List α) :
    rotate (flat (p :: ps) ++ l) = flat ps ++ l ++ flat [sortPair p.1 p.2] := by
  simp [sortPair]

/-- A turn of a queue with a single element in front. -/
lemma rotate_cons_flat_cons (x : α) (p : α × α) (ps : List (α × α)) :
    rotate (x :: flat (p :: ps)) = p.2 :: flat (ps ++ [sortPair x p.1]) := by
  simp [sortPair]

/-! ### An even queue serves the same pairs for ever -/

/-- Only the pairs of the first round are ever served. -/
lemma even_servesPair {q₀ : List (α × α)} {x y : α} (k : ℕ)
    (h : ServesPair (rotate^[k] (flat q₀)) x y) : s(x, y) ∈ unordered q₀ := by
  have key : ∀ k, ∃ ps, rotate^[k] (flat q₀) = flat ps ∧ ∀ z ∈ unordered ps, z ∈ unordered q₀ := by
    intro k
    induction k with
    | zero => exact ⟨q₀, rfl, fun z hz => hz⟩
    | succ k ih =>
        obtain ⟨ps, hps, hsub⟩ := ih
        rw [Function.iterate_succ_apply', hps]
        cases ps with
        | nil => exact ⟨[], rfl, by simp [unordered]⟩
        | cons p ps =>
            refine ⟨ps ++ [sortPair p.1 p.2], ?_, fun z hz => hsub z ?_⟩
            · simpa using rotate_flat_cons_append p ps []
            · simp only [unordered, List.map_append, List.map_cons, List.map_nil, mk_sortPair,
                List.mem_append, List.mem_singleton] at hz
              simp only [unordered, List.map_cons, List.mem_cons]
              exact hz.symm
  obtain ⟨ps, hps, hsub⟩ := key k
  obtain ⟨a, b, rest, hq, hab⟩ := h
  cases ps with
  | nil => simp [hps] at hq
  | cons p ps =>
      rw [hps, flat_cons, List.cons.injEq, List.cons.injEq] at hq
      rw [← hab, ← hq.1, ← hq.2.1]
      exact hsub _ (by simp [unordered])

/-! ### An odd queue joins the larger of one pair to the smaller of the next -/

variable (α) in
/-- An odd queue in the middle of its life: the pairs of the first round that
have not been served yet, the single element, and the pairs that have been put
back. -/
structure OddQueue where
  fresh : List (α × α)
  single : α
  back : List (α × α)
  nodup : (flat fresh ++ single :: flat back).Nodup
  sorted : ∀ p ∈ back, p.1 < p.2

namespace OddQueue

/-- The queue, written out. -/
def queue (s : OddQueue α) : List α := flat s.fresh ++ s.single :: flat s.back

lemma rotate_fresh (p : α × α) (ps : List (α × α)) (x : α) (bs : List (α × α)) :
    rotate (flat (p :: ps) ++ x :: flat bs)
      = flat ps ++ x :: flat (bs ++ [sortPair p.1 p.2]) := by
  rw [rotate_flat_cons_append]
  simp

/-- A turn of an odd queue. -/
def next : OddQueue α → OddQueue α
  | ⟨p :: ps, x, bs, hn, hs⟩ =>
      { fresh := ps
        single := x
        back := bs ++ [sortPair p.1 p.2]
        nodup := by
          rw [← rotate_fresh]
          exact (rotate_perm _).nodup_iff.mpr hn
        sorted := by
          intro r hr
          rcases List.mem_append.mp hr with hr | hr
          · exact hs r hr
          · rw [List.mem_singleton.mp hr]
            refine sortPair_lt fun h => ?_
            simp [h] at hn }
  | ⟨[], x, p :: bs, hn, hs⟩ =>
      { fresh := []
        single := p.2
        back := bs ++ [sortPair x p.1]
        nodup := by
          rw [flat_nil, List.nil_append, ← rotate_cons_flat_cons]
          exact (rotate_perm _).nodup_iff.mpr hn
        sorted := by
          intro r hr
          rcases List.mem_append.mp hr with hr | hr
          · exact hs r (List.mem_cons_of_mem p hr)
          · rw [List.mem_singleton.mp hr]
            refine sortPair_lt fun h => ?_
            simp [h] at hn }
  | ⟨[], x, [], hn, hs⟩ => ⟨[], x, [], hn, hs⟩

lemma queue_next (s : OddQueue α) : s.next.queue = rotate s.queue := by
  match s with
  | ⟨p :: ps, x, bs, hn, hs⟩ => exact (rotate_fresh p ps x bs).symm
  | ⟨[], x, p :: bs, hn, hs⟩ => exact (rotate_cons_flat_cons x p bs).symm
  | ⟨[], x, [], hn, hs⟩ => rfl

lemma queue_iterate (k : ℕ) (s : OddQueue α) : (next^[k] s).queue = rotate^[k] s.queue := by
  induction k generalizing s with
  | zero => rfl
  | succ k ih => rw [Function.iterate_succ_apply, Function.iterate_succ_apply, ih, queue_next]

lemma mem_queue_next {s : OddQueue α} {x : α} : x ∈ s.next.queue ↔ x ∈ s.queue := by
  rw [queue_next]
  exact (rotate_perm s.queue).mem_iff

/-- What an odd queue serves: a pair of the first round, or the single element
with the smaller element of the first pair put back. -/
lemma servesPair_cases {s : OddQueue α} {x y : α} (h : ServesPair s.queue x y) :
    s(x, y) ∈ unordered s.fresh
      ∨ ∃ p bs, s.fresh = [] ∧ s.back = p :: bs ∧ s(s.single, p.1) = s(x, y) := by
  obtain ⟨a, b, rest, hq, hab⟩ := h
  match s with
  | ⟨p :: ps, z, bs, hn, hs⟩ =>
      simp only [queue, flat_cons, List.cons_append, List.cons.injEq] at hq
      obtain ⟨rfl, rfl, -⟩ := hq
      exact Or.inl (by simp [unordered, hab])
  | ⟨[], z, p :: bs, hn, hs⟩ =>
      simp only [queue, flat_nil, List.nil_append, flat_cons, List.cons.injEq] at hq
      obtain ⟨rfl, rfl, -⟩ := hq
      exact Or.inr ⟨p, bs, rfl, rfl, hab⟩
  | ⟨[], z, [], hn, hs⟩ => simp [queue] at hq

/-- In the second round the single element is not in the pair at the front. -/
lemma single_ne_snd {s : OddQueue α} {p : α × α} {bs : List (α × α)} (hf : s.fresh = [])
    (hb : s.back = p :: bs) : s.single ≠ p.2 := by
  have hn := s.nodup
  simp only [hf, hb, flat_nil, flat_cons, List.nil_append, List.nodup_cons, List.mem_cons,
    not_or] at hn
  exact hn.1.2.1

/-- **The two largest** elements are served together in the first round or
never: afterwards the single element would have to be the largest one, in front
of a pair that begins with the second largest and so contains the largest too. -/
lemma not_servesPair_two_largest {s : OddQueue α} {b c : α} (hbc : b < c)
    (htop : ∀ z ∈ s.queue, z = c ∨ z ≤ b) (hfresh : s(b, c) ∉ unordered s.fresh) (k : ℕ) :
    ¬ServesPair (next^[k] s).queue b c := by
  induction k generalizing s with
  | zero =>
      intro hserve
      rcases servesPair_cases (s := s) hserve with h | ⟨p, bs, hf, hb, h⟩
      · exact hfresh h
      · have hp2 : p.2 = c ∨ p.2 ≤ b := htop p.2 (by simp [queue, hf, hb])
        have hlt : p.1 < p.2 := s.sorted p (by simp [hb])
        have hne := single_ne_snd hf hb
        rcases Sym2.eq_iff.mp h with ⟨-, h2⟩ | ⟨h1, h2⟩ <;> rw [h2] at hlt <;>
          rcases hp2 with hp2 | hp2
        · exact lt_irrefl _ (hp2 ▸ hlt)
        · exact absurd (hlt.trans_le hp2) (not_lt.mpr hbc.le)
        · exact hne (h1.trans hp2.symm)
        · exact absurd hlt (not_lt.mpr hp2)
  | succ k ih =>
      rw [Function.iterate_succ_apply]
      refine ih (fun z hz => htop z (mem_queue_next.mp hz)) ?_
      match s, hfresh with
      | ⟨p :: ps, x, bs, hn, hs⟩, hfresh =>
          exact fun h => hfresh (List.mem_cons_of_mem _ h)
      | ⟨[], x, p :: bs, hn, hs⟩, _ => simp [next, unordered]
      | ⟨[], x, [], hn, hs⟩, _ => simp [next, unordered]

/-- The pair `(a, b)` will not be at the front while `c` is the single element:
either `c` has been put back behind it, or `c` is about to be. -/
def Shielded (s : OddQueue α) (a b c : α) : Prop :=
  (s.fresh ≠ [] → (a, b) ∉ s.back) ∧
    ∀ C D, s.back = C ++ (a, b) :: D → c ∈ flat D ∨ (s.single = c ∧ C ≠ [])

/-- While `(a, b)` is shielded, `a` and `c` are not served together. -/
lemma not_servesPair_of_shielded {s : OddQueue α} {a b c : α} (hbc : b < c)
    (htop : ∀ z ∈ s.queue, z = c ∨ z = b ∨ z ≤ a) (hac : a < c)
    (hfresh : s(a, c) ∉ unordered s.fresh) (hsh : s.Shielded a b c) :
    ¬ServesPair s.queue a c := by
  intro hserve
  rcases servesPair_cases hserve with h | ⟨p, bs, hf, hb, h⟩
  · exact hfresh h
  · have hp2 : p.2 = c ∨ p.2 = b ∨ p.2 ≤ a := htop p.2 (by simp [queue, hf, hb])
    have hlt : p.1 < p.2 := s.sorted p (by simp [hb])
    have hn := s.nodup
    simp only [hf, hb, flat_nil, flat_cons, List.nil_append, List.nodup_cons,
      List.mem_cons, not_or] at hn
    rcases Sym2.eq_iff.mp h with ⟨-, h2⟩ | ⟨h1, h2⟩ <;> rw [h2] at hlt <;>
      rcases hp2 with hp2 | hp2 | hp2
    · exact lt_irrefl _ (hp2 ▸ hlt)
    · exact absurd (hp2 ▸ hlt) (not_lt.mpr hbc.le)
    · exact absurd (hlt.trans_le hp2) (not_lt.mpr hac.le)
    · exact single_ne_snd hf hb (h1.trans hp2.symm)
    · -- the front pair is `(a, b)` itself
      have hp : p = (a, b) := Prod.ext h2 hp2
      rcases hsh.2 [] bs (by rw [hb, hp]; rfl) with hD | ⟨-, hC⟩
      · exact hn.1.2.2 (h1 ▸ hD)
      · exact hC rfl
    · exact absurd hlt (not_lt.mpr hp2)

/-- A turn keeps the pair `(a, b)` shielded when two pairs or more stand in the
queue: the pair is only put back when `c` becomes the single element. -/
lemma Shielded.next {s : OddQueue α} {a b c : α} (hsh : s.Shielded a b c) (hab : a < b)
    (htop : ∀ z ∈ s.queue, z = c ∨ z = b ∨ z ≤ a)
    (hfresh : s(a, b) ∉ unordered s.fresh) (hlen : 2 ≤ s.fresh.length + s.back.length) :
    s.next.Shielded a b c := by
  match s with
  | ⟨p :: ps, x, bs, hn, hs⟩ =>
      have hne : (a, b) ≠ sortPair p.1 p.2 := fun h => hfresh (by
        have := mk_sortPair p.1 p.2
        rw [← h] at this
        simp [unordered, this])
      have hnot : (a, b) ∉ bs ++ [sortPair p.1 p.2] := by
        simpa [hne] using hsh.1 (by simp)
      refine ⟨fun _ => hnot, fun C D h => absurd ?_ hnot⟩
      have hb : bs ++ [sortPair p.1 p.2] = C ++ (a, b) :: D := h
      simp [hb]
  | ⟨[], x, p :: bs, hn, hs⟩ =>
      refine ⟨fun h => absurd rfl h, fun C D h => ?_⟩
      have hb : bs ++ [sortPair x p.1] = C ++ (a, b) :: D := h
      rcases List.eq_nil_or_concat D with rfl | ⟨D', r, rfl⟩
      · -- the pair has just been put back, so `c` was the larger of the front pair
        rw [← List.concat_eq_append, ← List.concat_eq_append, List.concat_inj] at hb
        obtain ⟨rfl, hr⟩ := hb
        refine Or.inr ⟨?_, fun h => by simp [h] at hlen⟩
        have hlt : p.1 < p.2 := hs p List.mem_cons_self
        have hp2 : p.2 = c ∨ p.2 = b ∨ p.2 ≤ a := htop p.2 (by simp [queue])
        have hxp : s(x, p.1) = s(a, b) := by rw [← mk_sortPair, hr]
        have hne : x ≠ p.2 := @single_ne_snd _ _ ⟨[], x, p :: bs, hn, hs⟩ p bs rfl rfl
        show p.2 = c
        rcases Sym2.eq_iff.mp hxp with ⟨h1, h2⟩ | ⟨h1, h2⟩ <;> rw [h2] at hlt <;>
          rcases hp2 with hp2 | hp2 | hp2
        · exact hp2
        · exact absurd (hp2 ▸ hlt) (lt_irrefl _)
        · exact absurd (hab.trans hlt) (not_lt.mpr hp2)
        · exact hp2
        · exact absurd (h1.trans hp2.symm) hne
        · exact absurd hlt (not_lt.mpr hp2)
      · -- the pair stood there before, and what was behind it still is
        rw [List.concat_eq_append, ← List.cons_append, ← List.append_assoc,
          ← List.concat_eq_append, ← List.concat_eq_append, List.concat_inj] at hb
        obtain ⟨rfl, rfl⟩ := hb
        rcases hsh.2 (p :: C) D' rfl with hD | ⟨hx, -⟩
        · exact Or.inl (by simp [hD])
        · have hx : x = c := hx
          have hmem : x ∈ flat [sortPair x p.1] := by
            rcases le_total x p.1 with h | h <;> simp [sortPair, h]
          refine Or.inl ?_
          rw [List.concat_eq_append, flat_append, List.mem_append, ← hx]
          exact Or.inr hmem
  | ⟨[], x, [], hn, hs⟩ => simp at hlen

lemma unordered_fresh_next {s : OddQueue α} {z : Sym2 α} (h : z ∈ unordered s.next.fresh) :
    z ∈ unordered s.fresh := by
  match s with
  | ⟨p :: ps, x, bs, hn, hs⟩ => exact List.mem_cons_of_mem _ h
  | ⟨[], x, p :: bs, hn, hs⟩ => exact h
  | ⟨[], x, [], hn, hs⟩ => exact h

lemma length_next (s : OddQueue α) :
    s.next.fresh.length + s.next.back.length = s.fresh.length + s.back.length := by
  match s with
  | ⟨p :: ps, x, bs, hn, hs⟩ =>
      simp only [next, List.length_append, List.length_cons, List.length_nil]
      omega
  | ⟨[], x, p :: bs, hn, hs⟩ => simp [next]
  | ⟨[], x, [], hn, hs⟩ => rfl

/-- **The third largest** element is never served with the largest one once the
two largest ones were a pair of the first round, in an odd queue of five or more. -/
lemma not_servesPair_third_largest {s : OddQueue α} {a b c : α} (hab : a < b) (hbc : b < c)
    (htop : ∀ z ∈ s.queue, z = c ∨ z = b ∨ z ≤ a) (hac : s(a, c) ∉ unordered s.fresh)
    (habf : s(a, b) ∉ unordered s.fresh) (hlen : 2 ≤ s.fresh.length + s.back.length)
    (hsh : s.Shielded a b c) (k : ℕ) : ¬ServesPair (next^[k] s).queue a c := by
  induction k generalizing s with
  | zero => exact not_servesPair_of_shielded hbc htop (hab.trans hbc) hac hsh
  | succ k ih =>
      rw [Function.iterate_succ_apply]
      exact ih (fun z hz => htop z (mem_queue_next.mp hz)) (fun h => hac (unordered_fresh_next h))
        (fun h => habf (unordered_fresh_next h)) (by rw [length_next]; exact hlen)
        (hsh.next hab htop habf hlen)

end OddQueue

/-- Every odd list without repetition starts life as an odd queue. -/
lemma exists_oddQueue {q : List α} (hnd : q.Nodup) (hodd : Odd q.length) :
    ∃ s : OddQueue α, s.queue = q ∧ s.back = [] ∧ 2 * s.fresh.length + 1 = q.length := by
  have hpos : q ≠ [] := by rintro rfl; simp at hodd
  obtain ⟨ps, hps⟩ := exists_flat q.dropLast (by
    rw [List.length_dropLast]
    obtain ⟨m, hm⟩ := hodd
    exact ⟨m, by omega⟩)
  have hq : flat ps ++ q.getLast hpos :: flat [] = q := by
    rw [← hps]
    exact List.dropLast_append_getLast hpos
  refine ⟨⟨ps, q.getLast hpos, [], by rw [hq]; exact hnd, by simp⟩, hq, rfl, ?_⟩
  have hlen := congrArg List.length hq
  simp only [flat_nil, List.length_append, List.length_cons, List.length_nil, length_flat] at hlen
  omega

/-! ### Which pairs are ever served together -/

/-- A non-empty list has a largest element. -/
lemma exists_largest {q : List α} (h : q ≠ []) : ∃ c ∈ q, ∀ z ∈ q, z ≤ c := by
  obtain ⟨c, hc, hmax⟩ := q.toFinset.exists_max_image id (by simpa using h)
  exact ⟨c, by simpa using hc, fun z hz => hmax z (by simpa using hz)⟩

/-- Three or more elements have three largest ones. -/
lemma exists_three_largest {q : List α} (hnd : q.Nodup) (hlen : 3 ≤ q.length) :
    ∃ a ∈ q, ∃ b ∈ q, ∃ c ∈ q, a < b ∧ b < c ∧ ∀ z ∈ q, z = c ∨ z = b ∨ z ≤ a := by
  obtain ⟨c, hc, hcmax⟩ := exists_largest (q := q) (by rintro rfl; simp at hlen)
  have hlen₁ : (q.erase c).length = q.length - 1 := List.length_erase_of_mem hc
  obtain ⟨b, hb, hbmax⟩ := exists_largest (q := q.erase c) (by
    intro h; simp [h] at hlen₁; omega)
  have hlen₂ : ((q.erase c).erase b).length = (q.erase c).length - 1 :=
    List.length_erase_of_mem hb
  obtain ⟨a, ha, hamax⟩ := exists_largest (q := (q.erase c).erase b) (by
    intro h; simp [h] at hlen₂; omega)
  rw [(hnd.erase c).mem_erase_iff, hnd.mem_erase_iff] at ha
  rw [hnd.mem_erase_iff] at hb
  refine ⟨a, ha.2.2, b, hb.2, c, hc, ?_, lt_of_le_of_ne (hcmax b hb.2) hb.1, fun z hz => ?_⟩
  · exact lt_of_le_of_ne (hbmax a (hnd.mem_erase_iff.mpr ha.2)) ha.1
  · by_cases hzc : z = c
    · exact Or.inl hzc
    by_cases hzb : z = b
    · exact Or.inr (Or.inl hzb)
    · refine Or.inr (Or.inr (hamax z ?_))
      rw [(hnd.erase c).mem_erase_iff, hnd.mem_erase_iff]
      exact ⟨hzb, hzc, hz⟩

/-- All pairs are eventually served together. -/
def PairsCovered (q : List α) : Prop :=
  ∀ x ∈ q, ∀ y ∈ q, x ≠ y → ∃ k, ServesPair (rotate^[k] q) x y

/-- Four elements or more: some pair is never served. -/
theorem not_pairsCovered {q : List α} (hnd : q.Nodup) (hlen : 4 ≤ q.length) :
    ¬PairsCovered q := by
  intro hcov
  obtain ⟨a, ha, b, hb, c, hc, hab, hbc, htop⟩ := exists_three_largest hnd (by omega)
  obtain ⟨k, hk⟩ := hcov b hb c hc hbc.ne
  obtain ⟨l, hl⟩ := hcov a ha c hc (hab.trans hbc).ne
  rcases Nat.even_or_odd q.length with heven | hodd
  · obtain ⟨ps, rfl⟩ := exists_flat q heven
    exact hab.ne' (partner_unique hnd (even_servesPair k hk.swap) (even_servesPair l hl.swap))
  · obtain ⟨s, rfl, hback, hfresh⟩ := exists_oddQueue hnd hodd
    rw [← OddQueue.queue_iterate] at hk hl
    have hnd' : (flat s.fresh).Nodup := s.nodup.of_append_left
    by_cases hbcf : s(b, c) ∈ unordered s.fresh
    · refine OddQueue.not_servesPair_third_largest hab hbc htop (fun h => ?_) (fun h => ?_)
        (by omega) ⟨fun _ => by simp [hback], fun C D h => by simp [hback] at h⟩ l hl
      · exact hab.ne (partner_unique hnd' (Sym2.eq_swap ▸ h) (Sym2.eq_swap ▸ hbcf))
      · exact (hab.trans hbc).ne (partner_unique hnd' (Sym2.eq_swap ▸ h) hbcf)
    · refine OddQueue.not_servesPair_two_largest hbc (fun z hz => ?_) hbcf k hk
      rcases htop z hz with h | h | h
      · exact Or.inl h
      · exact Or.inr h.le
      · exact Or.inr (h.trans hab.le)

/-- Three elements of which the smallest comes last: all pairs are served in three
turns. -/
lemma three_covered {u v x : α} (hu : x ≤ u) (hv : x ≤ v) {y z : α} (hy : y ∈ [u, v, x])
    (hz : z ∈ [u, v, x]) (hne : y ≠ z) : ∃ k < 3, ServesPair (rotate^[k] [u, v, x]) y z := by
  have h0 : ServesPair (rotate^[0] [u, v, x]) u v := ⟨u, v, [x], rfl, rfl⟩
  have h1 : ServesPair (rotate^[1] [u, v, x]) x (min u v) := ⟨x, min u v, [max u v], rfl, rfl⟩
  have h2 : ServesPair (rotate^[2] [u, v, x]) (max u v) x := by
    refine ⟨max u v, x, [min u v], ?_, rfl⟩
    have hmin : x ≤ min u v := le_min hu hv
    simp [hmin]
  have hxu : ∃ k < 3, ServesPair (rotate^[k] [u, v, x]) x u := by
    rcases le_total u v with h | h
    · exact ⟨1, by omega, by simpa only [min_eq_left h] using h1⟩
    · exact ⟨2, by omega, by simpa only [max_eq_left h] using h2.swap⟩
  have hxv : ∃ k < 3, ServesPair (rotate^[k] [u, v, x]) x v := by
    rcases le_total u v with h | h
    · exact ⟨2, by omega, by simpa only [max_eq_right h] using h2.swap⟩
    · exact ⟨1, by omega, by simpa only [min_eq_right h] using h1⟩
  have hswap : ∀ {a b : α}, (∃ k < 3, ServesPair (rotate^[k] [u, v, x]) a b) →
      ∃ k < 3, ServesPair (rotate^[k] [u, v, x]) b a :=
    fun ⟨k, hk, h⟩ => ⟨k, hk, h.swap⟩
  simp only [List.mem_cons, List.not_mem_nil, or_false] at hy hz
  rcases hy with rfl | rfl | rfl <;> rcases hz with rfl | rfl | rfl
  · exact absurd rfl hne
  · exact ⟨0, by omega, h0⟩
  · exact hswap hxu
  · exact ⟨0, by omega, h0.swap⟩
  · exact absurd rfl hne
  · exact hswap hxv
  · exact hxu
  · exact hxv
  · exact absurd rfl hne

/-- The queues that serve all pairs: two elements, or three of which the smallest
comes last. -/
def Coverable (q : List α) : Prop :=
  q.length = 2 ∨ (q.length = 3 ∧ ∀ c ∈ q.getLast?, ∀ z ∈ q, c ≤ z)

/-- A coverable queue serves all pairs, in fewer than `N²` turns. -/
theorem Coverable.servesPair {q : List α} (h : Coverable q) {x y : α} (hx : x ∈ q) (hy : y ∈ q)
    (hne : x ≠ y) : ∃ k < q.length ^ 2, ServesPair (rotate^[k] q) x y := by
  rcases h with h | ⟨h, hlast⟩
  · match q, h with
    | [u, v], _ =>
        have h0 : ServesPair (rotate^[0] [u, v]) u v := ⟨u, v, [], rfl, rfl⟩
        simp only [List.mem_cons, List.not_mem_nil, or_false] at hx hy
        rcases hx with rfl | rfl <;> rcases hy with rfl | rfl
        · exact absurd rfl hne
        · exact ⟨0, by simp, h0⟩
        · exact ⟨0, by simp, h0.swap⟩
        · exact absurd rfl hne
  · match q, h with
    | [u, v, w], _ =>
        have hw := hlast w (by simp)
        obtain ⟨k, hk, hserve⟩ := three_covered (hw u (by simp)) (hw v (by simp)) hx hy hne
        exact ⟨k, by simp; omega, hserve⟩

/-- **Which queues serve all pairs**: exactly the coverable ones. -/
theorem pairsCovered_iff {q : List α} (hnd : q.Nodup) (hlen : 2 ≤ q.length) :
    PairsCovered q ↔ Coverable q := by
  constructor
  · intro hcov
    have hlt : q.length < 4 := by
      by_contra h
      exact not_pairsCovered hnd (by omega) hcov
    by_cases h2 : q.length = 2
    · exact Or.inl h2
    have h3 : q.length = 3 := by omega
    refine Or.inr ⟨h3, fun w hw z hz => ?_⟩
    by_contra hzw
    have hzw : z < w := not_le.mp hzw
    obtain ⟨s, rfl, hback, hfresh⟩ := exists_oddQueue hnd (h3 ▸ by decide)
    obtain ⟨a, ha, b, hb, c, hc, hab, hbc, htop⟩ := exists_three_largest hnd (by omega)
    obtain ⟨k, hk⟩ := hcov b hb c hc hbc.ne
    rw [← OddQueue.queue_iterate] at hk
    refine OddQueue.not_servesPair_two_largest hbc (fun z hz => ?_) (fun hbcf => ?_) k hk
    · rcases htop z hz with h | h | h
      · exact Or.inl h
      · exact Or.inr h.le
      · exact Or.inr (h.trans hab.le)
    · -- then `z`, the last element, `b` and `c` are four elements
      have hw : s.single = w := by simpa [OddQueue.queue, hback] using hw
      obtain ⟨p, hp, hpe⟩ := List.mem_map.mp hbcf
      have hwfresh : w ∉ flat s.fresh := by
        have hn := s.nodup
        rw [List.nodup_append] at hn
        exact fun h => hn.2.2 w h s.single List.mem_cons_self hw.symm
      have hmem : b ∈ flat s.fresh ∧ c ∈ flat s.fresh := by
        rcases Sym2.eq_iff.mp hpe with ⟨rfl, rfl⟩ | ⟨rfl, rfl⟩
        · exact ⟨fst_mem_flat hp, snd_mem_flat hp⟩
        · exact ⟨snd_mem_flat hp, fst_mem_flat hp⟩
      have hwq : w ∈ s.queue := by simp [OddQueue.queue, hw]
      have hwa : w ≤ a := by
        rcases htop w hwq with rfl | rfl | h
        · exact absurd hmem.2 hwfresh
        · exact absurd hmem.1 hwfresh
        · exact h
      have hwb : w < b := hwa.trans_lt hab
      have hnd4 : [z, w, b, c].Nodup := by
        simp [hzw.ne, (hzw.trans hwb).ne, (hzw.trans (hwb.trans hbc)).ne, hwb.ne,
          (hwb.trans hbc).ne, hbc.ne]
      have hsub : [z, w, b, c] ⊆ s.queue := by
        simp only [List.cons_subset, List.nil_subset, and_true]
        exact ⟨hz, hwq, hb, hc⟩
      have hle := (List.subperm_of_subset hnd4 hsub).length_le
      simp only [List.length_cons, List.length_nil] at hle
      omega
  · exact fun h x hx y hy hne => by
      obtain ⟨k, -, hk⟩ := h.servesPair hx hy hne
      exact ⟨k, hk⟩

end Pairs

end PairRotation
