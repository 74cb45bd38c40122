import Mathlib.Tactic
import Mathlib.Data.List.DropRight
import Accelrd.Library.Text

/-!
What `split_whitespace` makes of a text that is put together from parts.

* `words_append_cons`, `words_intercalate`: separators between parts keep their words apart.
* `words_trim`: the words of a text do not depend on the space around it.
* `beginsWith_iff`: the first words of a text, by where they stand in it.
* `words_intercalate_self`, `trimMatches_eq_intercalate`: words that are joined are read back,
  and a text with single separators between its words is these joined.
-/

namespace Text

variable {separates : Char → Bool} {c : Char} {cs : List Char}

@[simp] lemma words_nil : words separates [] = [] := rfl

/-- **A separator** keeps the words on its two sides apart. -/
lemma words_append_cons (hc : separates c) (xs ys : List Char) :
    words separates (xs ++ c :: ys) = words separates xs ++ words separates ys := by
  rw [words, List.splitOnP_append_cons xs ys hc, List.filter_append]
  rfl

lemma words_cons (hc : separates c) (cs : List Char) :
    words separates (c :: cs) = words separates cs := words_append_cons hc [] cs

lemma words_concat (hc : separates c) (cs : List Char) :
    words separates (cs ++ [c]) = words separates cs := by
  rw [words_append_cons hc, words_nil, List.append_nil]

/-- A text that can be checked not to have separators. -/
lemma not_separates_of_all (h : cs.all (!separates ·)) : ∀ c ∈ cs, separates c = false := by
  intro c hc
  simpa using List.all_eq_true.mp h c hc

/-- One word. -/
lemma words_eq_singleton (hne : cs ≠ []) (h : ∀ c ∈ cs, separates c = false) :
    words separates cs = [cs] := by
  rw [words, List.splitOnP_eq_singleton h, List.filter_cons_of_pos (by simpa using hne),
    List.filter_nil]

/-- A text that begins with a word. -/
lemma exists_words_cons (hc : separates c = false) (cs : List Char) :
    ∃ w ws, words separates (c :: cs) = (c :: w) :: ws := by
  obtain ⟨w, ws, hsplit⟩ := List.exists_cons_of_ne_nil (List.splitOnP_ne_nil separates cs)
  refine ⟨w, ws.filter (· ≠ []), ?_⟩
  rw [words, List.splitOnP_cons_eq_if_modifyHead, if_neg (by simp [hc]), hsplit,
    List.modifyHead_cons, List.filter_cons_of_pos (by simp)]

lemma words_eq_nil_iff : words separates cs = [] ↔ ∀ c ∈ cs, separates c := by
  induction cs with
  | nil => simp
  | cons c cs ih =>
      rw [List.forall_mem_cons]
      cases hc : separates c with
      | true => simp [words_cons hc, ih]
      | false =>
          obtain ⟨w, ws, hwords⟩ := exists_words_cons hc cs
          simp [hwords]

lemma words_dropWhile (cs : List Char) :
    words separates (cs.dropWhile separates) = words separates cs := by
  induction cs with
  | nil => rfl
  | cons c cs ih =>
      cases hc : separates c with
      | true => rw [List.dropWhile_cons_of_pos hc, ih, words_cons hc]
      | false => rw [List.dropWhile_cons_of_neg (by simp [hc])]

lemma words_reverse_dropWhile_reverse (cs : List Char) :
    words separates (cs.reverse.dropWhile separates).reverse = words separates cs := by
  induction cs using List.reverseRecOn with
  | nil => rfl
  | append_singleton cs c ih =>
      rw [List.reverse_append, List.reverse_singleton, List.singleton_append]
      cases hc : separates c with
      | true => rw [List.dropWhile_cons_of_pos hc, ih, words_concat hc]
      | false =>
          rw [List.dropWhile_cons_of_neg (by simp [hc]), List.reverse_cons, List.reverse_reverse]

/-- The space around a text has no words. -/
lemma words_trim (cs : List Char) : words isWhitespace (trim cs) = words isWhitespace cs := by
  rw [trim, words_reverse_dropWhile_reverse, words_dropWhile]

/-- Parts that are joined by separators keep their words. -/
lemma words_intercalate (hc : separates c) (parts : List (List Char)) :
    words separates (List.intercalate [c] parts) = parts.flatMap (words separates) := by
  induction parts with
  | nil => rfl
  | cons part parts ih =>
      cases parts with
      | nil => rw [List.intercalate_singleton, List.flatMap_singleton]
      | cons next parts =>
          rw [List.intercalate_cons_cons, List.append_assoc, List.singleton_append,
            words_append_cons hc, ih, ← List.flatMap_cons]

lemma mem_intercalate {α : Type} {sep c : α} {ls : List (List α)}
    (h : c ∈ List.intercalate [sep] ls) : c = sep ∨ ∃ l ∈ ls, c ∈ l := by
  induction ls with
  | nil => exact absurd h List.not_mem_nil
  | cons l ls ih =>
      cases ls with
      | nil =>
          rw [List.intercalate_singleton] at h
          exact Or.inr ⟨l, List.mem_cons_self, h⟩
      | cons m ls =>
          rw [List.intercalate_cons_cons, List.mem_append, List.mem_append,
            List.mem_singleton] at h
          rcases h with (h | h) | h
          · exact Or.inr ⟨l, List.mem_cons_self, h⟩
          · exact Or.inl h
          · obtain rfl | ⟨x, hx, hcx⟩ := ih h
            · exact Or.inl rfl
            · exact Or.inr ⟨x, List.mem_cons_of_mem _ hx, hcx⟩

/-- A joined list ends as its last part. -/
lemma exists_intercalate_concat {α : Type} (sep : List α) (ls : List (List α)) (l : List α) :
    ∃ front, List.intercalate sep (ls ++ [l]) = front ++ l := by
  induction ls with
  | nil => exact ⟨[], List.intercalate_singleton⟩
  | cons m ls ih =>
      obtain ⟨front, hfront⟩ := ih
      refine ⟨m ++ sep ++ front, ?_⟩
      cases ls with
      | nil =>
          rw [List.nil_append, List.intercalate_singleton] at hfront
          rw [List.cons_append, List.nil_append, List.intercalate_cons_cons,
            List.intercalate_singleton, List.append_assoc _ front, ← hfront]
      | cons n ls =>
          rw [List.cons_append, List.cons_append, List.intercalate_cons_cons, ← List.cons_append,
            hfront, List.append_assoc _ front]

/-- Words have no separators in them. -/
lemma separates_of_mem_words {w : List Char} (hw : w ∈ words separates cs) :
    ∀ c ∈ w, separates c = false := by
  have hsplit : ∀ w ∈ cs.splitOnP separates, ∀ c ∈ w, separates c = false := by
    clear hw
    induction cs with
    | nil => simp
    | cons c cs ih =>
        obtain ⟨v, vs, hcs⟩ := List.exists_cons_of_ne_nil (List.splitOnP_ne_nil separates cs)
        rw [hcs, List.forall_mem_cons] at ih
        rw [List.splitOnP_cons_eq_if_modifyHead, hcs]
        split_ifs with hc
        · exact List.forall_mem_cons.mpr ⟨List.forall_mem_nil _, List.forall_mem_cons.mpr ih⟩
        · rw [List.modifyHead_cons, List.forall_mem_cons]
          exact ⟨List.forall_mem_cons.mpr ⟨by simpa using hc, ih.1⟩, ih.2⟩
  exact hsplit w (List.mem_filter.mp hw).1

lemma ne_nil_of_mem_words {w : List Char} (hw : w ∈ words separates cs) : w ≠ [] := by
  simpa using (List.mem_filter.mp hw).2

/-- A text that begins with a character of a word: the word goes on with the next character, or
ends. -/
lemma words_cons_of_not (hc : separates c = false) (cs : List Char) :
    words separates (c :: cs) =
      if cs.head?.any (!separates ·) then (words separates cs).modifyHead (c :: ·)
      else [c] :: words separates cs := by
  cases cs with
  | nil => exact words_eq_singleton (List.cons_ne_nil c []) (List.forall_mem_singleton.mpr hc)
  | cons d cs =>
      cases hd : separates d with
      | true =>
          have hsplit : words separates [c] = [[c]] :=
            words_eq_singleton (List.cons_ne_nil c []) (List.forall_mem_singleton.mpr hc)
          rw [← List.singleton_append, words_append_cons hd, hsplit, words_cons hd]
          simp [hd]
      | false =>
          obtain ⟨w, ws, hcs⟩ := List.exists_cons_of_ne_nil (List.splitOnP_ne_nil separates cs)
          simp [words, List.splitOnP_cons_eq_if_modifyHead, hc, hd, hcs]

/-- Words that are joined are read back. -/
lemma words_intercalate_self {ws : List (List Char)} (hne : ∀ w ∈ ws, w ≠ [])
    (hc : ∀ w ∈ ws, c ∉ w) : words (· == c) (List.intercalate [c] ws) = ws := by
  rw [@words_intercalate (· == c) c (beq_self_eq_true c)]
  induction ws with
  | nil => rfl
  | cons w ws ih =>
      rw [List.forall_mem_cons] at hne hc
      rw [List.flatMap_cons, ih hne.2 hc.2, words_eq_singleton hne.1, List.singleton_append]
      intro d hd
      rw [beq_eq_false_iff_ne]
      rintro rfl
      exact hc.1 hd

/-- No separator stands behind another. -/
def Single (c : Char) (cs : List Char) : Prop := cs.IsChain fun a b => a = c → b ≠ c

lemma Single.head?_ne (h : Single c (c :: cs)) : cs.head? ≠ some c := by
  cases cs with
  | nil => simp
  | cons d cs => simpa using (List.isChain_cons_cons.mp h).1 rfl

lemma intercalate_ne_nil {w : List Char} (hw : w ≠ []) {ws : List (List Char)} :
    List.intercalate [c] (w :: ws) ≠ [] := by
  cases ws with
  | nil => rwa [List.intercalate_singleton]
  | cons v ws =>
      rw [List.intercalate_cons_cons, List.append_assoc]
      exact List.append_ne_nil_of_left_ne_nil hw _

lemma rdropWhile_cons (p : Char → Bool) (a : Char) (cs : List Char) :
    (a :: cs).rdropWhile p = if cs.rdropWhile p = [] ∧ p a then [] else a :: cs.rdropWhile p := by
  rw [List.rdropWhile, List.reverse_cons, List.dropWhile_append]
  cases hcs : cs.reverse.dropWhile p with
  | nil =>
      cases ha : p a with
      | true => simp [List.rdropWhile, hcs, ha]
      | false => simp [List.rdropWhile, hcs, ha]
  | cons b l => simp [List.rdropWhile, hcs]

/-- A text with single separators that does not begin with one, without the one at its end. -/
lemma rdropWhile_eq_intercalate : ∀ {cs : List Char}, Single c cs → cs.head? ≠ some c →
    cs.rdropWhile (· == c) = List.intercalate [c] (words (· == c) cs)
  | [], _, _ => rfl
  | [a], _, hhead => by
      have ha : (a == c) = false := by simpa using hhead
      rw [rdropWhile_cons, words_eq_singleton (List.cons_ne_nil a [])
        (List.forall_mem_singleton.mpr ha), List.intercalate_singleton]
      simp [ha]
  | a :: b :: cs, hsingle, hhead => by
      have ha : (a == c) = false := by simpa using hhead
      obtain ⟨-, hsingle⟩ := List.isChain_cons_cons.mp hsingle
      rw [rdropWhile_cons, if_neg (by simp [ha])]
      cases hb : b == c with
      | true =>
          -- the word ends, and the next one begins behind the separator
          obtain rfl := (eq_of_beq hb).symm
          have hcs := Single.head?_ne hsingle
          have htail : Single c cs := hsingle.tail
          have hwords : words (· == c) (a :: c :: cs) = [a] :: words (· == c) cs := by
            rw [← List.singleton_append, @words_append_cons (· == c) c (beq_self_eq_true c),
              words_eq_singleton (List.cons_ne_nil a []) (List.forall_mem_singleton.mpr ha),
              List.singleton_append]
          rw [rdropWhile_cons, rdropWhile_eq_intercalate htail hcs, hwords]
          cases hcase : words (· == c) cs with
          | nil => simp
          | cons w ws =>
              have hw : w ≠ [] := ne_nil_of_mem_words (by rw [hcase]; exact List.mem_cons_self)
              rw [List.intercalate_cons_cons, if_neg fun h => intercalate_ne_nil hw h.1]
              rfl
      | false =>
          -- the word goes on
          have ih := rdropWhile_eq_intercalate hsingle (by simpa using hb)
          obtain ⟨w, ws, hwords⟩ := @exists_words_cons (· == c) b hb cs
          rw [ih, @words_cons_of_not (· == c) a ha, hwords, List.head?_cons, if_pos (by simp [hb]),
            List.modifyHead_cons]
          cases ws with
          | nil => rw [List.intercalate_singleton, List.intercalate_singleton]
          | cons v ws => rw [List.intercalate_cons_cons, List.intercalate_cons_cons]; rfl

/-! ### The first words -/

/-- A text that begins with the given words: each is a run of characters that do not separate,
behind separators, if there are any, and ends with the text or at a separator. -/
inductive BeginsWith (separates : Char → Bool) : List (List Char) → List Char → Prop where
  | nil (cs : List Char) : BeginsWith separates [] cs
  | cons {gap w rest : List Char} {ws : List (List Char)} (apart : ∀ c ∈ gap, separates c)
      (nonempty : w ≠ []) (word : ∀ c ∈ w, separates c = false)
      (ends : ∀ c ∈ rest.head?, separates c) (next : BeginsWith separates ws rest) :
      BeginsWith separates (w :: ws) (gap ++ w ++ rest)

lemma words_append_of_separates {gap : List Char} (h : ∀ c ∈ gap, separates c) (cs : List Char) :
    words separates (gap ++ cs) = words separates cs := by
  induction gap with
  | nil => rfl
  | cons c gap ih =>
      rw [List.forall_mem_cons] at h
      rw [List.cons_append, words_cons h.1, ih h.2]

/-- A word that ends. -/
lemma words_append_of_ends {w rest : List Char} (hne : w ≠ [])
    (hw : ∀ c ∈ w, separates c = false) (hends : ∀ c ∈ rest.head?, separates c) :
    words separates (w ++ rest) = w :: words separates rest := by
  cases rest with
  | nil => rw [List.append_nil, words_eq_singleton hne hw, words_nil]
  | cons c rest =>
      have hc : separates c := hends c rfl
      rw [words_append_cons hc, words_eq_singleton hne hw, words_cons hc, List.singleton_append]

/-- **The first words of a text** are those it begins with. -/
lemma beginsWith_iff {ws : List (List Char)} :
    BeginsWith separates ws cs ↔ ws <+: words separates cs := by
  constructor
  · intro h
    induction h with
    | nil cs => exact List.nil_prefix
    | cons apart nonempty word ends next ih =>
        rw [List.append_assoc, words_append_of_separates apart,
          words_append_of_ends nonempty word ends]
        exact List.cons_prefix_cons.mpr ⟨rfl, ih⟩
  · induction ws generalizing cs with
    | nil => exact fun _ => .nil cs
    | cons w ws ih =>
        intro h
        -- the first word of the text, and what is behind it
        have hgap : ∀ c ∈ cs.takeWhile separates, separates c := fun c hc =>
          List.mem_takeWhile_imp hc
        have hcs : cs = cs.takeWhile separates ++ cs.dropWhile separates :=
          List.takeWhile_append_dropWhile.symm
        rw [hcs, words_append_of_separates hgap] at h
        cases hword : cs.dropWhile separates with
        | nil =>
            rw [hword] at h
            exact absurd (List.prefix_nil.mp h) (List.cons_ne_nil _ _)
        | cons c tail =>
            have hc : separates c = false := head?_dropWhile cs c (by rw [hword]; rfl)
            let front := (c :: tail).takeWhile (!separates ·)
            let rest := (c :: tail).dropWhile (!separates ·)
            have hsplit : c :: tail = front ++ rest := List.takeWhile_append_dropWhile.symm
            have hne : front ≠ [] := by simp [front, hc]
            have hfront : ∀ c ∈ front, separates c = false := fun c hc => by
              simpa using List.mem_takeWhile_imp hc
            have hends : ∀ d ∈ rest.head?, separates d := fun d hd => by
              simpa using @head?_dropWhile (!separates ·) (c :: tail) d hd
            rw [hword, hsplit, words_append_of_ends hne hfront hends, List.cons_prefix_cons] at h
            rw [hcs, hword, hsplit, ← List.append_assoc, h.1]
            exact .cons hgap hne hfront hends (ih h.2)

/-! ### Trimming -/

lemma trimMatches_eq_rdropWhile (c : Char) (cs : List Char) :
    trimMatches c cs = (cs.dropWhile (· == c)).rdropWhile (· == c) := rfl

lemma isInfix_trimMatches (c : Char) (cs : List Char) : trimMatches c cs <:+: cs := by
  rw [trimMatches_eq_rdropWhile]
  exact (List.rdropWhile_prefix _ _).isInfix.trans (List.dropWhile_suffix _).isInfix

lemma Single.trimMatches (h : Single c cs) : Single c (trimMatches c cs) := by
  obtain ⟨front, rest, hcs⟩ := isInfix_trimMatches c cs
  rw [← hcs] at h
  exact (List.IsChain.left_of_append h).right_of_append

lemma head?_trimMatches (c : Char) (cs : List Char) : (trimMatches c cs).head? ≠ some c := by
  intro h
  obtain ⟨t, ht⟩ := List.head?_eq_some_iff.mp h
  obtain ⟨r, hr⟩ := List.rdropWhile_prefix (· == c) (cs.dropWhile (· == c))
  have hnot := List.head?_dropWhile_not (· == c) cs
  rw [← hr, ← trimMatches_eq_rdropWhile, ht, List.cons_append, List.head?_cons] at hnot
  simp at hnot

lemma getLast?_trimMatches (c : Char) (cs : List Char) : (trimMatches c cs).getLast? ≠ some c := by
  intro h
  rw [trimMatches, List.getLast?_reverse] at h
  have hnot := List.head?_dropWhile_not (· == c) (cs.dropWhile (· == c)).reverse
  rw [h] at hnot
  simp at hnot

lemma dropMatches_eq_self (h : cs.head? ≠ some c) : cs.dropWhile (· == c) = cs :=
  dropWhile_eq_self fun _ hd => beq_eq_false_iff_ne.mpr fun heq => h (heq ▸ hd)

lemma trimMatches_eq_self (hhead : cs.head? ≠ some c) (hlast : cs.getLast? ≠ some c) :
    trimMatches c cs = cs := by
  have hreverse : cs.reverse.head? ≠ some c := by rwa [List.head?_reverse]
  rw [trimMatches, dropMatches_eq_self hhead, dropMatches_eq_self hreverse, List.reverse_reverse]

/-- **A text with single separators is its words joined**, once those at its ends are gone. -/
lemma trimMatches_eq_intercalate (h : Single c cs) :
    trimMatches c cs = List.intercalate [c] (words (· == c) cs) := by
  cases cs with
  | nil => rfl
  | cons a cs =>
      by_cases ha : a = c
      · subst ha
        have hcs := Single.head?_ne h
        have hdrop : (a :: cs).dropWhile (· == a) = cs := by
          rw [@List.dropWhile_cons_of_pos _ (· == a) a cs (beq_self_eq_true a),
            dropMatches_eq_self hcs]
        have hsingle : Single a cs := h.tail
        rw [@words_cons (· == a) a (beq_self_eq_true a), ← rdropWhile_eq_intercalate hsingle hcs,
          trimMatches_eq_rdropWhile, hdrop]
      · have hhead : (a :: cs).head? ≠ some c := by simpa using ha
        rw [← rdropWhile_eq_intercalate h hhead, trimMatches_eq_rdropWhile,
          dropMatches_eq_self hhead]

end Text
