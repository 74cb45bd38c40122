import Mathlib.Tactic

/-!
Text that is put into markup, and the characters that delimit tags and attributes.

* `delimiters`: the delimiters of a string, in order.
* `escape`, with `delimiters_escape`: text whose delimiters are written as entities has
  none left.
* `flatMap_frame_eq_iff`, `flatMap_frame_eq_iff_of_blank`: what two lists of texts must
  have in common for a repeated template to come out the same.
-/

namespace Markup

/-! ### Delimiters -/

/-- The characters that open, close or leave a tag or an attribute. -/
def isDelimiter (c : Char) : Bool := c = '<' || c = '>' || c = '"'

/-- The delimiters of a string. -/
def delimiters (s : String) : List Char := s.toList.filter isDelimiter

@[simp] lemma delimiters_append (s t : String) :
    delimiters (s ++ t) = delimiters s ++ delimiters t := by
  rw [delimiters, String.toList_append, List.filter_append, delimiters, delimiters]

lemma delimiters_join (l : List String) : delimiters (String.join l) = l.flatMap delimiters := by
  rw [delimiters, String.toList_join, List.filter_flatMap]
  rfl

/-- A mapping of characters that neither takes nor yields delimiters. -/
lemma delimiters_map {f : Char → Char} (hf : ∀ c, isDelimiter (f c) = isDelimiter c)
    (hfix : ∀ c, isDelimiter c → f c = c) (s : String) : delimiters (s.map f) = delimiters s := by
  have hcongr : s.toList.filter (isDelimiter ∘ f) = s.toList.filter isDelimiter :=
    List.filter_congr fun c _ => hf c
  rw [delimiters, String.toList_map, List.filter_map, hcongr, delimiters]
  exact (List.map_congr_left fun c hc => hfix c (List.mem_filter.mp hc).2).trans (List.map_id _)

/-! ### Entities -/

/-- What is written for a character. -/
def written (entity : Char → Option String) (c : Char) : List Char :=
  ((entity c).map String.toList).getD [c]

/-- A text with entities for some of its characters. -/
def escape (entity : Char → Option String) (s : String) : String :=
  String.ofList (s.toList.flatMap (written entity))

/-- **No delimiter is left**, if each has an entity and no entity has one. -/
theorem delimiters_escape {entity : Char → Option String}
    (hsome : ∀ c, isDelimiter c → (entity c).isSome)
    (hclean : ∀ c r, entity c = some r → delimiters r = []) (s : String) :
    delimiters (escape entity s) = [] := by
  rw [delimiters, escape, String.toList_ofList, List.filter_flatMap, List.flatMap_eq_nil_iff]
  intro c _
  rw [written]
  cases hc : entity c with
  | some r => exact hclean c r hc
  | none =>
      refine List.filter_eq_nil_iff.mpr fun x hx hdelimiter => ?_
      rw [List.mem_singleton.mp hx] at hdelimiter
      simpa [hc] using hsome c hdelimiter

/-! ### A template, repeated -/

section Frame

variable {α : Type} (pre post : List α)

/-- A text in its place in the template. -/
def frame (d : List α) : List α := pre ++ d ++ post

lemma flatMap_frame (d : List α) (l : List (List α)) :
    (d :: l).flatMap (frame pre post) = pre ++ (post ++ pre).intercalate (d :: l) ++ post := by
  induction l generalizing d with
  | nil => simp [frame]
  | cons d' l ih =>
      rw [List.flatMap_cons, ih, List.intercalate_cons_cons, frame]
      simp only [List.append_assoc]

/-- **Two repetitions come out the same** if the texts do, with what the template has
between them. -/
theorem flatMap_frame_eq_iff {l l' : List (List α)} (hlen : l.length = l'.length) :
    l.flatMap (frame pre post) = l'.flatMap (frame pre post) ↔
      (post ++ pre).intercalate l = (post ++ pre).intercalate l' := by
  cases l with
  | nil => rw [List.length_eq_zero_iff.mp hlen.symm]; simp
  | cons d l =>
      cases l' with
      | nil => simp at hlen
      | cons d' l' =>
          rw [flatMap_frame, flatMap_frame]
          simp

lemma length_flatMap_frame (l : List (List α)) :
    (l.flatMap (frame pre post)).length =
      l.length * (pre.length + post.length) + (l.map List.length).sum := by
  induction l with
  | nil => simp
  | cons d l ih =>
      rw [List.flatMap_cons, List.length_append, ih, frame, List.length_append, List.length_append,
        List.length_cons, List.map_cons, List.sum_cons]
      ring

/-- If the texts of one repetition are empty, those of the other must be. -/
theorem flatMap_frame_eq_iff_of_blank {l l' : List (List α)} (hlen : l.length = l'.length)
    (hblank : ∀ d ∈ l, d = []) :
    l.flatMap (frame pre post) = l'.flatMap (frame pre post) ↔ ∀ d ∈ l', d = [] := by
  have hzero : (l.map List.length).sum = 0 := by
    rw [List.sum_eq_zero_iff, List.forall_mem_map]
    exact fun d hd => List.length_eq_zero_iff.mpr (hblank d hd)
  constructor
  · intro heq d hd
    have hlength := congrArg List.length heq
    rw [length_flatMap_frame, length_flatMap_frame, hlen, hzero] at hlength
    have hsum : (l'.map List.length).sum = 0 := by omega
    rw [List.sum_eq_zero_iff, List.forall_mem_map] at hsum
    exact List.length_eq_zero_iff.mp (hsum d hd)
  · intro hblank'
    have hreplicate {m : List (List α)} (h : ∀ d ∈ m, d = []) : m = List.replicate m.length [] :=
      List.eq_replicate_of_mem h
    rw [hreplicate hblank, hreplicate hblank', hlen]

end Frame

end Markup
