import Mathlib.Tactic

/-!
Boxes with sides along the axes.

* `Box.Inside`, `Box.Apart`: one box in another, and two boxes that have no inner point in
  common.
* `Box.Apart.mono`: what is in boxes that are apart is apart.
* `Within`, `Within.apart`: the same for collections of boxes.
-/

namespace Boxes

/-- A box, by its corner and its sides. -/
structure Box where
  left : ℚ
  top : ℚ
  width : ℚ
  height : ℚ

/-- The box at another place. -/
def Box.move (dx dy : ℚ) (b : Box) : Box := ⟨b.left + dx, b.top + dy, b.width, b.height⟩

/-- The first box is in the second. -/
structure Box.Inside (a b : Box) : Prop where
  left : b.left ≤ a.left
  top : b.top ≤ a.top
  right : a.left + a.width ≤ b.left + b.width
  bottom : a.top + a.height ≤ b.top + b.height

/-- One box is beside the other, or above it. -/
def Box.Apart (a b : Box) : Prop :=
  a.left + a.width ≤ b.left ∨ b.left + b.width ≤ a.left ∨
    a.top + a.height ≤ b.top ∨ b.top + b.height ≤ a.top

namespace Box

variable {a a' b b' c : Box}

lemma Inside.refl (a : Box) : a.Inside a := ⟨le_refl _, le_refl _, le_refl _, le_refl _⟩

lemma Inside.trans (h : a.Inside b) (h' : b.Inside c) : a.Inside c :=
  ⟨h'.left.trans h.left, h'.top.trans h.top, h.right.trans h'.right, h.bottom.trans h'.bottom⟩

lemma Inside.move (h : a.Inside b) (dx dy : ℚ) : (a.move dx dy).Inside (b.move dx dy) where
  left := add_le_add_left h.left dx
  top := add_le_add_left h.top dy
  right := by simp only [Box.move]; linarith [h.right]
  bottom := by simp only [Box.move]; linarith [h.bottom]

/-- Smaller boxes are apart as well. -/
lemma Apart.mono (h : a.Apart b) (ha : a'.Inside a) (hb : b'.Inside b) : a'.Apart b' := by
  rcases h with h | h | h | h
  · exact .inl (ha.right.trans (h.trans hb.left))
  · exact .inr (.inl (hb.right.trans (h.trans ha.left)))
  · exact .inr (.inr (.inl (ha.bottom.trans (h.trans hb.top))))
  · exact .inr (.inr (.inr (hb.bottom.trans (h.trans ha.top))))

end Box

/-! ### Collections -/

/-- All boxes are in one. -/
def Within (boxes : List Box) (b : Box) : Prop := ∀ a ∈ boxes, a.Inside b

/-- The boxes of the one are apart from those of the other. -/
def Apart (boxes boxes' : List Box) : Prop := ∀ a ∈ boxes, ∀ a' ∈ boxes', a.Apart a'

variable {boxes boxes' : List Box} {b b' : Box}

lemma within_nil (b : Box) : Within [] b := fun _ ha => absurd ha List.not_mem_nil

lemma Within.mono (h : Within boxes b) (hb : b.Inside b') : Within boxes b' :=
  fun a ha => (h a ha).trans hb

lemma Within.append (h : Within boxes b) (h' : Within boxes' b) : Within (boxes ++ boxes') b :=
  fun a ha => (List.mem_append.mp ha).elim (h a) (h' a)

lemma Within.move (h : Within boxes b) (dx dy : ℚ) :
    Within (boxes.map (Box.move dx dy)) (b.move dx dy) := by
  intro b' hb'
  obtain ⟨a, ha, rfl⟩ := List.mem_map.mp hb'
  exact (h a ha).move dx dy

/-- What is within boxes that are apart is apart. -/
lemma Within.apart (h : Within boxes b) (h' : Within boxes' b') (hb : b.Apart b') :
    Apart boxes boxes' := fun a ha a' ha' => hb.mono (h a ha) (h' a' ha')

end Boxes
