import Mathlib.Tactic

/-!
Systems that several parties act on, each by events of its own.

* `Follows`: a machine that knows a part of the state only, and moves by the events of one
  party only, follows the system.
* `Follows.run`: then it follows every run, and needs to be told of that party's events only.
* `Follows.agree`: interleavings that keep the order of that party's events are possible or
  not alike, and they leave the part in the same state.
-/

namespace Interleaving

variable {σ τ ε : Type} {step : σ → ε → Option σ} {track : τ → ε → Option τ} {part : σ → τ}
variable {mine : ε → Bool}

/-- The machine `track` follows the part of the state: it is stuck when the system is, and
it idles at the events of the other parties. -/
structure Follows (step : σ → ε → Option σ) (track : τ → ε → Option τ) (part : σ → τ)
    (mine : ε → Bool) : Prop where
  map_step : ∀ s e, (step s e).map part = track (part s) e
  idle : ∀ t e, mine e = false → track t e = some t

/-- A run, seen in the part, is a run over the party's own events. -/
theorem Follows.run (h : Follows step track part mine) (s : σ) (es : List ε) :
    (es.foldlM step s).map part = (es.filter mine).foldlM track (part s) := by
  induction es generalizing s with
  | nil => rfl
  | cons e es ih =>
      have hstep := h.map_step s e
      rw [List.foldlM_cons, List.filter_cons]
      cases hmine : mine e with
      | true =>
          rw [if_pos rfl, List.foldlM_cons, ← hstep]
          cases step s e with
          | none => rfl
          | some s₁ => exact ih s₁
      | false =>
          rw [if_neg (by simp)]
          rw [h.idle _ e hmine] at hstep
          obtain ⟨s₁, hs₁, hpart⟩ := Option.map_eq_some_iff.mp hstep
          rw [hs₁, ← hpart]
          exact ih s₁

/-- What the others do in between makes no difference. -/
theorem Follows.agree (h : Follows step track part mine) (s : σ) {es es' : List ε}
    (heq : es.filter mine = es'.filter mine) :
    (es.foldlM step s).map part = (es'.foldlM step s).map part := by
  rw [h.run, h.run, heq]

end Interleaving
