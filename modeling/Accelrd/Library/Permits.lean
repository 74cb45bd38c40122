import Mathlib.Tactic

/-!
A loop that spawns tasks under a counting semaphore: it visits the entries of a queue in
order, spawns a task for some of them, and takes a permit for each, which the task gives
back when it ends.

* `step_spec`: what an action can do.
* `add_permits_of_run`: the permits are neither lost nor doubled.
* `exists_run_done`: with a permit at all, every run can be completed.
* `live_iff`: without one, exactly the queues that need none can be completed.
-/

namespace Permits

variable {β τ : Type}

/-- The entries that the loop has not visited, the free permits, and the tasks that run. -/
structure State (β τ : Type) where
  queue : List β
  permits : ℕ
  running : List τ

/-- The loop visits the next entry, or a task ends, for whatever reason. -/
inductive Action where
  | visit
  | finish (i : ℕ)

/-- The state after an action, if the action is possible. The loop waits while it has a
task to spawn and no permit is free. -/
def step (job : β → Option τ) (s : State β τ) : Action → Option (State β τ)
  | .visit =>
      match s.queue with
      | [] => none
      | b :: queue =>
          match job b with
          | none => some { s with queue }
          | some t =>
              if s.permits = 0 then none
              else some { queue, permits := s.permits - 1, running := s.running ++ [t] }
  | .finish i =>
      if i < s.running.length then
        some { s with running := s.running.eraseIdx i, permits := s.permits + 1 }
      else none

/-- The state after a sequence of actions. -/
def run (job : β → Option τ) : State β τ → List Action → Option (State β τ)
  | s, [] => some s
  | s, a :: as => (step job s a).bind fun s' => run job s' as

/-- The next entry needs a permit. -/
def State.Waiting (job : β → Option τ) (s : State β τ) : Prop :=
  ∃ b ∈ s.queue.head?, (job b).isSome

/-- Every entry was visited and every task has ended. -/
def State.Done (s : State β τ) : Prop := s.queue = [] ∧ s.running = []

/-- What an action can do. -/
inductive StepSpec (job : β → Option τ) (s s' : State β τ) : Prop where
  | skip (b : β) (hjob : job b = none) (hqueue : s.queue = b :: s'.queue)
      (hpermits : s'.permits = s.permits) (hrunning : s'.running = s.running)
  | spawn (b : β) (t : τ) (hjob : job b = some t) (hqueue : s.queue = b :: s'.queue)
      (hpermits : s.permits = s'.permits + 1) (hrunning : s'.running = s.running ++ [t])
  | finish (i : ℕ) (hi : i < s.running.length) (hqueue : s'.queue = s.queue)
      (hpermits : s'.permits = s.permits + 1) (hrunning : s'.running = s.running.eraseIdx i)

variable {job : β → Option τ} {s s' : State β τ}

/-- **The step lemma**: every action is one of three. -/
theorem step_spec {a : Action} (h : step job s a = some s') : StepSpec job s s' := by
  cases a with
  | visit =>
      simp only [step] at h
      split at h
      · simp at h
      · rename_i b queue hqueue
        split at h
        · rename_i hjob
          obtain rfl := Option.some.inj h
          exact .skip b hjob hqueue rfl rfl
        · rename_i t hjob
          split_ifs at h with hpermits
          obtain rfl := Option.some.inj h
          exact .spawn b t hjob hqueue (Nat.succ_pred_eq_of_ne_zero hpermits).symm rfl
  | finish i =>
      simp only [step] at h
      split_ifs at h with hi
      obtain rfl := Option.some.inj h
      exact .finish i hi rfl rfl rfl

/-! ### Conservation -/

lemma add_permits_of_step (h : StepSpec job s s') :
    s'.running.length + s'.permits = s.running.length + s.permits := by
  cases h with
  | skip b hjob hqueue hpermits hrunning => rw [hpermits, hrunning]
  | spawn b t hjob hqueue hpermits hrunning =>
      rw [hpermits, hrunning, List.length_append, List.length_singleton]
      omega
  | finish i hi hqueue hpermits hrunning =>
      rw [hpermits, hrunning, List.length_eraseIdx_of_lt hi]
      omega

/-- What every action keeps, every run keeps. -/
lemma run_induction {P : State β τ → Prop} (hstep : ∀ s s', StepSpec job s s' → P s → P s')
    {as : List Action} (h : run job s as = some s') (hs : P s) : P s' := by
  induction as generalizing s with
  | nil =>
      obtain rfl := Option.some.inj h
      exact hs
  | cons a as ih =>
      obtain ⟨s₁, hs₁, hrest⟩ := Option.bind_eq_some_iff.mp h
      exact ih hrest (hstep s s₁ (step_spec hs₁) hs)

/-- **Permits are conserved**: each one is free or held by a running task. -/
theorem add_permits_of_run {as : List Action} (h : run job s as = some s') :
    s'.running.length + s'.permits = s.running.length + s.permits :=
  run_induction (P := fun s' => s'.running.length + s'.permits = s.running.length + s.permits)
    (fun _ _ hstep hs => (add_permits_of_step hstep).trans hs) h rfl

/-! ### Progress -/

/-- The actions that are left: an entry may have to be visited, and its task to end. -/
def State.weight (s : State β τ) : ℕ := 2 * s.queue.length + s.running.length

lemma weight_lt_of_step (h : StepSpec job s s') : s'.weight < s.weight := by
  cases h with
  | skip b hjob hqueue hpermits hrunning =>
      rw [State.weight, State.weight, hrunning, hqueue, List.length_cons]
      omega
  | spawn b t hjob hqueue hpermits hrunning =>
      rw [State.weight, State.weight, hrunning, hqueue, List.length_append, List.length_singleton,
        List.length_cons]
      omega
  | finish i hi hqueue hpermits hrunning =>
      rw [State.weight, State.weight, hrunning, hqueue, List.length_eraseIdx_of_lt hi]
      omega

/-- The state has a permit, free or held, or needs none. -/
def State.Supplied (job : β → Option τ) (s : State β τ) : Prop :=
  s.running.length + s.permits ≠ 0 ∨ ∀ b ∈ s.queue, job b = none

lemma State.Supplied.step (h : StepSpec job s s') (hs : s.Supplied job) : s'.Supplied job := by
  refine hs.imp (fun hne => ?_) (fun hnone b hb => hnone b ?_)
  · rwa [add_permits_of_step h]
  · cases h with
    | skip _ _ hqueue => exact hqueue ▸ List.mem_cons_of_mem _ hb
    | spawn _ _ _ hqueue => exact hqueue ▸ List.mem_cons_of_mem _ hb
    | finish _ _ hqueue => exact hqueue ▸ hb

/-- A wait can end. -/
lemma State.Supplied.of_waiting (hs : s.Supplied job) (hwait : s.Waiting job) :
    s.permits ≠ 0 ∨ s.running ≠ [] := by
  obtain ⟨b, hb, hjob⟩ := hwait
  rcases hs with hne | hnone
  · by_cases hpermits : s.permits = 0
    · refine Or.inr fun hnil => hne ?_
      rw [hnil, hpermits, List.length_nil]
    · exact Or.inl hpermits
  · rw [hnone b (List.mem_of_mem_head? hb)] at hjob
    exact absurd hjob Bool.false_ne_true

/-- Some action is possible. -/
lemma State.Supplied.exists_step (hs : s.Supplied job) (hdone : ¬ s.Done) :
    ∃ a s', Permits.step job s a = some s' := by
  by_cases hrunning : s.running = []
  · cases hqueue : s.queue with
    | nil => exact absurd ⟨hqueue, hrunning⟩ hdone
    | cons b queue =>
        refine ⟨.visit, ?_⟩
        simp only [Permits.step, hqueue]
        cases hjob : job b with
        | none => exact ⟨_, rfl⟩
        | some t =>
            have hwait : s.Waiting job := ⟨b, by rw [hqueue]; rfl, by rw [hjob]; rfl⟩
            have hpermits : s.permits ≠ 0 := (hs.of_waiting hwait).resolve_right (· hrunning)
            exact ⟨_, if_neg hpermits⟩
  · exact ⟨.finish 0, _, if_pos (List.length_pos_iff.mpr hrunning)⟩

/-- **Every run can be completed**, by induction on the actions that are left. -/
theorem State.Supplied.exists_run_done (hs : s.Supplied job) :
    ∃ as s', run job s as = some s' ∧ s'.Done := by
  induction hw : s.weight using Nat.strong_induction_on generalizing s with
  | _ w ih =>
    by_cases hdone : s.Done
    · exact ⟨[], s, rfl, hdone⟩
    · obtain ⟨a, s₁, ha⟩ := hs.exists_step hdone
      have hspec := step_spec ha
      obtain ⟨as, s', hrun, hdone'⟩ :=
        ih s₁.weight (hw ▸ weight_lt_of_step hspec) (hs.step hspec) rfl
      exact ⟨a :: as, s', by rw [run, ha]; exact hrun, hdone'⟩

/-! ### When it gets stuck -/

/-- The loop comes to an entry that needs a permit, if there is one. -/
lemma exists_run_waiting {queue : List β} (h : ∃ b ∈ queue, job b ≠ none) (permits : ℕ)
    (running : List τ) :
    ∃ as s, run job ⟨queue, permits, running⟩ as = some s ∧ s.Waiting job ∧
      s.permits = permits ∧ s.running = running := by
  induction queue with
  | nil => simp at h
  | cons b queue ih =>
      cases hjob : job b with
      | some t => exact ⟨[], _, rfl, ⟨b, rfl, by rw [hjob]; rfl⟩, rfl, rfl⟩
      | none =>
          have hrest : ∃ b' ∈ queue, job b' ≠ none := by
            obtain ⟨b', hb', hne⟩ := h
            refine ⟨b', List.mem_of_ne_of_mem ?_ hb', hne⟩
            rintro rfl
            exact hne hjob
          obtain ⟨as, s, hrun, hs⟩ := ih hrest
          refine ⟨.visit :: as, s, ?_, hs⟩
          simp only [run, step, hjob]
          exact hrun

/-- A state of a run that neither loses permits nor gets stuck: it has all permits, a
wait can end, and so can the run. -/
structure State.Live (job : β → Option τ) (limit : ℕ) (s : State β τ) : Prop where
  conserved : s.running.length + s.permits = limit
  wait_ends : s.Waiting job → s.permits ≠ 0 ∨ s.running ≠ []
  run_ends : ∃ as s', run job s as = some s' ∧ s'.Done

/-- **When a loop with a semaphore lives**: if there is a permit, or nothing to spawn. -/
theorem live_iff (queue : List β) (limit : ℕ) :
    (∀ as s, run job ⟨queue, limit, []⟩ as = some s → s.Live job limit) ↔
      limit ≠ 0 ∨ ∀ b ∈ queue, job b = none := by
  constructor
  · intro h
    by_contra hnot
    obtain ⟨hlimit, hjobs⟩ := not_or.mp hnot
    obtain rfl := not_not.mp hlimit
    obtain ⟨as, s, hrun, hwait, hpermits, hrunning⟩ :=
      @exists_run_waiting β τ job queue (by simpa using hjobs) 0 []
    exact ((h as s hrun).wait_ends hwait).elim (· hpermits) (· hrunning)
  · intro h as s hrun
    have hstart : State.Supplied job ⟨queue, limit, []⟩ := by
      rwa [State.Supplied, List.length_nil, Nat.zero_add]
    have hs : s.Supplied job :=
      run_induction (fun _ _ hstep hs => State.Supplied.step hstep hs) hrun hstart
    refine ⟨?_, hs.of_waiting, hs.exists_run_done⟩
    rw [add_permits_of_run hrun, List.length_nil, Nat.zero_add]

end Permits
