import Kfw.Lib.Exec

namespace exec

open Result

variable {ε σ α : Type}

/-- The state after a list of actions, taken one after the other. -/
def steps (step : σ → α → Result ε σ) : σ → List α → Result ε σ
  | state, [] => ok state
  | state, action :: actions => do
    let next ← step state action
    steps step next actions

/-- Every action of a run satisfies `P` in the state it is taken in. A run
that stops at a failing step has no later state to answer for. -/
def Along (step : σ → α → Result ε σ) (P : σ → α → Prop) : σ → List α → Prop
  | _, [] => True
  | state, action :: actions =>
    P state action ∧ ∀ next, step state action = ok next → Along step P next actions

/-- Every state a run passes through, the first and the last included,
satisfies `P`. -/
def Always (step : σ → α → Result ε σ) (P : σ → Prop) : σ → List α → Prop
  | state, [] => P state
  | state, action :: actions =>
    P state ∧ ∀ next, step state action = ok next → Always step P next actions

variable {step : σ → α → Result ε σ} {allowed P Q : σ → α → Prop} {state : σ} {actions : List α}

theorem along_cons_of_ok {action : α} {next : σ} (hnext : step state action = ok next) :
    Along step P state (action :: actions) ↔ P state action ∧ Along step P next actions := by
  simp [Along, hnext]

/-- A run is checked by running it. -/
instance Along.decidable [∀ state action, Decidable (P state action)] :
    ∀ state actions, Decidable (Along step P state actions)
  | _, [] => .isTrue trivial
  | state, action :: actions =>
    match hnext : step state action with
    | ok next =>
      have := Along.decidable next actions
      decidable_of_iff (P state action ∧ Along step P next actions) (along_cons_of_ok hnext).symm
    | fail _ | div => decidable_of_iff (P state action) (by simp [Along, hnext])

theorem Along.of_forall (h : ∀ action ∈ actions, ∀ state, P state action) : Along step P state actions := by
  induction actions generalizing state with
  | nil => exact trivial
  | cons action actions ih =>
    exact ⟨h action List.mem_cons_self state,
      fun next _ => ih fun other hother => h other (List.mem_cons_of_mem _ hother)⟩

theorem Along.imp (himp : ∀ state action, P state action → Q state action) (h : Along step P state actions) :
    Along step Q state actions := by
  induction actions generalizing state with
  | nil => exact trivial
  | cons action actions ih => exact ⟨himp state action h.1, fun next hnext => ih (h.2 next hnext)⟩

theorem Along.front {more : List α} (h : Along step P state (actions ++ more)) : Along step P state actions := by
  induction actions generalizing state with
  | nil => exact trivial
  | cons action actions ih => exact ⟨h.1, fun next hnext => ih (h.2 next hnext)⟩

/-- The last action of a run is taken in the state that those before it lead to. -/
theorem Along.last_action {action : α} (h : Along step P state (actions ++ [action])) {last : σ}
    (hsteps : steps step state actions = ok last) : P last action := by
  induction actions generalizing state with
  | nil =>
    cases hsteps
    exact h.1
  | cons first actions ih =>
    obtain ⟨next, hnext, hrest⟩ := bind_eq_ok_iff.mp hsteps
    exact ih (h.2 next hnext) hrest

/-- A run without a failing step does not fail. -/
theorem Along.steps_ne_fail {error : ε}
    (h : Along step (fun state action => step state action ≠ fail error) state actions) :
    steps step state actions ≠ fail error := by
  induction actions generalizing state with
  | nil => simp [steps]
  | cons action actions ih =>
    cases hnext : step state action with
    | ok next => simpa [steps, hnext] using ih (h.2 next hnext)
    | fail other => simpa [steps, hnext] using h.1
    | div => simp [steps, hnext]

theorem Always.head {R : σ → Prop} (h : Always step R state actions) : R state := by
  cases actions with
  | nil => exact h
  | cons action actions => exact h.1

/-- The state in which a run ends is one of those it passes through. -/
theorem Always.last {R : σ → Prop} (h : Always step R state actions) {last : σ}
    (hsteps : steps step state actions = ok last) : R last := by
  induction actions generalizing state with
  | nil =>
    cases hsteps
    exact h
  | cons action actions ih =>
    obtain ⟨next, hnext, hrest⟩ := bind_eq_ok_iff.mp hsteps
    exact ih (h.2 next hnext) hrest

theorem Always.imp {R S : σ → Prop} (himp : ∀ state, R state → S state)
    (h : Always step R state actions) : Always step S state actions := by
  induction actions generalizing state with
  | nil => exact himp state h
  | cons action actions ih => exact ⟨himp state h.1, fun next hnext => ih (h.2 next hnext)⟩

/-- A property of all states of a run is one of the first state and of what
each step leads to. -/
theorem always_iff_along {R : σ → Prop} :
    Always step R state actions ↔ R state ∧
      Along step (fun state action => ∀ next, step state action = ok next → R next) state actions := by
  induction actions generalizing state with
  | nil => simp [Always, Along]
  | cons action actions ih =>
    constructor
    · intro ⟨hstate, hrest⟩
      exact ⟨hstate, fun next hnext => (ih.mp (hrest next hnext)).1,
        fun next hnext => (ih.mp (hrest next hnext)).2⟩
    · intro ⟨hstate, hnexts, hrest⟩
      exact ⟨hstate, fun next hnext => ih.mpr ⟨hnexts next hnext, hrest next hnext⟩⟩

theorem along_and : Along step (fun state action => P state action ∧ Q state action) state actions ↔
    Along step P state actions ∧ Along step Q state actions := by
  induction actions generalizing state with
  | nil => simp [Along]
  | cons action actions ih =>
    constructor
    · intro ⟨hhead, hrest⟩
      exact ⟨⟨hhead.1, fun next hnext => (ih.mp (hrest next hnext)).1⟩,
        ⟨hhead.2, fun next hnext => (ih.mp (hrest next hnext)).2⟩⟩
    · intro ⟨hP, hQ⟩
      exact ⟨⟨hP.1, hQ.1⟩, fun next hnext => ih.mpr ⟨hP.2 next hnext, hQ.2 next hnext⟩⟩

/-- An invariant kept by every allowed step holds throughout an allowed run. -/
theorem Along.always (inv : σ → Prop)
    (hstep : ∀ state action next, inv state → allowed state action →
      step state action = ok next → inv next)
    (hinv : inv state) (hallowed : Along step allowed state actions) :
    Always step inv state actions := by
  induction actions generalizing state with
  | nil => exact hinv
  | cons action actions ih =>
    refine ⟨hinv, fun next hnext => ?_⟩
    exact ih (hstep state action next hinv hallowed.1 hnext) (hallowed.2 next hnext)

/-- What holds of every allowed step from a state of an invariant holds along
an allowed run. -/
theorem Along.imp_of_invariant (inv : σ → Prop)
    (himp : ∀ state action, inv state → allowed state action → P state action)
    (hstep : ∀ state action next, inv state → allowed state action →
      step state action = ok next → inv next)
    (hinv : inv state) (hallowed : Along step allowed state actions) : Along step P state actions := by
  induction actions generalizing state with
  | nil => exact trivial
  | cons action actions ih =>
    refine ⟨himp state action hinv hallowed.1, fun next hnext => ?_⟩
    exact ih (hstep state action next hinv hallowed.1 hnext) (hallowed.2 next hnext)

theorem Along.invariant (inv : σ → Prop)
    (hstep : ∀ state action next, inv state → allowed state action →
      step state action = ok next → inv next)
    (hinv : inv state) (hallowed : Along step allowed state actions) {last : σ}
    (hsteps : steps step state actions = ok last) : inv last := by
  induction actions generalizing state with
  | nil =>
    cases hsteps
    exact hinv
  | cons action actions ih =>
    obtain ⟨next, hnext, hrest⟩ := bind_eq_ok_iff.mp hsteps
    exact ih (hstep state action next hinv hallowed.1 hnext) (hallowed.2 next hnext) hrest

/-- An invariant kept by every step holds at the end of every run. -/
theorem steps_invariant (inv : σ → Prop)
    (hstep : ∀ state action next, inv state → step state action = ok next → inv next)
    (hinv : inv state) {last : σ} (hsteps : steps step state actions = ok last) : inv last := by
  induction actions generalizing state with
  | nil =>
    cases hsteps
    exact hinv
  | cons action actions ih =>
    obtain ⟨next, hnext, hrest⟩ := bind_eq_ok_iff.mp hsteps
    exact ih (hstep state action next hinv hnext) hrest

/-- Two conditions on steps that agree wherever an invariant holds agree on
whole runs, when the invariant is kept by the steps that meet the second. -/
theorem Along.iff_of_step (inv : σ → Prop)
    (hiff : ∀ state action, inv state → allowed state action →
      (P state action ↔ Q state action))
    (hstep : ∀ state action next, inv state → allowed state action → Q state action →
      step state action = ok next → inv next)
    (hinv : inv state) (hallowed : Along step allowed state actions) :
    Along step P state actions ↔ Along step Q state actions := by
  induction actions generalizing state with
  | nil => exact Iff.rfl
  | cons action actions ih =>
    have hhead := hiff state action hinv hallowed.1
    constructor
    · intro ⟨hP, hrest⟩
      have hQ := hhead.mp hP
      refine ⟨hQ, fun next hnext => ?_⟩
      have hnextInv := hstep state action next hinv hallowed.1 hQ hnext
      exact (ih hnextInv (hallowed.2 next hnext)).mp (hrest next hnext)
    · intro ⟨hQ, hrest⟩
      refine ⟨hhead.mpr hQ, fun next hnext => ?_⟩
      have hnextInv := hstep state action next hinv hallowed.1 hQ hnext
      exact (ih hnextInv (hallowed.2 next hnext)).mpr (hrest next hnext)

/-- A property of all states of a run holds exactly if every step meets `Q`, when
an invariant that gives the property is kept by the steps that meet `Q` and every
other step leads to a state without the property. -/
theorem always_iff_along_of_break {R : σ → Prop} (inv : σ → Prop) (hR : ∀ state, inv state → R state)
    (hstep : ∀ state action next, inv state → allowed state action → Q state action →
      step state action = ok next → inv next)
    (hbreak : ∀ state action, inv state → allowed state action → ¬ Q state action →
      ∃ next, step state action = ok next ∧ ¬ R next)
    (hinv : inv state) (hallowed : Along step allowed state actions) :
    Always step R state actions ↔ Along step Q state actions := by
  rw [always_iff_along, and_iff_right (hR state hinv)]
  refine Along.iff_of_step inv ?_ hstep hinv hallowed
  intro state action hstate haction
  constructor
  · intro hnexts
    by_contra hnot
    obtain ⟨next, hnext, hbroken⟩ := hbreak state action hstate haction hnot
    exact hbroken (hnexts next hnext)
  · intro hQ next hnext
    exact hR next (hstep state action next hstate haction hQ hnext)

/-- Steps that come back and keep an invariant make runs that do. -/
theorem steps_total (inv : σ → Prop)
    (hstep : ∀ state action, inv state → ∃ next, step state action = ok next ∧ inv next) (hinv : inv state)
    (actions : List α) : ∃ last, steps step state actions = ok last ∧ inv last := by
  induction actions generalizing state with
  | nil => exact ⟨state, rfl, hinv⟩
  | cons action actions ih =>
    obtain ⟨next, hnext, hnextInv⟩ := hstep state action hinv
    obtain ⟨last, hrest, hlast⟩ := ih hnextInv
    exact ⟨last, by simp only [steps, hnext, bind_ok, hrest], hlast⟩

theorem Along.steps_total (inv : σ → Prop)
    (hstep : ∀ state action, inv state → allowed state action → ∃ next, step state action = ok next ∧ inv next)
    (hinv : inv state) (hallowed : Along step allowed state actions) :
    ∃ last, steps step state actions = ok last ∧ inv last := by
  induction actions generalizing state with
  | nil => exact ⟨state, rfl, hinv⟩
  | cons action actions ih =>
    obtain ⟨next, hnext, hnextInv⟩ := hstep state action hinv hallowed.1
    obtain ⟨last, hrest, hlast⟩ := ih hnextInv (hallowed.2 next hnext)
    exact ⟨last, by simp only [steps, hnext, bind_ok, hrest], hlast⟩

/-- When a step that meets `Q` keeps an invariant, any other step loses it, and what is
lost stays lost, the state at the end tells whether all steps of the run met `Q`. -/
theorem steps_along_or_lost (inv lost : σ → Prop)
    (hstep : ∀ state action, inv state → ∃ next, step state action = ok next ∧
      (Q state action ∧ inv next ∨ ¬ Q state action ∧ lost next))
    (hlost : ∀ state action, lost state → ∃ next, step state action = ok next ∧ lost next) (hinv : inv state)
    (actions : List α) :
    ∃ last, steps step state actions = ok last ∧
      (Along step Q state actions ∧ inv last ∨ ¬ Along step Q state actions ∧ lost last) := by
  induction actions generalizing state with
  | nil => exact ⟨state, rfl, .inl ⟨trivial, hinv⟩⟩
  | cons action actions ih =>
    obtain ⟨next, hnext, ⟨hQ, hnextInv⟩ | ⟨hnot, hnextLost⟩⟩ := hstep state action hinv
    · obtain ⟨last, hrest, hanswer⟩ := ih hnextInv
      refine ⟨last, by simp only [steps, hnext, bind_ok, hrest], ?_⟩
      rwa [along_cons_of_ok hnext, and_iff_right hQ]
    · obtain ⟨last, hrest, hlast⟩ := steps_total lost hlost hnextLost actions
      refine ⟨last, by simp only [steps, hnext, bind_ok, hrest], .inr ⟨fun halong => hnot halong.1, hlast⟩⟩

end exec
