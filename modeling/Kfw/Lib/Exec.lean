import Mathlib

namespace exec

/-- What running a piece of imperative code comes to: a value, a failure that
stops the program, or no answer within the fuel it was given. -/
inductive Result (ε α : Type) where
  | ok (value : α)
  | fail (error : ε)
  | div
  deriving DecidableEq

namespace Result

variable {ε α β : Type}

def bind (x : Result ε α) (f : α → Result ε β) : Result ε β :=
  match x with
  | ok value => f value
  | fail error => fail error
  | div => div

instance : Monad (Result ε) where
  pure := ok
  bind := bind

@[simp] theorem bind_ok (value : α) (f : α → Result ε β) : (ok value >>= f) = f value := rfl

@[simp] theorem bind_fail (error : ε) (f : α → Result ε β) :
    ((fail error : Result ε α) >>= f) = fail error := rfl

@[simp] theorem bind_div (f : α → Result ε β) : ((div : Result ε α) >>= f) = div := rfl

theorem bind_eq_ok_iff {x : Result ε α} {f : α → Result ε β} {y : β} :
    (x >>= f) = ok y ↔ ∃ value, x = ok value ∧ f value = ok y := by
  cases x <;> simp

/-- What a computation that comes back keeps of its two parts it keeps as a whole. -/
theorem bind_stable {x y : Result ε α} {f g : α → Result ε β} (hx : x ≠ div → y = x)
    (hf : ∀ value, f value ≠ div → g value = f value) (h : (x >>= f) ≠ div) : (y >>= g) = (x >>= f) := by
  cases x with
  | ok value =>
    rw [hx (by simp), bind_ok, bind_ok]
    exact hf value h
  | fail error => rw [hx (by simp), bind_fail, bind_fail]
  | div => exact absurd rfl h

theorem bind_ok_eq_fail_iff {x : Result ε α} {f : α → β} {error : ε} :
    (x >>= fun value => ok (f value)) = fail error ↔ x = fail error := by
  cases x <;> simp

end Result

/-- One pass through a loop body: go round again, or leave with a result. -/
inductive Flow (σ ρ : Type) where
  | cont (state : σ)
  | done (result : ρ)

open Result

variable {ε σ τ ρ : Type}

/-- Go on from where a pass through a loop body ended, unless it left. -/
def Result.proceed (x : Result ε (Flow σ ρ)) (next : σ → Result ε ρ) : Result ε ρ := do
  match ← x with
  | .cont state => next state
  | .done result => ok result

@[simp] theorem proceed_cont (state : σ) (next : σ → Result ε ρ) :
    (ok (.cont state) : Result ε (Flow σ ρ)).proceed next = next state := rfl

/-- Repeat a loop body until it leaves the loop, for at most `fuel` passes. -/
def loop (body : σ → Result ε (Flow σ ρ)) : Nat → σ → Result ε ρ
  | 0, _ => div
  | fuel + 1, state => do
    match ← body state with
    | .cont next => loop body fuel next
    | .done result => ok result

theorem loop_cont {body : σ → Result ε (Flow σ ρ)} {state next : σ} (fuel : Nat)
    (hbody : body state = ok (.cont next)) :
    loop body (fuel + 1) state = loop body fuel next := by
  simp [loop, hbody]

theorem loop_done {body : σ → Result ε (Flow σ ρ)} {state : σ} {result : ρ} (fuel : Nat)
    (hbody : body state = ok (.done result)) :
    loop body (fuel + 1) state = ok result := by
  simp [loop, hbody]

/-- More fuel does not change what a loop comes to, nor does a body that differs only
where the first one does not come back. -/
theorem loop_stable_of_body {body other : σ → Result ε (Flow σ ρ)}
    (hother : ∀ state, body state ≠ div → other state = body state) {fuel more : Nat} (hfuel : fuel ≤ more)
    {state : σ} (h : loop body fuel state ≠ div) : loop other more state = loop body fuel state := by
  induction fuel generalizing more state with
  | zero => exact absurd rfl h
  | succ fuel ih =>
    obtain ⟨more, rfl⟩ : ∃ rest, more = rest + 1 := ⟨more - 1, by omega⟩
    have hsame : body state ≠ div → other state = body state := hother state
    cases hbody : body state with
    | ok flow =>
      rw [hbody] at hsame
      cases flow with
      | cont next =>
        rw [loop_cont fuel hbody] at h
        rw [loop_cont fuel hbody, loop_cont more (hsame (by simp))]
        exact ih (by omega) h
      | done value => rw [loop_done fuel hbody, loop_done more (hsame (by simp))]
    | fail error =>
      rw [hbody] at hsame
      simp [loop, hbody, hsame]
    | div => simp [loop, hbody] at h

theorem loop_stable {body : σ → Result ε (Flow σ ρ)} {fuel more : Nat} (hfuel : fuel ≤ more) {state : σ}
    (h : loop body fuel state ≠ div) : loop body more state = loop body fuel state :=
  loop_stable_of_body (fun _ _ => rfl) hfuel h

theorem loop_mono {body : σ → Result ε (Flow σ ρ)} {fuel more : Nat} (hfuel : fuel ≤ more) {state : σ}
    {result : ρ} (h : loop body fuel state = ok result) : loop body more state = ok result := by
  rw [loop_stable hfuel (by simp [h]), h]

theorem loop_agree {body : σ → Result ε (Flow σ ρ)} {fuel other : Nat} {state : σ} {left right : Result ε ρ}
    (h : loop body fuel state = left) (hleft : left ≠ div) (hother : loop body other state = right)
    (hright : right ≠ div) : left = right := by
  rw [← h, ← loop_stable (Nat.le_max_left fuel other) (h ▸ hleft),
    loop_stable (Nat.le_max_right fuel other) (hother ▸ hright), hother]

/-- The states in which a loop starts a pass. -/
inductive Passes (body : σ → Result ε (Flow σ ρ)) (start : σ) : σ → Prop where
  | start : Passes body start start
  | next {state next : σ} (hstate : Passes body start state) (hbody : body state = ok (.cont next)) :
      Passes body start next

/-- A loop that ends does so in one of its passes. -/
theorem loop_last {body : σ → Result ε (Flow σ ρ)} {fuel : Nat} {start state : σ} {result : ρ}
    (hstate : Passes body start state) (h : loop body fuel state = ok result) :
    ∃ last, Passes body start last ∧ body last = ok (.done result) := by
  induction fuel generalizing state with
  | zero => cases h
  | succ fuel ih =>
    obtain ⟨flow, hbody, hrest⟩ := bind_eq_ok_iff.mp h
    cases flow with
    | cont next => exact ih (hstate.next hbody) hrest
    | done value =>
      cases hrest
      exact ⟨state, hstate, hbody⟩

/-- A loop goes on from any of its passes as it would start there. -/
theorem Passes.loop_eq {body : σ → Result ε (Flow σ ρ)} {start state : σ} (hstate : Passes body start state) :
    ∃ passed, ∀ fuel, loop body (passed + fuel) start = loop body fuel state := by
  induction hstate with
  | start => exact ⟨0, fun fuel => by rw [Nat.zero_add]⟩
  | next _ hbody ih =>
    obtain ⟨passed, hpassed⟩ := ih
    refine ⟨passed + 1, fun fuel => ?_⟩
    rw [Nat.add_right_comm, Nat.add_assoc, hpassed, loop_cont fuel hbody]

/-- A pass goes on with the invariant, or leaves with the postcondition. -/
def Flow.Meets (inv : σ → Prop) (post : ρ → Prop) : Flow σ ρ → Prop
  | .cont next => inv next
  | .done result => post result

/-- An invariant that every pass comes back to holds in all passes. -/
theorem Passes.invariant {body : σ → Result ε (Flow σ ρ)} (inv : σ → Prop)
    (hbody : ∀ state next, inv state → body state = ok (.cont next) → inv next) {start state : σ}
    (hstart : inv start) (hstate : Passes body start state) : inv state := by
  induction hstate with
  | start => exact hstart
  | next _ hcont ih => exact hbody _ _ ih hcont

/-- Partial correctness of a loop. If every pass from a state of the invariant
meets invariant and postcondition, a loop that leaves does so with the
postcondition. -/
theorem loop_invariant (body : σ → Result ε (Flow σ ρ)) (inv : σ → Prop) (post : ρ → Prop)
    (hbody : ∀ state flow, inv state → body state = ok flow → flow.Meets inv post)
    {fuel : Nat} {start : σ} {result : ρ} (hstart : inv start) (h : loop body fuel start = ok result) :
    post result := by
  obtain ⟨last, hlast, hdone⟩ := loop_last .start h
  exact hbody last _ (hlast.invariant inv (fun state next => hbody state (.cont next)) hstart) hdone

/-- A loop whose passes all come back never fails. -/
theorem loop_ne_fail (body : σ → Result ε (Flow σ ρ)) (inv : σ → Prop) (post : ρ → Prop)
    (hbody : ∀ state, inv state → ∃ flow, body state = ok flow ∧ flow.Meets inv post)
    (fuel : Nat) {start : σ} (hstart : inv start) (error : ε) : loop body fuel start ≠ fail error := by
  induction fuel generalizing start with
  | zero => simp [loop]
  | succ fuel ih =>
    obtain ⟨flow, hflow, hmeets⟩ := hbody start hstart
    cases flow with
    | cont next =>
      rw [loop_cont fuel hflow]
      exact ih hmeets
    | done result =>
      simp [loop_done fuel hflow]

/-- A loop that always goes round again has no answer. -/
theorem loop_div (body : σ → Result ε (Flow σ ρ)) (inv : σ → Prop)
    (hbody : ∀ state, inv state → ∃ next, body state = ok (.cont next) ∧ inv next)
    (fuel : Nat) {start : σ} (hstart : inv start) : loop body fuel start = div := by
  induction fuel generalizing start with
  | zero => rfl
  | succ fuel ih =>
    obtain ⟨next, hnext, hinv⟩ := hbody start hstart
    rw [loop_cont fuel hnext]
    exact ih hinv

/-- Total correctness of a loop. Every pass from a state of the invariant
either leaves with the postcondition or comes back to the invariant with a
smaller measure; then any fuel above the measure is enough. -/
theorem loop_total (body : σ → Result ε (Flow σ ρ)) (inv : σ → Prop) (measure : σ → Nat)
    (post : ρ → Prop)
    (hbody : ∀ state, inv state →
      (∃ result, body state = ok (.done result) ∧ post result) ∨
      ∃ next, body state = ok (.cont next) ∧ inv next ∧ measure next < measure state)
    {fuel : Nat} {state : σ} (hinv : inv state) (hfuel : measure state < fuel) :
    ∃ result, loop body fuel state = ok result ∧ post result := by
  induction fuel generalizing state with
  | zero => omega
  | succ fuel ih =>
    rcases hbody state hinv with ⟨result, hstep, hpost⟩ | ⟨next, hstep, hnext, hless⟩
    · exact ⟨result, loop_done fuel hstep, hpost⟩
    · rw [loop_cont fuel hstep]
      exact ih hnext (by omega)

end exec
