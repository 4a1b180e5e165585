import Kfw.Lib.Exec

namespace exec

variable {ε α α' β β' σ σ' ρ ρ' : Type}

/-- Two runs that end the same way: with related values, with one failure, or
both without an answer. -/
inductive Result.Rel (R : α → β → Prop) : Result ε α → Result ε β → Prop where
  | ok {a : α} {b : β} (h : R a b) : Result.Rel R (.ok a) (.ok b)
  | fail (error : ε) : Result.Rel R (.fail error) (.fail error)
  | div : Result.Rel R .div .div

namespace Result.Rel

variable {R : α → β → Prop} {S : α' → β' → Prop} {x : Result ε α} {y : Result ε β}

theorem bind (h : Result.Rel R x y) {f : α → Result ε α'} {g : β → Result ε β'}
    (hcont : ∀ a b, R a b → Result.Rel S (f a) (g b)) : Result.Rel S (x >>= f) (y >>= g) := by
  cases h with
  | ok h => exact hcont _ _ h
  | fail error => exact .fail error
  | div => exact .div

theorem mono (h : Result.Rel R x y) {R' : α → β → Prop} (himp : ∀ a b, R a b → R' a b) :
    Result.Rel R' x y := by
  cases h with
  | ok h => exact .ok (himp _ _ h)
  | fail error => exact .fail error
  | div => exact .div

/-- One computation, seen as two runs of it. -/
theorem same (x : Result ε α) {R : α → α → Prop} (h : ∀ a, x = .ok a → R a a) : Result.Rel R x x := by
  cases x with
  | ok a => exact .ok (h a rfl)
  | fail error => exact .fail error
  | div => exact .div

theorem eq {x y : Result ε α} (h : Result.Rel Eq x y) : x = y := by
  cases h with
  | ok h => rw [h]
  | fail error => rfl
  | div => rfl

/-- What holds of two runs from one state holds of its result. -/
theorem of_ok {a : α} {b : β} (h : Result.Rel R x y) (hx : x = .ok a) (hy : y = .ok b) : R a b := by
  subst hx hy
  cases h
  assumption

end Result.Rel

/-- Passes through two loop bodies that go on, or leave, together. -/
inductive Flow.Rel (R : σ → σ' → Prop) (S : ρ → ρ' → Prop) : Flow σ ρ → Flow σ' ρ' → Prop where
  | cont {state : σ} {state' : σ'} (h : R state state') : Flow.Rel R S (.cont state) (.cont state')
  | done {result : ρ} {result' : ρ'} (h : S result result') : Flow.Rel R S (.done result) (.done result')

theorem Result.Rel.proceed {R : σ → σ' → Prop} {S : ρ → ρ' → Prop} {x : Result ε (Flow σ ρ)}
    {y : Result ε (Flow σ' ρ')} (h : x.Rel (Flow.Rel R S) y) {f : σ → Result ε ρ} {g : σ' → Result ε ρ'}
    (hcont : ∀ a b, R a b → (f a).Rel S (g b)) : (x.proceed f).Rel S (y.proceed g) := by
  apply h.bind
  rintro _ _ (⟨hnext⟩ | ⟨hresult⟩)
  · exact hcont _ _ hnext
  · exact .ok hresult

/-- Two loops in lockstep: if a pass from related states goes on to related
states or leaves with related results, so does the whole loop, with any fuel. -/
theorem loop_rel {body : σ → Result ε (Flow σ ρ)} {body' : σ' → Result ε (Flow σ' ρ')}
    {R : σ → σ' → Prop} {S : ρ → ρ' → Prop}
    (hbody : ∀ state state', R state state' → (body state).Rel (Flow.Rel R S) (body' state'))
    {state : σ} {state' : σ'} (h : R state state') (fuel : Nat) :
    (loop body fuel state).Rel S (loop body' fuel state') := by
  induction fuel generalizing state state' with
  | zero => exact .div
  | succ fuel ih =>
    apply (hbody state state' h).bind
    rintro _ _ (⟨hnext⟩ | ⟨hresult⟩)
    · exact ih hnext
    · exact .ok hresult

end exec
