import Kfw.Rtos.FixedMemoryPool.Sequential

open exec Result

namespace kfw.rtos.PoolUse

/-- The semaphore has one token for each block that is not handed out. -/
def Accounted (block_count : UInt32) (state : PoolUse) : Prop :=
  state.pool.m_sem.semcnt + state.held.length = block_count.toNat

/-- The call is a get whose semaphore operation succeeds. -/
def Grants [Itron] (state : PoolUse) : PoolCall → Prop
  | .get timeout_ms => ∃ sem, state.pool.m_sem.wait timeout_ms = ok (kOk, sem)
  | .get_isr => ∃ sem, state.pool.m_sem.release_isr = ok (kOk, sem)
  | _ => False

/-- A get is granted only when some block is not handed out. -/
def GrantsAvailable [Itron] (block_count : UInt32) (state : PoolUse) (call : PoolCall) : Prop :=
  state.Grants call → state.held.length < block_count.toNat

variable {state : PoolUse} {creation : Creation}

theorem Created.token_room (h : state.Created creation)
    (hsize : creation.block_count.toNat < 2 ^ 32 - 1) :
    state.pool.m_sem.semcnt < state.pool.m_sem.maxsem := by
  have htokens := h.tokens
  rw [h.maxsem]
  omega

theorem Created.grantsAvailable [Itron] (h : state.Created creation) {call : PoolCall}
    (htask : call ≠ .get_isr) : state.GrantsAvailable creation.block_count call := by
  have htokens := h.tokens
  intro hgrants
  cases call with
  | get timeout_ms =>
    obtain ⟨sem, hwait⟩ := hgrants
    by_contra hfull
    have hempty : state.pool.m_sem.semcnt = 0 := by omega
    by_cases htmo : timeout_ms = TMO_FEVR
    · rw [htmo, Semaphore.wait_forever h.handle hempty] at hwait
      cases hwait
    · obtain ⟨r, hfailed, hrefused⟩ := Semaphore.wait_of_empty h.handle hempty htmo
      rw [hrefused, ok.injEq, Prod.mk.injEq] at hwait
      rw [hwait.1] at hfailed
      cases hfailed
  | get_isr => exact absurd rfl htask
  | create | dispose | release | store => exact hgrants.elim

/-- From a created pool the accounts stay right through a run, and gets are
granted only for available blocks, exactly as long as `get_isr` is not called. -/
theorem Created.accounted_iff [Itron] (h : state.Created creation)
    (hsize : creation.block_count.toNat < 2 ^ 32 - 1) {calls : List PoolCall}
    (hcalls : Along step UseContract state calls) :
    (Always step (Accounted creation.block_count) state calls ∧
      Along step (GrantsAvailable creation.block_count) state calls) ↔
    Along step (fun _ call => call ≠ .get_isr) state calls := by
  induction calls generalizing state with
  | nil => exact ⟨fun _ => trivial, fun _ => ⟨h.tokens, trivial⟩⟩
  | cons call calls ih =>
    by_cases hcall : call = .get_isr
    · subst hcall
      refine ⟨?_, fun htask => absurd rfl htask.1⟩
      rintro ⟨haccounted, hgrants⟩
      have hroom := hgrants.1 ⟨_, Semaphore.release_of_room h.handle (h.token_room hsize)⟩
      obtain ⟨used, free, tail, hrep⟩ := h.represents
      obtain ⟨block, pool, _, hget, _, hsem⟩ := hrep.get_isr_ok h.handle (h.token_room hsize) hroom
      have hnext : state.step .get_isr = ok (state.granted (some block) pool) := by
        simp [step, hget]
      have hafter : pool.m_sem.semcnt + (state.held.length + 1) = creation.block_count.toNat := by
        simpa [granted, Accounted] using (haccounted.2 _ hnext).head
      simp only [hsem] at hafter
      have htokens := h.tokens
      omega
    · constructor
      · rintro ⟨haccounted, hgrants⟩
        refine ⟨hcall, fun next hnext => ?_⟩
        have hcreated := h.step_created hcalls.1 hcall hnext
        exact (ih hcreated (hcalls.2 next hnext)).mp ⟨haccounted.2 next hnext, hgrants.2 next hnext⟩
      · intro htask
        have hrest : ∀ next, state.step call = ok next →
            Always step (Accounted creation.block_count) next calls ∧
              Along step (GrantsAvailable creation.block_count) next calls := by
          intro next hnext
          have hcreated := h.step_created hcalls.1 hcall hnext
          exact (ih hcreated (hcalls.2 next hnext)).mpr (htask.2 next hnext)
        exact ⟨⟨h.tokens, fun next hnext => (hrest next hnext).1⟩,
          ⟨h.grantsAvailable hcall, fun next hnext => (hrest next hnext).2⟩⟩

/-- Token accounting of a created pool over whole runs of gets and releases:
the semaphore count equals the number of blocks not handed out in every state,
and every get that is granted finds a block, if and only if no `get_isr` is
among the calls made. -/
theorem tokens_accounted_iff [Itron] (start state : PoolUse) (hstart : start.Uncreated)
    (block_size block_count : UInt32) (buffer : Addr) (er_id : Int)
    (hcontract : start.Contract (.create block_size block_count buffer er_id))
    (hcreate : start.step (.create block_size block_count buffer er_id) = ok state)
    (calls : List PoolCall) (hcalls : Along step UseContract state calls) :
    (Always step (Accounted block_count) state calls ∧
      Along step (GrantsAvailable block_count) state calls) ↔
    Along step (fun _ call => call ≠ .get_isr) state calls := by
  obtain ⟨pool, hpool, hcreated⟩ := hstart.create hcontract
  simp only [step, hpool, bind_ok, is_failed_kOk, Bool.false_eq_true, if_false, ok.injEq] at hcreate
  subst state
  exact hcreated.accounted_iff hcontract.count_lt hcalls

/-- One get and one release on a one-block pool. -/
theorem tokens_accounted_get_release :
    ∃ state, step { mem := fun _ => nullptr } (.create 8 1 64 1) = ok state ∧
      Always step (Accounted 1) state [.get 0, .release 64] ∧
      Along step (GrantsAvailable 1) state [.get 0, .release 64] := by
  refine ⟨_, rfl, ?_⟩
  refine (tokens_accounted_iff { mem := fun _ => nullptr } _ ⟨rfl, rfl, rfl⟩ 8 1 64 1
    ⟨by decide, by decide, by decide, by decide⟩ rfl _ ?_).mpr ?_
  · refine ⟨trivial, ?_⟩
    rintro _ ⟨⟩
    exact ⟨by simp [UseContract, Contract, granted, nullptr], fun _ _ => trivial⟩
  · exact ⟨by simp, fun _ _ => ⟨by simp, fun _ _ => trivial⟩⟩

/-- A `get_isr` on a one-block pool leaves two tokens with no block left, and
the next get is granted one that is not there. -/
theorem get_isr_breaks_accounts :
    ∃ state, step { mem := fun _ => nullptr } (.create 8 1 64 1) = ok state ∧
      Along step UseContract state [.get_isr, .get 0] ∧
      ¬ Always step (Accounted 1) state [.get_isr, .get 0] ∧
      ¬ Along step (GrantsAvailable 1) state [.get_isr, .get 0] ∧
      steps step state [.get_isr, .get 0] = fail .invalid_access := by
  refine ⟨_, rfl, ⟨trivial, fun _ _ => ⟨trivial, fun _ _ => trivial⟩⟩, ?_, ?_, rfl⟩
  · intro haccounted
    exact absurd (haccounted.2 _ rfl).1 (by simp [Accounted, granted])
  · intro hgrants
    have hgranted := (hgrants.2 _ rfl).1 ⟨_, rfl⟩
    exact absurd hgranted (by simp [granted])

end kfw.rtos.PoolUse
