import Kfw.Lib.Run
import Kfw.Rtos.Kernel

open exec Result

namespace kfw.rtos

/-- Where the task of a thread is: not started, in `m_func`, back from it, or with the
join flag set and about to exit. -/
inductive TaskPhase where
  | dormant
  | running
  | returned
  | exiting
  deriving DecidableEq

/-- A thread with its task in the kernel. The two counters say how many runs of the
thread function were started and how many of them completed. -/
structure ThreadRun where
  thread : Thread
  phase : TaskPhase := .dormant
  started : Nat := 0
  completed : Nat := 0
  deriving DecidableEq

inductive ThreadAction where
  | start
  | run
  | join
  deriving DecidableEq

/-- `m_join_flag.set(1)` on the context of a thread. -/
def Thread.set_join_flag [Itron] (self : Thread) : Thread :=
  { m_context := self.m_context.map fun context => { context with m_join_flag := (context.m_join_flag.set 1).2 } }

namespace ThreadRun

/-- `Thread::start` with the kernel's answer. A task that is started runs. -/
def start [Itron] (state : ThreadRun) : ret_t × ThreadRun :=
  match state.thread.m_context with
  | none => (state.thread.start E_OK, state)
  | some _ =>
    let er := Itron.sta_tsk (state.phase = .dormant)
    (state.thread.start er,
      if er = E_OK then { state with phase := .running, started := state.started + 1 } else state)

/-- `ThreadContext::entry_point`, up to its next step: the thread function returns,
the join flag is set, the task exits. -/
def entry_point [Itron] (state : ThreadRun) : ThreadRun :=
  match state.phase with
  | .dormant => state
  | .running => { state with phase := .returned, completed := state.completed + 1 }
  | .returned => { state with phase := .exiting, thread := state.thread.set_join_flag }
  | .exiting => { state with phase := .dormant }

/-- One step of a run. A `join` is the moment at which one comes back, if one can: it
changes nothing. -/
def step [Itron] (state : ThreadRun) : ThreadAction → Exec ThreadRun
  | .start => ok state.start.2
  | .run => ok state.entry_point
  | .join => ok state

/-- A thread right after `Thread::create`, for any answers to it. -/
def created [Itron] (kernel : Kernel) (allocated : Bool) (er_flg er_tsk : Int) : ThreadRun :=
  { thread := (({} : Thread).create kernel allocated er_flg er_tsk).2.1 }

/-- A `join` that returns `kOk` does so when the run started last has completed. -/
def Finished [Itron] (state : ThreadRun) : ThreadAction → Prop
  | .join => state.thread.join = ok kOk → state.completed = state.started
  | _ => True

/-- No `join` on a thread with a join flag while a run other than the first is in
progress. -/
def FirstRun (state : ThreadRun) : ThreadAction → Prop
  | .join => ∀ context, state.thread.m_context = some context →
      context.m_join_flag.m_handle ≠ kInvalidEventFlagHandle →
      ¬ (2 ≤ state.started ∧ state.completed < state.started)
  | _ => True

/-- The number of runs that have set the join flag. -/
def signalled (state : ThreadRun) : Nat :=
  match state.phase with
  | .returned => state.completed - 1
  | _ => state.completed

/-- The task is in the run started last or has completed it, and the join flag says
whether any run ever set it. -/
structure Tracked (state : ThreadRun) : Prop where
  running : state.phase = .running → state.started = state.completed + 1
  finished : state.phase ≠ .running → state.started = state.completed
  returned : state.phase = .returned → 0 < state.completed
  flag : ∀ context, state.thread.m_context = some context →
    context.m_join_flag.m_handle ≠ kInvalidEventFlagHandle →
    context.m_join_flag.flgptn = if 0 < state.signalled then 1 else 0

variable {state next : ThreadRun}

/-- The join flag of a new context has no bit set. -/
theorem create_flgptn [Itron] {kernel : Kernel} {allocated : Bool} {er_flg er_tsk : Int} {context : ThreadContext}
    (hcontext : (({} : Thread).create kernel allocated er_flg er_tsk).2.1.m_context = some context) :
    context.m_join_flag.flgptn = 0 := by
  have hflag : (({} : EventFlag).create kernel 0 er_flg).2.1.flgptn = 0 := by
    rw [EventFlag.create]
    split
    · rfl
    · split <;> rfl
  cases allocated with
  | false => simp [Thread.create] at hcontext
  | true =>
    by_cases htsk : er_tsk < 0
    · have hfailed : is_failed (kfw_convert_er er_tsk) = true :=
        is_failed_convert_er (show er_tsk ≠ 0 by omega)
      simp [Thread.create, ThreadContext.create, htsk, hfailed] at hcontext
    · simp only [Thread.create, ThreadContext.create, htsk, if_false, Option.isSome_none, Bool.false_eq_true,
        not_true, ne_eq, is_failed_kOk, Option.some.injEq] at hcontext
      subst hcontext
      exact hflag

theorem created_tracked [Itron] (kernel : Kernel) (allocated : Bool) (er_flg er_tsk : Int) :
    (created kernel allocated er_flg er_tsk).Tracked :=
  ⟨by simp [created], by simp [created], by simp [created], fun _ hcontext _ => create_flgptn hcontext⟩

theorem start_cases [Itron] (state : ThreadRun) :
    state.start.2 = state ∨
      state.phase = .dormant ∧
        state.start.2 = { state with phase := .running, started := state.started + 1 } := by
  unfold start
  cases state.thread.m_context with
  | none => exact .inl rfl
  | some context =>
    by_cases hphase : state.phase = .dormant
    · exact .inr ⟨hphase, by simp [hphase, Itron.sta_tsk_dormant]⟩
    · exact .inl (by simp [hphase, Itron.sta_tsk_started, E_OBJ, E_OK])

theorem Tracked.start [Itron] (h : state.Tracked) : state.start.2.Tracked := by
  rcases start_cases state with hsame | ⟨hphase, hstart⟩
  · rwa [hsame]
  · have hequal := h.finished (by simp [hphase])
    have hflag := h.flag
    rw [signalled, hphase] at hflag
    rw [hstart]
    exact ⟨fun _ => by simp [hequal], fun hnot => absurd rfl hnot, by simp, hflag⟩

/-- Setting the bit of a flag without other bits. -/
theorem set_flgptn [Itron] {flag : EventFlag} (hhandle : flag.m_handle ≠ kInvalidEventFlagHandle)
    (hflag : flag.flgptn = 0 ∨ flag.flgptn = 1) : (flag.set 1).2.flgptn = 1 := by
  simp only [EventFlag.set, hhandle, if_false, Itron.set_flg_eq]
  rcases hflag with hflag | hflag <;> rw [hflag] <;> rfl

theorem Tracked.entry_point [Itron] (h : state.Tracked) : state.entry_point.Tracked := by
  have hflag := h.flag
  unfold ThreadRun.entry_point
  cases hphase : state.phase with
  | dormant => exact h
  | running =>
    have hstarted := h.running hphase
    rw [signalled, hphase] at hflag
    refine ⟨by simp, fun _ => hstarted, fun _ => Nat.succ_pos _, ?_⟩
    simpa [signalled] using hflag
  | returned =>
    have hequal := h.finished (by simp [hphase])
    refine ⟨by simp, fun _ => hequal, by simp, ?_⟩
    intro context hcontext hhandle
    obtain ⟨before, hbefore, rfl⟩ := Option.map_eq_some_iff.mp hcontext
    have hset : (before.m_join_flag.set 1).2.m_handle = before.m_join_flag.m_handle := by
      unfold EventFlag.set
      split <;> rfl
    have hpositive := h.returned hphase
    have hbit := hflag before hbefore (hset ▸ hhandle)
    rw [show signalled _ = state.completed from rfl, if_pos hpositive]
    refine set_flgptn (hset ▸ hhandle) ?_
    rw [hbit]
    split <;> simp
  | exiting =>
    have hequal := h.finished (by simp [hphase])
    rw [signalled, hphase] at hflag
    exact ⟨by simp, fun _ => hequal, by simp, hflag⟩

theorem Tracked.step [Itron] (h : state.Tracked) {action : ThreadAction} (hstep : state.step action = ok next) :
    next.Tracked := by
  cases action with
  | start =>
    cases hstep
    exact h.start
  | run =>
    cases hstep
    exact h.entry_point
  | join =>
    cases hstep
    exact h

/-- A `join` comes back with `kOk` once any run has set the flag. -/
theorem Tracked.join_iff [Itron] (h : state.Tracked) :
    state.thread.join = ok kOk ↔ ∃ context, state.thread.m_context = some context ∧
      context.m_join_flag.m_handle ≠ kInvalidEventFlagHandle ∧ 0 < state.signalled := by
  have hdisposed : kEDisposed ≠ kOk := by decide
  have hflag := h.flag
  unfold Thread.join
  cases hcontext : state.thread.m_context with
  | none => simp [hdisposed]
  | some context =>
    by_cases hhandle : context.m_join_flag.m_handle = kInvalidEventFlagHandle
    · simp [EventFlag.wait, hhandle, hdisposed]
    · have hbit := hflag context hcontext hhandle
      by_cases hsignalled : 0 < state.signalled
      · rw [if_pos hsignalled] at hbit
        simp [EventFlag.wait, hhandle, hbit, hsignalled, kfw_convert_er, Itron.twai_flg_of_set]
      · rw [if_neg hsignalled] at hbit
        simp [EventFlag.wait, hhandle, hbit, hsignalled, Itron.twai_flg_of_unset]

theorem Tracked.finished_iff [Itron] (h : state.Tracked) (action : ThreadAction) :
    state.Finished action ↔ state.FirstRun action := by
  cases action with
  | start => exact Iff.rfl
  | run => exact Iff.rfl
  | join =>
    rw [Finished, h.join_iff, FirstRun]
    have hprogress : ¬ (0 < state.signalled → state.completed = state.started) ↔
        2 ≤ state.started ∧ state.completed < state.started := by
      by_cases hphase : state.phase = .running
      · have hstarted := h.running hphase
        have hsignalled : state.signalled = state.completed := by rw [signalled, hphase]
        omega
      · have hequal := h.finished hphase
        omega
    constructor
    · intro hfinished context hcontext hhandle
      rw [← hprogress, not_not]
      exact fun hsignalled => hfinished ⟨context, hcontext, hhandle, hsignalled⟩
    · rintro hfirst ⟨context, hcontext, hhandle, hsignalled⟩
      exact not_not.mp (mt hprogress.mp (hfirst context hcontext hhandle)) hsignalled

/-- `join` means finished in the runs in which it is never called while a later run
than the first is in progress. -/
theorem join_finished_iff [Itron] (kernel : Kernel) (allocated : Bool) (er_flg er_tsk : Int)
    (actions : List ThreadAction) :
    Along step Finished (created kernel allocated er_flg er_tsk) actions ↔
      Along step FirstRun (created kernel allocated er_flg er_tsk) actions :=
  Along.iff_of_step Tracked (fun _ action hstate _ => hstate.finished_iff action)
    (fun _ _ _ hstate _ _ hnext => Tracked.step hstate hnext)
    (created_tracked kernel allocated er_flg er_tsk)
    (.of_forall (P := fun _ _ => True) fun _ _ _ => trivial)

/-- The second run of a thread has just begun, and `join` returns at once. -/
theorem join_returns_in_second_run :
    ∃ state, steps step (created {} true 1 1) [.start, .run, .run, .run, .start] = ok state ∧
      state.thread.join = ok kOk ∧ state.completed = 1 ∧ state.started = 2 := by
  refine ⟨_, rfl, ?_⟩
  decide +kernel

end ThreadRun

end kfw.rtos
