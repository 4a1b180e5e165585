import Kfw.Lib.Run
import Kfw.Rtc

open exec Result

namespace kfw.net

/-- Where `do_sync` stands in its final update of the clock. -/
inductive UpdatePc where
  | get_time
  | add (cur_tm : Int)
  | sync (cur_tm : Int)
  | done

/-- The clock and the final update, with the runs of the cyclic handler so far
and those of them since the update read the clock. -/
structure Updating where
  rtc : Rtc
  pc : UpdatePc := .get_time
  ticks : Nat := 0
  missed : Nat := 0

inductive UpdateAction where
  | handler
  | task

namespace Updating

/-- The handler runs, or `do_sync` takes its next step. -/
def step (offset_avg : Int) (updating : Updating) : UpdateAction → Exec Updating
  | .handler => ok { updating with
      rtc := kfw_cyc_handler updating.rtc
      ticks := updating.ticks + 1
      missed := updating.missed + 1 }
  | .task =>
    match updating.pc with
    | .get_time => ok { updating with pc := .add updating.rtc.get_time, missed := 0 }
    | .add cur_tm => ok { updating with pc := .sync (cur_tm + offset_avg) }
    | .sync cur_tm => ok { updating with rtc := updating.rtc.sync cur_tm, pc := .done }
    | .done => ok updating

/-- After the update the clock has all ticks and the offset. -/
def KeepsTicks (before offset_avg : Int) (updating : Updating) : Prop :=
  updating.pc = .done → updating.rtc.s_time_counter = before + 10 * updating.ticks + offset_avg

/-- When the new time is stored, the handler did not run since the clock was
read. -/
def Undisturbed (updating : Updating) (action : UpdateAction) : Prop :=
  ∀ cur_tm, action = .task → updating.pc = .sync cur_tm → updating.missed = 0

/-- What the update has in hand lacks the ticks since the clock was read. -/
def Tracks (before offset_avg : Int) (updating : Updating) : Prop :=
  match updating.pc with
  | .get_time => updating.rtc.s_time_counter = before + 10 * updating.ticks
  | .add cur_tm => updating.rtc.s_time_counter = before + 10 * updating.ticks ∧
      cur_tm + 10 * updating.missed = updating.rtc.s_time_counter
  | .sync cur_tm => updating.rtc.s_time_counter = before + 10 * updating.ticks ∧
      cur_tm + 10 * updating.missed = updating.rtc.s_time_counter + offset_avg
  | .done => updating.rtc.s_time_counter = before + 10 * updating.ticks + offset_avg

variable {before offset_avg : Int} {updating : Updating} {action : UpdateAction}

theorem Tracks.step (h : updating.Tracks before offset_avg) (hundisturbed : updating.Undisturbed action)
    {next : Updating} (hnext : updating.step offset_avg action = ok next) : next.Tracks before offset_avg := by
  obtain ⟨rtc, pc, ticks, missed⟩ := updating
  cases action with
  | handler =>
    cases hnext
    cases pc <;> simp only [Tracks, kfw_cyc_handler] at h ⊢ <;> omega
  | task =>
    cases pc with
    | get_time =>
      cases hnext
      simp only [Tracks, Rtc.get_time, get_time_counter] at h ⊢
      omega
    | add cur_tm =>
      cases hnext
      simp only [Tracks] at h ⊢
      omega
    | sync cur_tm =>
      cases hnext
      have hmissed : missed = 0 := hundisturbed cur_tm rfl rfl
      simp only [Tracks, Rtc.sync, set_time_counter] at h ⊢
      omega
    | done =>
      cases hnext
      exact h

theorem Tracks.keepsTicks (h : updating.Tracks before offset_avg) : updating.KeepsTicks before offset_avg := by
  intro hdone
  rw [Tracks, hdone] at h
  exact h

/-- A time that lacks some ticks is stored. -/
theorem Tracks.loses_ticks (h : updating.Tracks before offset_avg) (hdisturbed : ¬ updating.Undisturbed action) :
    ∃ next, updating.step offset_avg action = ok next ∧ ¬ next.KeepsTicks before offset_avg := by
  simp only [Undisturbed, not_forall] at hdisturbed
  obtain ⟨cur_tm, rfl, hpc, hmissed⟩ := hdisturbed
  refine ⟨{ updating with rtc := updating.rtc.sync cur_tm, pc := .done }, by rw [Updating.step, hpc], ?_⟩
  intro hkeeps
  have hstored := hkeeps rfl
  simp only [Tracks, hpc, Rtc.sync, set_time_counter] at h hstored
  omega

end Updating

/-- Over every interleaving of the handler with the steps of the update, no tick
is lost exactly if the handler does not run between the read of the clock and
the store. -/
theorem update_keeps_ticks_iff (rtc : Rtc) (offset_avg : Int) (actions : List UpdateAction) :
    Always (Updating.step offset_avg) (Updating.KeepsTicks rtc.s_time_counter offset_avg) { rtc } actions ↔
      Along (Updating.step offset_avg) Updating.Undisturbed { rtc } actions := by
  have hallowed : Along (Updating.step offset_avg) (fun _ _ => True) { rtc } actions :=
    .of_forall fun _ _ _ => trivial
  have hstart : Updating.Tracks rtc.s_time_counter offset_avg { rtc } := by simp [Updating.Tracks]
  exact always_iff_along_of_break (Updating.Tracks rtc.s_time_counter offset_avg)
    (fun _ htracks => htracks.keepsTicks) (fun _ _ _ htracks _ hundisturbed => htracks.step hundisturbed)
    (fun _ _ htracks _ hdisturbed => htracks.loses_ticks hdisturbed) hstart hallowed

/-- The handler runs between the read of the clock and the store: its tick is
lost. -/
theorem update_loses_tick :
    ¬ Always (Updating.step 0) (Updating.KeepsTicks 0 0) { rtc := {} } [.task, .handler, .task, .task] := by
  intro hkeeps
  have hrun : steps (Updating.step 0) { rtc := {} } [.task, .handler, .task, .task] = ok {
      rtc := { m_is_synced := true }, pc := .done, ticks := 1, missed := 1 } := rfl
  have hcounter := hkeeps.last hrun rfl
  simp at hcounter

end kfw.net
