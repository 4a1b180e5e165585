import Kfw.Net.Ethernet.Input.InOrder
import Kfw.Net.EthernetInput

open exec Result

namespace kfw.net.EthernetReceive

/-- The frames in the descriptors as `kfw.net.low_level_input` knows them: those received and
not fetched, by their lengths without the checksum. -/
def frame_lengths (eth : EthernetReceive) : List Nat :=
  (eth.received.drop eth.fetched.length).map fun frame => frame.length - 4

/-- What a step of the descriptors is to the list of frames: nothing, a frame that arrives, or
all of a call of `kfw.net.low_level_input`. A call that is refused because another task is in
the HAL is nothing to the list: it returns no frame although frames may wait, which no call
of `kfw.net.low_level_input` does. -/
def Simulates (eth next : EthernetReceive) : ReceiveAction → Prop
  | .dma _ _ => ∃ more, more.length ≤ 1 ∧ next.frame_lengths = eth.frame_lengths ++ more
  | .task _ _ =>
    next.frame_lengths = eth.frame_lengths ∧
      (eth.pc ≠ .idle → next.pc = .idle →
        ∀ alloc, low_level_input eth.frame_lengths alloc = (none, next.frame_lengths)) ∨
    ∃ pool p, next.fetched = eth.fetched ++ [(pool, p)] ∧
      low_level_input eth.frame_lengths (decide (eth.frame_lengths.headD 0 ≤ PBUF_POOL_BUFSIZE * pool)) =
        (p.map fun chain => chain.flatten.length, next.frame_lengths)

variable {eth next : EthernetReceive} {head released : Nat} {items : List kfw.net.RxDesc}
  {done waiting rest : List (List UInt8)} {frame : List UInt8}

theorem Held.frame_lengths_eq (h : eth.Held head released items done waiting) :
    eth.frame_lengths = waiting.map fun frame => frame.length - 4 := by
  rw [frame_lengths, h.received_eq, ← h.answered.length_eq, List.drop_left]

/-- The answer for a frame is that of the list of frames. -/
theorem low_level_input_of_answered {pool : Nat} {p : Option (List (List UInt8))} (h : Answered frame (pool, p))
    (lengths : List Nat) :
    low_level_input ((frame.length - 4) :: lengths) (decide (frame.length - 4 ≤ PBUF_POOL_BUFSIZE * pool)) =
      (p.map fun chain => chain.flatten.length, lengths) := by
  simp only [low_level_input, decide_eq_true_eq]
  have hlength := congrArg (Option.map List.length) h
  simp only [Option.map_map] at hlength
  congr 1
  refine Eq.trans ?_ hlength.symm
  by_cases hsome : 4 < frame.length ∧ frame.length - 4 ≤ PBUF_POOL_BUFSIZE * pool
  · rw [if_pos hsome, if_pos ⟨by omega, hsome.2⟩, Option.map_some, List.length_take_of_le (Nat.sub_le _ _)]
  · rw [if_neg hsome, if_neg (by omega)]
    rfl

/-- Every step keeps to the list of frames. -/
theorem Held.simulates (h : eth.Held head released items done waiting) {action : ReceiveAction}
    (huncut : eth.Uncut action) : ∃ next, eth.step action = ok next ∧ eth.Simulates next action := by
  have hlengths := h.frame_lengths_eq
  cases action with
  | dma frame fl =>
    obtain ⟨items, more, hmore, hnext⟩ := h.dma huncut
    refine ⟨_, rfl, more.map fun frame => frame.length - 4, by rwa [List.length_map], ?_⟩
    rw [hnext.frame_lengths_eq, hlengths, List.map_append]
  | task locked pool =>
    cases hpc : eth.pc with
    | idle =>
      cases locked with
      | true =>
        exact ⟨eth, by simp only [EthernetReceive.step, task, hpc, if_true], .inl ⟨rfl, fun hbusy => absurd hpc hbusy⟩⟩
      | false =>
        simp only [EthernetReceive.step, task, hpc, Bool.false_eq_true, if_false]
        exact ⟨_, rfl, .inl ⟨rfl, fun hbusy => absurd hpc hbusy⟩⟩
    | scan k =>
      obtain ⟨next, htask, -, hnext, hnone⟩ := h.task_scan hpc locked pool
      refine ⟨next, htask, .inl ⟨hnext.frame_lengths_eq.trans hlengths.symm, fun _ hidle alloc => ?_⟩⟩
      rw [hlengths, hnext.frame_lengths_eq, hnone hidle]
      rfl
    | alloc =>
      obtain ⟨next, htask, hbusy, -, hnext⟩ := h.task_alloc hpc locked pool
      exact ⟨next, htask, .inl ⟨hnext.frame_lengths_eq.trans hlengths.symm, fun _ hidle => absurd hidle hbusy⟩⟩
    | pbuf q =>
      obtain ⟨next, htask, hbusy, -, hnext⟩ := h.task_pbuf hpc locked pool
      exact ⟨next, htask, .inl ⟨hnext.frame_lengths_eq.trans hlengths.symm, fun _ hidle => absurd hidle hbusy⟩⟩
    | copy left q =>
      obtain ⟨next, htask, hbusy, -, hnext⟩ := h.task_copy hpc locked pool
      exact ⟨next, htask, .inl ⟨hnext.frame_lengths_eq.trans hlengths.symm, fun _ hidle => absurd hidle hbusy⟩⟩
    | release i =>
      obtain ⟨next, htask, ⟨hbusy, -, _, _, _, hnext⟩ | ⟨frame, rest, rfl, hfetched, hanswered, -, hnext⟩⟩ :=
        h.task_release hpc locked pool
      · exact ⟨next, htask, .inl ⟨hnext.frame_lengths_eq.trans hlengths.symm, fun _ hidle => absurd hidle hbusy⟩⟩
      · refine ⟨next, htask, .inr ⟨eth.pool, eth.p, hfetched, ?_⟩⟩
        rw [hlengths, hnext.frame_lengths_eq, List.map_cons]
        exact low_level_input_of_answered hanswered _

/-- The descriptors are a refinement of the list of frames: in every state that a run leads
to, the next step is nothing to the list, a frame that arrives, or a call of
`kfw.net.low_level_input` on it with the same answer. -/
theorem input_refines_frame_list {Rx_Buff : Nat → DmaBuffer} {actions : List ReceiveAction} {action : ReceiveAction}
    (huncut : Along step Uncut (init Rx_Buff) (actions ++ [action])) :
    ∃ last next, steps step (init Rx_Buff) actions = ok last ∧ last.step action = ok next ∧
      last.Simulates next action := by
  obtain ⟨last, hsteps, _, _, _, _, _, hheld⟩ := run_held huncut.front
  obtain ⟨next, hnext, hsimulates⟩ := hheld.simulates (huncut.last_action hsteps)
  exact ⟨last, next, hsteps, hnext, hsimulates⟩

/-- The step that ends the fetch of the second of two frames. -/
theorem input_refines_frame_list_two_frames :
    ∃ last next, steps step (init fun _ => .cleared) (two_frames 15) = ok last ∧
      last.step (.task false 1) = ok next ∧ last.frame_lengths = [2] ∧ next.frame_lengths = [] ∧
      last.Simulates next (.task false 1) := by
  have huncut : Along step Uncut (init fun _ => .cleared) (two_frames 15 ++ [.task false 1]) := uncut_two_frames 16
  obtain ⟨last, next, hsteps, hnext, hsimulates⟩ := input_refines_frame_list huncut
  have hrun : (do
      let last ← steps step (init fun _ => .cleared) (two_frames 15)
      let next ← last.step (.task false 1)
      ok (last.frame_lengths, next.frame_lengths) : Exec _) = ok ([2], []) := by decide +kernel
  rw [hsteps, bind_ok, hnext, bind_ok, ok.injEq, Prod.mk.injEq] at hrun
  exact ⟨last, next, hsteps, hnext, hrun.1, hrun.2, hsimulates⟩

end kfw.net.EthernetReceive
