import Kfw.Net.Ethernet.Input.InOrder
import Kfw.Net.Tcpip.Accounted

open exec Result kfw.rtos

namespace kfw.net

/-- The way of a frame from the DMA to the core: the driver, and behind it the mailbox of
`tcpip_thread`. -/
structure ReceivePath where
  eth : EthernetReceive
  tcpip : TcpipInput (List (List UInt8))

inductive PathAction where
  /-- the next step of the DMA -/
  | dma (frame : List UInt8) (fl : Nat)
  /-- the next step of `ethernetif_input` -/
  | task (locked : Bool) (pool : Nat)
  /-- the next step of `tcpip_thread` -/
  | thread (locked : Bool)
  /-- another task posts a message of another kind -/
  | callback

namespace ReceivePath

/-- What `low_level_input` returns with the step that leads from `eth` to `next`, if it returns
a packet. -/
def returned (eth next : EthernetReceive) : Option (List (List UInt8)) :=
  if next.fetched.length = eth.fetched.length then none else next.p

def step [Itron] (path : ReceivePath) : PathAction → Exec ReceivePath
  | .dma frame fl => do
    let eth ← path.eth.step (.dma frame fl)
    ok { path with eth }
  | .task locked pool =>
    match path.tcpip.task with
    | .idle => do
      let eth ← path.eth.step (.task locked pool)
      let tcpip ← path.tcpip.step (.task (returned path.eth eth))
      ok { eth, tcpip }
    | _ => do
      let tcpip ← path.tcpip.step (.task none)
      ok { path with tcpip }
  | .thread locked => do
    let tcpip ← path.tcpip.step (.thread locked)
    ok { path with tcpip }
  | .callback => do
    let tcpip ← path.tcpip.step .callback
    ok { path with tcpip }

/-- The driver after `HAL_ETH_DMARxDescListInit`, and `tcpip_thread` after `tcpip_init`. -/
def init (Rx_Buff : Nat → DmaBuffer) (size : Nat) (base : Addr) (next : Addr → Addr) : ReceivePath where
  eth := .init Rx_Buff
  tcpip := .init size base next

/-- The DMA does not have to cut a frame short. -/
def Uncut (path : ReceivePath) : PathAction → Prop
  | .dma frame fl => path.eth.Uncut (.dma frame fl)
  | .task _ _ | .thread _ | .callback => True

/-- What the step writes to the pool of messages rests on nothing stale. As
`SYS_LIGHTWEIGHT_PROT` is 0, only the order of the steps can see to that. -/
def Current (path : ReceivePath) : PathAction → Prop
  | .dma _ _ | .callback => True
  | .task _ _ => path.tcpip.Current (.task none)
  | .thread locked => path.tcpip.Current (.thread locked)

instance Uncut.decidable (path : ReceivePath) : ∀ action, Decidable (path.Uncut action)
  | .dma frame fl => inferInstanceAs (Decidable (path.eth.Uncut (.dma frame fl)))
  | .task _ _ | .thread _ | .callback => .isTrue trivial

instance Current.decidable (path : ReceivePath) : ∀ action, Decidable (path.Current action)
  | .dma _ _ | .callback => .isTrue trivial
  | .task _ _ => inferInstanceAs (Decidable (path.tcpip.memp.Current (.next .input)))
  | .thread _ => inferInstanceAs (Decidable (path.tcpip.memp.Current (.next .thread)))

/-- The packets that `low_level_input` has returned. -/
def packets (path : ReceivePath) : List (List (List UInt8)) := path.eth.fetched.filterMap Prod.snd

/-- The packet that the task has and `netif->input` has not answered for. -/
def pending (tcpip : TcpipInput (List (List UInt8))) : List (List (List UInt8)) :=
  match tcpip.task with
  | .malloc p | .fill p _ | .post p _ | .undo p _ => [p]
  | .idle | .pbuf_free _ => []

/-- The packets that `tcpip_inpkt` was given. -/
def given (tcpip : TcpipInput (List (List UInt8))) : List (List (List UInt8)) :=
  tcpip.calls.map Prod.fst ++ pending tcpip

structure Connected (all : List Addr) (path : ReceivePath) : Prop where
  held : ∃ head released items done waiting, path.eth.Held head released items done waiting
  accounted : path.tcpip.Accounted all
  given_eq : given path.tcpip = path.packets

section given

variable {tcpip next : TcpipInput (List (List UInt8))}

theorem given_task_idle [Itron] (htask : tcpip.task = .idle) (p : Option (List (List UInt8))) :
    given (tcpip.task_step p) = given tcpip ++ p.toList := by
  cases p <;> simp [given, pending, TcpipInput.task_step, htask]

theorem given_return (tcpip : TcpipInput (List (List UInt8))) (p : List (List UInt8)) (err : Int) :
    given (tcpip.return_ p err) = tcpip.calls.map Prod.fst ++ [p] := by
  by_cases herr : err = ERR_OK <;> simp [given, pending, TcpipInput.return_, herr]

theorem given_task_busy [Itron] (htask : tcpip.task ≠ .idle) : given (tcpip.task_step none) = given tcpip := by
  unfold TcpipInput.task_step
  cases hpc : tcpip.task with
  | idle => exact absurd hpc htask
  | malloc p =>
    simp only
    split
    · simp [given, pending, hpc]
    · split
      · rw [given_return]
        simp [given, pending, hpc]
      · simp [given, pending, hpc]
  | fill p msg => simp [given, pending, hpc]
  | post p msg =>
    simp only
    split
    · simp [given, pending, hpc]
    · rw [given_return]
      simp [given, pending, hpc]
  | undo p msg =>
    simp only
    split
    · rw [given_return]
      simp [given, pending, hpc]
    · simp [given, pending, hpc]
  | pbuf_free p => simp [given, pending, hpc]

theorem given_thread {locked : Bool} (hnext : tcpip.thread_step locked = ok next) : given next = given tcpip := by
  unfold TcpipInput.thread_step at hnext
  cases hthread : tcpip.thread <;> simp only [hthread] at hnext
  · split at hnext <;> cases hnext <;> rfl
  · split at hnext
    · cases hnext
      rfl
    · split at hnext <;> cases hnext <;> rfl
  · split at hnext
    · cases hnext
    · cases hnext
      rfl
  · cases hnext
    split <;> rfl

end given

theorem fetched_dma (eth : EthernetReceive) (frame : List UInt8) (fl : Nat) :
    (eth.dma_step frame fl).fetched = eth.fetched := by
  unfold EthernetReceive.dma_step
  simp only
  split <;> rfl

/-- A step of `low_level_input` either goes on or returns. -/
theorem fetched_cases {eth next : EthernetReceive} {locked : Bool} {pool : Nat}
    (hnext : eth.step (.task locked pool) = ok next) :
    next.fetched = eth.fetched ∨ next.fetched = eth.fetched ++ [(next.pool, next.p)] := by
  simp only [EthernetReceive.step] at hnext
  unfold EthernetReceive.task at hnext
  cases hpc : eth.pc <;> simp only [hpc] at hnext
  case idle =>
    split at hnext <;> cases hnext <;> exact .inl rfl
  case scan =>
    split at hnext
    · split at hnext
      · cases hnext
        exact .inl rfl
      · split at hnext <;> cases hnext <;> exact .inl rfl
    · cases hnext
      exact .inl rfl
  case alloc =>
    split at hnext <;> cases hnext <;> exact .inl rfl
  case pbuf q =>
    cases q <;> cases hnext <;> exact .inl rfl
  case copy =>
    split at hnext <;> obtain ⟨_, -, hnext⟩ := bind_eq_ok_iff.mp hnext <;> cases hnext <;> exact .inl rfl
  case release =>
    split at hnext <;> cases hnext
    · exact .inl rfl
    · exact .inr rfl

/-- A call of `low_level_input` that is over is in the list of those, with what it returned. -/
theorem packets_task {eth next : EthernetReceive} {locked : Bool} {pool : Nat}
    (hnext : eth.step (.task locked pool) = ok next) :
    next.fetched.filterMap Prod.snd = eth.fetched.filterMap Prod.snd ++ (returned eth next).toList := by
  rcases fetched_cases hnext with hfetched | hfetched
  · simp [returned, hfetched]
  · simp only [returned, hfetched, List.length_append, List.filterMap_append, List.length_singleton, Nat.add_eq_left,
      Nat.one_ne_zero, if_false]
    cases next.p <;> rfl

variable {all : List Addr} {path : ReceivePath}

theorem Connected.step [Itron] (h : path.Connected all) (hall : all.length = MEMP_NUM_TCPIP_MSG_INPKT)
    {action : PathAction} (huncut : path.Uncut action) (hcurrent : path.Current action) :
    ∃ next, path.step action = ok next ∧ next.Connected all := by
  obtain ⟨head, released, items, done, waiting, hheld⟩ := h.held
  cases action with
  | dma frame fl =>
    obtain ⟨eth, heth, hnext⟩ := hheld.step (show path.eth.Uncut (.dma frame fl) from huncut)
    refine ⟨{ path with eth }, bind_eq_ok_iff.mpr ⟨eth, heth, rfl⟩, hnext, h.accounted, ?_⟩
    cases heth
    exact h.given_eq.trans (congrArg (List.filterMap Prod.snd) (fetched_dma path.eth frame fl).symm)
  | task locked pool =>
    simp only [ReceivePath.step]
    cases htask : path.tcpip.task with
    | idle =>
      obtain ⟨eth, heth, hnext⟩ := hheld.step (show path.eth.Uncut (.task locked pool) from trivial)
      refine ⟨⟨eth, path.tcpip.task_step (returned path.eth eth)⟩, bind_eq_ok_iff.mpr ⟨eth, heth, rfl⟩, hnext,
        h.accounted.task_step hall _ hcurrent, ?_⟩
      rw [given_task_idle htask, h.given_eq, packets, packets, packets_task heth]
    | malloc | fill | post | undo | pbuf_free =>
      refine ⟨{ path with tcpip := path.tcpip.task_step none }, rfl, h.held, h.accounted.task_step hall none hcurrent,
        ?_⟩
      rw [given_task_busy (by rw [htask]; nofun)]
      exact h.given_eq
  | thread locked =>
    obtain ⟨tcpip, htcpip, hnext⟩ := h.accounted.thread_step locked hcurrent
    refine ⟨{ path with tcpip }, bind_eq_ok_iff.mpr ⟨tcpip, htcpip, rfl⟩, h.held, hnext, ?_⟩
    rw [given_thread htcpip]
    exact h.given_eq
  | callback =>
    exact ⟨_, rfl, h.held, h.accounted.callback, h.given_eq⟩

/-- `tcpip_thread` on its own does nothing to the driver. -/
theorem steps_thread [Itron] {n : Nat} {tcpip : TcpipInput (List (List UInt8))}
    (h : steps TcpipInput.step path.tcpip (List.replicate n (.thread false)) = ok tcpip) :
    steps step path (List.replicate n (.thread false)) = ok { path with tcpip } := by
  induction n generalizing path with
  | zero =>
    cases h
    rfl
  | succ n ih =>
    obtain ⟨next, hnext, hrest⟩ := bind_eq_ok_iff.mp h
    have hstep : path.step (.thread false) = ok { path with tcpip := next } := bind_eq_ok_iff.mpr ⟨next, hnext, rfl⟩
    exact bind_eq_ok_iff.mpr ⟨{ path with tcpip := next }, hstep, ih hrest⟩

theorem Connected.drains [Itron] (h : path.Connected all) :
    ∃ n drained, steps ReceivePath.step path (List.replicate n (PathAction.thread false)) = ok drained ∧
      drained.tcpip.handled = path.tcpip.accepted := by
  obtain ⟨tcpip, hsteps, hhandled⟩ := h.accounted.toCarried.drains (Nat.le_refl _)
  exact ⟨_, { path with tcpip }, steps_thread hsteps, hhandled⟩

/-- Two frames; `tcpip_thread` is in `memp_free` of the first message while the second frame
is fetched, and the task calls `memp_malloc` after that. -/
def two_frames : List PathAction :=
  .dma [1, 2, 3, 4, 5] 0 :: List.replicate 13 (.task false 1) ++ List.replicate 4 (.thread false) ++
    .dma [6, 7, 8, 9, 10, 11] 0 :: List.replicate 8 (.task false 1) ++ List.replicate 2 (.thread false) ++
    List.replicate 5 (.task false 1) ++ List.replicate 6 (.thread false)

end ReceivePath

end kfw.net
