import Kfw.Net.Tcpip

open exec Result kfw.rtos

namespace kfw.net

theorem trypost_of_room [Itron] {Msg : Type} {mbox : List Msg} (hroom : mbox.length < archMESG_QUEUE_LENGTH)
    (msg : Msg) : sys_mbox_trypost mbox msg = (ERR_OK, mbox ++ [msg]) := by
  simp [sys_mbox_trypost, Itron.psnd_dtq_of_room msg hroom]

theorem trypost_of_full [Itron] {Msg : Type} {mbox : List Msg} (hfull : ¬ mbox.length < archMESG_QUEUE_LENGTH)
    (msg : Msg) : sys_mbox_trypost mbox msg = (ERR_MEM, mbox) := by
  have herror : E_TMOUT ≠ E_OK := by decide
  simp [sys_mbox_trypost, Itron.psnd_dtq_of_full msg E_OK hfull, herror]

/-- The message in the pool, if it is one with a packet. -/
def TcpipMsg.packet : TcpipMsg → List Addr
  | .inpkt msg => [msg]
  | .callback => []

namespace TcpipInput

variable {Pbuf : Type}

/-- The message that `tcpip_thread` has fetched and whose packet it has not handled. -/
def fetched (tcpip : TcpipInput Pbuf) : List Addr :=
  match tcpip.thread with
  | .lock msg => msg.packet
  | .input msg => [msg]
  | .fetch | .free _ => []

/-- The messages whose packets are still to be handled, in order. -/
def waiting (tcpip : TcpipInput Pbuf) : List Addr := tcpip.fetched ++ tcpip.mbox.flatMap TcpipMsg.packet

/-- The message that `tcpip_thread` is done with. -/
def done (tcpip : TcpipInput Pbuf) : List Addr :=
  match tcpip.thread with
  | .free msg => [msg]
  | .fetch | .lock _ | .input _ => []

/-- The message that is not in the mailbox. -/
def unposted (tcpip : TcpipInput Pbuf) : List Addr :=
  match tcpip.task with
  | .fill _ msg | .post _ msg | .undo _ msg => [msg]
  | .idle | .malloc _ | .pbuf_free _ => []

/-- The packet that was refused and is not freed yet. -/
def unfreed (tcpip : TcpipInput Pbuf) : List Pbuf :=
  match tcpip.task with
  | .pbuf_free p => [p]
  | .idle | .malloc _ | .fill _ _ | .post _ _ | .undo _ _ => []

/-- The calls on the pool that the input task can be in. -/
def InputCalls (tcpip : TcpipInput Pbuf) : Prop :=
  match tcpip.task with
  | .malloc _ => (tcpip.memp.call .input).Mallocs
  | .undo _ msg => tcpip.memp.call .input = .none ∨ (tcpip.memp.call .input).Frees msg
  | .idle | .fill _ _ | .post _ _ | .pbuf_free _ => tcpip.memp.call .input = .none

/-- The calls on the pool that `tcpip_thread` can be in. -/
def ThreadCalls (tcpip : TcpipInput Pbuf) : Prop :=
  match tcpip.thread with
  | .free msg => tcpip.memp.call .thread = .none ∨ (tcpip.memp.call .thread).Frees msg
  | .fetch | .lock _ | .input _ => tcpip.memp.call .thread = .none

/-- The messages in the mailbox have the packets that were accepted and not handled, and the
refused ones are freed. This does not depend on the pool. -/
structure Carried (tcpip : TcpipInput Pbuf) : Prop where
  room : tcpip.mbox.length ≤ archMESG_QUEUE_LENGTH
  posting : ∀ p msg, tcpip.task = .post p msg → tcpip.inp msg = some p
  handled : ∃ rest, tcpip.accepted = tcpip.handled ++ rest ∧ tcpip.waiting.map tcpip.inp = rest.map some
  freed : tcpip.refused = tcpip.freed ++ tcpip.unfreed
  threadCalls : tcpip.ThreadCalls

/-- Every message is in the pool, in the mailbox or with one of the tasks. -/
structure Accounted (all : List Addr) (tcpip : TcpipInput Pbuf) : Prop extends Carried tcpip where
  kept : tcpip.memp.Kept all
  out : tcpip.memp.out.Perm (tcpip.unposted ++ (tcpip.done ++ tcpip.waiting))
  inputCalls : tcpip.InputCalls

variable {all : List Addr} {tcpip next : TcpipInput Pbuf} {p : Pbuf} {msg : Addr}

theorem length_packet_le (msg : TcpipMsg) : msg.packet.length ≤ 1 := by
  cases msg with
  | inpkt msg => exact Nat.le_refl 1
  | callback => exact Nat.zero_le 1

theorem length_packets_le (mbox : List TcpipMsg) : (mbox.flatMap TcpipMsg.packet).length ≤ mbox.length := by
  induction mbox with
  | nil => exact Nat.le_refl 0
  | cons msg mbox ih =>
    have hmsg := length_packet_le msg
    rw [List.flatMap_cons, List.length_append, List.length_cons]
    omega

theorem length_done_fetched_le (tcpip : TcpipInput Pbuf) : tcpip.done.length + tcpip.fetched.length ≤ 1 := by
  unfold done fetched
  cases tcpip.thread with
  | fetch => exact Nat.zero_le 1
  | lock msg => simpa using length_packet_le msg
  | input msg => exact Nat.le_refl 1
  | free msg => exact Nat.le_refl 1

theorem Accounted.nodup (h : tcpip.Accounted all) :
    (tcpip.unposted ++ (tcpip.done ++ tcpip.waiting)).Nodup := by
  obtain ⟨free, hrep⟩ := h.kept.conserved
  exact h.out.nodup_iff.mp hrep.out_nodup

/-- The mailbox and `tcpip_thread` never have all messages of the pool. -/
theorem Accounted.tab_ne_null (h : tcpip.Accounted all) (hall : all.length = MEMP_NUM_TCPIP_MSG_INPKT)
    (htask : tcpip.task = .malloc p) : tcpip.memp.pool.tab ≠ nullptr := by
  obtain ⟨free, hrep⟩ := h.kept.conserved
  have hunposted : tcpip.unposted = [] := by rw [unposted, htask]
  have hout := h.out.length_eq
  have hthread := tcpip.length_done_fetched_le
  have hmbox := length_packets_le tcpip.mbox
  have hroom := h.room
  refine hrep.tab_ne_null ?_
  rw [hunposted, List.nil_append, waiting, List.length_append, List.length_append] at hout
  rw [hall, hout]
  simp only [MEMP_NUM_TCPIP_MSG_INPKT, archMESG_QUEUE_LENGTH] at *
  omega

/-- `tcpip_thread` puts back only the message that it is done with. -/
theorem Carried.frees_thread (h : tcpip.Carried) (hfrees : (tcpip.memp.call .thread).Frees msg) :
    msg ∈ tcpip.done := by
  have hcalls := h.threadCalls
  unfold ThreadCalls at hcalls
  unfold done
  cases hthread : tcpip.thread with
  | free other =>
    simp only [hthread] at hcalls
    rw [hfrees.eq_of_none_or hcalls]
    exact List.mem_singleton_self _
  | fetch | lock | input =>
    simp only [hthread] at hcalls
    rw [hcalls] at hfrees
    exact hfrees.elim

/-- The input task puts back only a message that is not in the mailbox. -/
theorem Accounted.frees_input (h : tcpip.Accounted all) (hfrees : (tcpip.memp.call .input).Frees msg) :
    msg ∈ tcpip.unposted := by
  have hcalls := h.inputCalls
  unfold InputCalls at hcalls
  unfold unposted
  cases htask : tcpip.task with
  | malloc p =>
    simp only [htask] at hcalls
    exact absurd hfrees (hcalls.not_frees msg)
  | undo p other =>
    simp only [htask] at hcalls
    rw [hfrees.eq_of_none_or hcalls]
    exact List.mem_singleton_self _
  | idle | fill | post | pbuf_free =>
    simp only [htask] at hcalls
    rw [hcalls] at hfrees
    exact hfrees.elim

/-- A message that is not in the mailbox is the input task's. -/
theorem Accounted.inUse_unposted (h : tcpip.Accounted all) (hmsg : msg ∈ tcpip.unposted)
    (hcall : tcpip.memp.call .input = .none) : tcpip.memp.InUse msg := by
  refine ⟨h.out.symm.subset (List.mem_append_left _ hmsg), fun task hfrees => ?_⟩
  cases task with
  | input =>
    rw [hcall] at hfrees
    exact hfrees
  | thread =>
    have hdone := List.mem_append_left tcpip.waiting (h.frees_thread hfrees)
    exact (List.nodup_append.mp h.nodup).2.2 msg hmsg msg hdone rfl

/-- A message that `tcpip_thread` is done with is its own. -/
theorem Accounted.inUse_done (h : tcpip.Accounted all) (hmsg : msg ∈ tcpip.done)
    (hcall : tcpip.memp.call .thread = .none) : tcpip.memp.InUse msg := by
  have hdone := List.mem_append_left tcpip.waiting hmsg
  refine ⟨h.out.symm.subset (List.mem_append_right _ hdone), fun task hfrees => ?_⟩
  cases task with
  | input => exact (List.nodup_append.mp h.nodup).2.2 msg (h.frees_input hfrees) msg hdone rfl
  | thread =>
    rw [hcall] at hfrees
    exact hfrees

theorem accepted_return (tcpip : TcpipInput Pbuf) (p : Pbuf) :
    (tcpip.return_ p ERR_OK).accepted = tcpip.accepted ++ [p] ∧
      (tcpip.return_ p ERR_OK).refused = tcpip.refused := by
  simp [accepted, refused, return_]

theorem refused_return (tcpip : TcpipInput Pbuf) (p : Pbuf) :
    (tcpip.return_ p ERR_MEM).accepted = tcpip.accepted ∧
      (tcpip.return_ p ERR_MEM).refused = tcpip.refused ++ [p] := by
  have herror : ERR_MEM ≠ ERR_OK := by decide
  simp [accepted, refused, return_, herror]

/-- Whatever the input task does to the pool, the calls of `tcpip_thread` stay what they are. -/
theorem Carried.with_memp (h : tcpip.Carried) {memp : MempTasks TcpipTask}
    (hcall : memp.call .thread = tcpip.memp.call .thread) : { tcpip with memp }.Carried := by
  refine ⟨h.room, h.posting, h.handled, h.freed, ?_⟩
  unfold ThreadCalls
  rw [hcall]
  exact h.threadCalls

/-- `memp_malloc` gets a message in the end. -/
theorem Accounted.task_malloc [Itron] (h : tcpip.Accounted all) (hall : all.length = MEMP_NUM_TCPIP_MSG_INPKT)
    (htask : tcpip.task = .malloc p) (arg : Option Pbuf) (hcurrent : tcpip.Current (.task arg)) :
    (tcpip.task_step arg).Accounted all := by
  have hcalls := h.inputCalls
  have hout := h.out
  have hfreed := h.freed
  simp only [InputCalls, unposted, unfreed, htask, List.nil_append] at hcalls hout hfreed
  obtain ⟨memp, hkept, hothers, hreturned⟩ :=
    h.kept.memp_malloc hcurrent hcalls fun _ => h.tab_ne_null hall htask
  have hcarried := h.toCarried.with_memp (hothers .thread nofun)
  rcases hreturned with ⟨hmalloc, hsame, hcall⟩ | ⟨msg, hmsg, hmalloc, hmore, hcall⟩
  · have hstep : tcpip.task_step arg = { tcpip with memp } := by simp only [task_step, htask, hmalloc]
    rw [hstep]
    refine ⟨hcarried, hkept, ?_, ?_⟩
    · simp only [unposted, htask, List.nil_append, hsame]
      exact hout
    · simpa only [InputCalls, htask] using hcall
  · simp only [task_step, htask, hmalloc, if_neg hmsg]
    refine ⟨⟨h.room, nofun, h.handled, hfreed, hcarried.threadCalls⟩, hkept, ?_, hcall⟩
    rw [hmore]
    exact hout.cons msg

/-- The packet is put in the message, which is none of those that wait. -/
theorem Accounted.task_fill [Itron] (h : tcpip.Accounted all) (htask : tcpip.task = .fill p msg) (arg : Option Pbuf) :
    (tcpip.task_step arg).Accounted all := by
  have hcalls := h.inputCalls
  have hout := h.out
  have hnodup := h.nodup
  have hmsg : msg ∈ tcpip.unposted := by
    rw [unposted, htask]
    exact List.mem_singleton_self _
  simp only [InputCalls, htask] at hcalls
  obtain ⟨rest, haccepted, hwaiting⟩ := h.handled
  have hstore : tcpip.memp.step (.store msg TCPIP_MSG_INPKT) = ok { tcpip.memp with
      pool := { tcpip.memp.pool with next := Function.update tcpip.memp.pool.next msg TCPIP_MSG_INPKT } } := rfl
  have hkept := h.kept.step (show tcpip.memp.Enabled (.store msg TCPIP_MSG_INPKT) from h.inUse_unposted hmsg hcalls)
    trivial hstore
  simp only [unposted, htask] at hnodup hout
  simp only [task_step, htask]
  refine ⟨⟨h.room, ?_, ⟨rest, haccepted, Eq.trans ?_ hwaiting⟩, ?_, h.threadCalls⟩, hkept, hout, hcalls⟩
  · rintro _ _ ⟨⟩
    exact Function.update_self _ _ _
  · refine List.map_congr_left fun other hother => Function.update_of_ne ?_ _ _
    rintro rfl
    exact (List.nodup_cons.mp hnodup).1 (List.mem_append_right tcpip.done hother)
  · have hfreed := h.freed
    simp only [unfreed, htask] at hfreed
    exact hfreed

/-- The message is posted, or the mailbox is full. -/
theorem Accounted.task_post [Itron] (h : tcpip.Accounted all) (htask : tcpip.task = .post p msg) (arg : Option Pbuf) :
    (tcpip.task_step arg).Accounted all := by
  obtain ⟨rest, haccepted, hwaiting⟩ := h.handled
  have hcalls := h.inputCalls
  have hout := h.out
  have hfreed := h.freed
  have hposting := h.posting p msg htask
  simp only [InputCalls, unposted, unfreed, htask] at hcalls hout hfreed
  by_cases hroom : tcpip.mbox.length < archMESG_QUEUE_LENGTH
  · have hstep : tcpip.task_step arg = { tcpip with mbox := tcpip.mbox ++ [TcpipMsg.inpkt msg] }.return_ p ERR_OK := by
      simp only [task_step, htask, trypost_of_room hroom, ne_eq, not_true_eq_false, if_false]
    have hlast : ({ tcpip with mbox := tcpip.mbox ++ [TcpipMsg.inpkt msg] }.return_ p ERR_OK).waiting =
        tcpip.waiting ++ [msg] := by
      simp [waiting, fetched, return_, TcpipMsg.packet]
    obtain ⟨hnext, hrefused⟩ := accepted_return { tcpip with mbox := tcpip.mbox ++ [TcpipMsg.inpkt msg] } p
    rw [hstep]
    refine ⟨⟨?_, nofun, ⟨rest ++ [p], ?_, ?_⟩, hrefused.trans hfreed, h.threadCalls⟩, h.kept, ?_, hcalls⟩
    · exact (List.length_append).trans_le hroom
    · rw [hnext, ← List.append_assoc]
      exact congrArg (· ++ [p]) haccepted
    · rw [hlast, List.map_append, List.map_append]
      exact congrArg₂ (· ++ ·) hwaiting (congrArg (fun entry => [entry]) hposting)
    · rw [hlast]
      exact hout.trans (List.perm_append_comm.trans (by rw [List.append_assoc]; rfl))
  · have herror : ERR_MEM ≠ ERR_OK := by decide
    simp only [task_step, htask, trypost_of_full hroom, ne_eq, herror, not_false_eq_true, if_true]
    exact ⟨⟨h.room, nofun, ⟨rest, haccepted, hwaiting⟩, hfreed, h.threadCalls⟩, h.kept, hout, .inl hcalls⟩

/-- A message that could not be posted goes back to the pool. -/
theorem Accounted.task_undo [Itron] (h : tcpip.Accounted all) (htask : tcpip.task = .undo p msg) (arg : Option Pbuf)
    (hcurrent : tcpip.Current (.task arg)) : (tcpip.task_step arg).Accounted all := by
  obtain ⟨rest, haccepted, hwaiting⟩ := h.handled
  have hcalls := h.inputCalls
  have hout := h.out
  have hfreed := h.freed
  have hmsg : msg ∈ tcpip.unposted := by
    rw [unposted, htask]
    exact List.mem_singleton_self _
  simp only [InputCalls, unposted, unfreed, htask] at hcalls hout hfreed
  obtain ⟨memp, hkept, hothers, hreturned⟩ := h.kept.memp_free hcurrent
    (hcalls.imp_left fun hnone => ⟨hnone, h.inUse_unposted hmsg hnone⟩)
  have hcarried := h.toCarried.with_memp (hothers .thread nofun)
  rcases hreturned with ⟨hfree, hsame, hcall⟩ | ⟨hfree, hless, hcall⟩
  · have hstep : tcpip.task_step arg = { tcpip with memp } := by
      simp only [task_step, htask, hfree, Bool.false_eq_true, if_false]
    rw [hstep]
    refine ⟨hcarried, hkept, ?_, ?_⟩
    · simp only [unposted, htask, hsame]
      exact hout
    · simp only [InputCalls, htask]
      exact .inr hcall
  · have hstep : tcpip.task_step arg = { tcpip with memp }.return_ p ERR_MEM := by
      simp only [task_step, htask, hfree, if_true]
    obtain ⟨hnext, hrefused⟩ := refused_return { tcpip with memp } p
    rw [hstep]
    refine ⟨⟨h.room, nofun, ⟨rest, hnext.trans haccepted, hwaiting⟩, hrefused.trans ?_, hcarried.threadCalls⟩,
      hkept, ?_, hcall⟩
    · exact congrArg (· ++ [p]) (hfreed.trans (List.append_nil _))
    · show memp.out.Perm _
      rw [hless]
      exact (hout.erase msg).trans (by rw [List.singleton_append, List.erase_cons_head]; rfl)

theorem Accounted.task_step [Itron] (h : tcpip.Accounted all) (hall : all.length = MEMP_NUM_TCPIP_MSG_INPKT)
    (arg : Option Pbuf) (hcurrent : tcpip.Current (.task arg)) : (tcpip.task_step arg).Accounted all := by
  have hcalls := h.inputCalls
  have hout := h.out
  have hfreed := h.freed
  cases htask : tcpip.task with
  | idle =>
    cases arg with
    | none =>
      simp only [TcpipInput.task_step, htask]
      exact h
    | some p =>
      simp only [InputCalls, unposted, unfreed, htask] at hcalls hout hfreed
      have hmallocs : (tcpip.memp.call .input).Mallocs := by
        rw [hcalls]
        trivial
      simp only [TcpipInput.task_step, htask]
      exact ⟨⟨h.room, nofun, h.handled, hfreed, h.threadCalls⟩, h.kept, hout, hmallocs⟩
  | malloc p => exact h.task_malloc hall htask arg hcurrent
  | fill p msg => exact h.task_fill htask arg
  | post p msg => exact h.task_post htask arg
  | undo p msg => exact h.task_undo htask arg hcurrent
  | pbuf_free p =>
    simp only [InputCalls, unposted, unfreed, htask] at hcalls hout hfreed
    simp only [TcpipInput.task_step, htask]
    exact ⟨⟨h.room, nofun, h.handled, hfreed.trans (List.append_nil _).symm, h.threadCalls⟩, h.kept, hout, hcalls⟩

/-- The number of steps after which `tcpip_thread` waits, if nothing is posted. -/
def work (tcpip : TcpipInput Pbuf) : Nat :=
  6 * tcpip.mbox.length +
    match tcpip.thread with
    | .fetch => 0
    | .free _ => (tcpip.memp.call .thread).free_left
    | .input _ => 4
    | .lock _ => 5

/-- A step of `tcpip_thread`, whatever became of the pool. One that need not wait for the core
brings it nearer to the end of its work. -/
theorem Carried.thread_step (h : tcpip.Carried) (locked : Bool) :
    ∃ next, tcpip.thread_step locked = ok next ∧ next.Carried ∧ next.calls = tcpip.calls ∧
      (locked = false → next.work ≤ tcpip.work - 1) := by
  obtain ⟨rest, haccepted, hwaiting⟩ := h.handled
  have hroom := h.room
  have hcalls := h.threadCalls
  unfold TcpipInput.thread_step
  cases hthread : tcpip.thread with
  | fetch =>
    cases hmbox : tcpip.mbox with
    | nil =>
      refine ⟨tcpip, rfl, h, rfl, fun _ => ?_⟩
      simp [work, hthread, hmbox]
    | cons msg mbox =>
      simp only [ThreadCalls, hthread] at hcalls
      simp only [waiting, fetched, hthread, hmbox, List.flatMap_cons, List.length_cons] at hwaiting hroom
      refine ⟨_, rfl, ⟨Nat.le_of_succ_le hroom, h.posting, ⟨rest, haccepted, hwaiting⟩, h.freed, hcalls⟩, rfl,
        fun _ => ?_⟩
      simp only [work, hthread, hmbox, List.length_cons]
      omega
  | lock msg =>
    simp only [ThreadCalls, waiting, fetched, hthread] at hcalls hwaiting
    cases locked with
    | true => exact ⟨tcpip, rfl, h, rfl, nofun⟩
    | false =>
      cases msg with
      | inpkt msg | callback =>
        refine ⟨_, rfl, ⟨hroom, h.posting, ⟨rest, haccepted, hwaiting⟩, h.freed, hcalls⟩, rfl, fun _ => ?_⟩
        simp only [work, hthread]
        omega
  | input msg =>
    simp only [ThreadCalls, waiting, fetched, hthread] at hcalls hwaiting
    cases rest with
    | nil => simp at hwaiting
    | cons p rest =>
      simp only [List.cons_append, List.nil_append, List.map_cons, List.cons.injEq] at hwaiting
      obtain ⟨hmsg, hwaiting⟩ := hwaiting
      simp only [hmsg]
      refine ⟨_, rfl, ⟨hroom, h.posting, ⟨rest, ?_, hwaiting⟩, h.freed, .inl hcalls⟩, rfl, fun _ => ?_⟩
      · exact haccepted.trans (by simp)
      · simp only [work, hthread, hcalls, MempCall.free_left]
        omega
  | free msg =>
    simp only [ThreadCalls, waiting, fetched, hthread] at hcalls hwaiting
    obtain ⟨memp, -, ⟨hfree, -, hcall, hleft⟩ | ⟨hfree, -, hcall, hleft⟩⟩ := MempTasks.memp_free_cases hcalls
    · simp only [hfree, Bool.false_eq_true, if_false]
      refine ⟨_, rfl, ⟨hroom, h.posting, ⟨rest, haccepted, ?_⟩, h.freed, ?_⟩, rfl, fun _ => ?_⟩
      · simpa only [waiting, fetched, hthread] using hwaiting
      · simp only [ThreadCalls]
        exact .inr hcall
      · simp only [work, hthread]
        omega
    · simp only [hfree, if_true]
      refine ⟨_, rfl, ⟨hroom, h.posting, ⟨rest, haccepted, hwaiting⟩, h.freed, hcall⟩, rfl, fun _ => ?_⟩
      simp only [work, hthread]
      omega

/-- Until it puts a message back, `tcpip_thread` keeps the messages it has, and touches neither
the pool nor the input task. -/
theorem thread_step_keeps {locked : Bool} (hnext : tcpip.thread_step locked = ok next)
    (hthread : ∀ msg, tcpip.thread ≠ .free msg) :
    next.memp = tcpip.memp ∧ next.task = tcpip.task ∧
      next.done ++ next.waiting = tcpip.done ++ tcpip.waiting := by
  unfold thread_step at hnext
  cases hpc : tcpip.thread with
  | fetch =>
    simp only [hpc] at hnext
    cases hmbox : tcpip.mbox with
    | nil =>
      simp only [hmbox, ok.injEq] at hnext
      exact hnext ▸ ⟨rfl, rfl, rfl⟩
    | cons msg mbox =>
      simp only [hmbox, ok.injEq] at hnext
      subst hnext
      exact ⟨rfl, rfl, by simp [waiting, done, fetched, hpc, hmbox]⟩
  | lock msg =>
    cases locked with
    | true =>
      simp only [hpc, if_true, ok.injEq] at hnext
      exact hnext ▸ ⟨rfl, rfl, rfl⟩
    | false =>
      cases msg with
      | inpkt msg | callback =>
        simp only [hpc, Bool.false_eq_true, if_false, ok.injEq] at hnext
        subst hnext
        exact ⟨rfl, rfl, by simp [waiting, done, fetched, hpc, TcpipMsg.packet]⟩
  | input msg =>
    simp only [hpc] at hnext
    split at hnext
    · cases hnext
    · cases hnext
      exact ⟨rfl, rfl, by simp [waiting, done, fetched, hpc]⟩
  | free msg => exact absurd hpc (hthread msg)

/-- The message of a packet that was handled goes back to the pool. -/
theorem Accounted.thread_free (h : tcpip.Accounted all) {locked : Bool} (hthread : tcpip.thread = .free msg)
    (hcurrent : tcpip.Current (.thread locked)) (hnext : tcpip.thread_step locked = ok next)
    (hcarried : next.Carried) : next.Accounted all := by
  have hcalls := h.threadCalls
  have hout := h.out
  have hmsg : msg ∈ tcpip.done := by
    rw [done, hthread]
    exact List.mem_singleton_self _
  simp only [ThreadCalls, waiting, done, fetched, hthread, List.nil_append] at hcalls hout
  obtain ⟨memp, hkept, hothers, hreturned⟩ := h.kept.memp_free hcurrent
    (hcalls.imp_left fun hnone => ⟨hnone, h.inUse_done hmsg hnone⟩)
  have hinput : { tcpip with memp }.InputCalls := by
    unfold InputCalls
    rw [hothers .input nofun]
    exact h.inputCalls
  simp only [TcpipInput.thread_step, hthread] at hnext
  rcases hreturned with ⟨hfree, hsame, -⟩ | ⟨hfree, hless, -⟩
  · simp only [hfree, Bool.false_eq_true, if_false, ok.injEq] at hnext
    subst hnext
    refine ⟨hcarried, hkept, ?_, hinput⟩
    simp only [waiting, done, fetched, List.nil_append, hsame]
    exact hout
  · simp only [hfree, if_true, ok.injEq] at hnext
    subst hnext
    refine ⟨hcarried, hkept, ?_, hinput⟩
    rw [hless]
    exact (hout.erase msg).trans ((List.perm_middle.erase msg).trans (by rw [List.erase_cons_head]; rfl))

theorem Accounted.thread_step (h : tcpip.Accounted all) (locked : Bool)
    (hcurrent : tcpip.Current (.thread locked)) :
    ∃ next, tcpip.thread_step locked = ok next ∧ next.Accounted all := by
  obtain ⟨next, hnext, hcarried, -⟩ := h.toCarried.thread_step locked
  refine ⟨next, hnext, ?_⟩
  by_cases hfree : ∃ msg, tcpip.thread = .free msg
  · obtain ⟨msg, hthread⟩ := hfree
    exact h.thread_free hthread hcurrent hnext hcarried
  · obtain ⟨hmemp, htask, hsame⟩ := thread_step_keeps hnext (not_exists.mp hfree)
    refine ⟨hcarried, hmemp ▸ h.kept, ?_, ?_⟩
    · rw [hmemp, unposted, htask, hsame]
      exact h.out
    · unfold InputCalls
      rw [hmemp, htask]
      exact h.inputCalls

theorem Accounted.callback [Itron] (h : tcpip.Accounted all) :
    { tcpip with mbox := (sys_mbox_trypost tcpip.mbox .callback).2 }.Accounted all := by
  by_cases hroom : tcpip.mbox.length < archMESG_QUEUE_LENGTH
  · have hwaiting : { tcpip with mbox := tcpip.mbox ++ [TcpipMsg.callback] }.waiting = tcpip.waiting := by
      simp [waiting, fetched, TcpipMsg.packet]
    rw [trypost_of_room hroom]
    refine ⟨⟨(List.length_append).trans_le hroom, h.posting, ?_, h.freed, h.threadCalls⟩, h.kept, ?_, h.inputCalls⟩
    · rw [hwaiting]
      exact h.handled
    · rw [hwaiting]
      exact h.out
  · rw [trypost_of_full hroom]
    exact h

/-- When `tcpip_thread` waits, all that was accepted is handled. -/
theorem Carried.handled_of_work (h : tcpip.Carried) (hwork : tcpip.work = 0) :
    tcpip.handled = tcpip.accepted := by
  obtain ⟨rest, haccepted, hwaiting⟩ := h.handled
  unfold work at hwork
  have hmbox : tcpip.mbox = [] := List.eq_nil_of_length_eq_zero (by omega)
  have hnone : tcpip.waiting = [] := by
    cases hthread : tcpip.thread with
    | fetch | free =>
      rw [waiting, fetched, hthread, hmbox]
      rfl
    | lock | input =>
      simp only [hthread] at hwork
      omega
  rw [hnone, List.map_nil, eq_comm, List.map_eq_nil_iff] at hwaiting
  rw [haccepted, hwaiting, List.append_nil]

/-- Left to itself, `tcpip_thread` handles everything that was accepted. -/
theorem Carried.drains [Itron] (h : tcpip.Carried) {n : Nat} (hwork : tcpip.work ≤ n) :
    ∃ last, steps TcpipInput.step tcpip (List.replicate n (TcpipAction.thread false)) = ok last ∧
      last.handled = tcpip.accepted := by
  induction n generalizing tcpip with
  | zero => exact ⟨tcpip, rfl, h.handled_of_work (by omega)⟩
  | succ n ih =>
    obtain ⟨next, hnext, hcarried, hcalls, hless⟩ := h.thread_step false
    have hwork := hless rfl
    obtain ⟨last, hsteps, hlast⟩ := ih hcarried (by omega)
    refine ⟨last, bind_eq_ok_iff.mpr ⟨next, hnext, hsteps⟩, hlast.trans ?_⟩
    rw [accepted, accepted, hcalls]

end TcpipInput

end kfw.net
