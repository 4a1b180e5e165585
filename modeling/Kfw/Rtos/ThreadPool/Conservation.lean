import Kfw.Rtos.ThreadPool

open exec Result

namespace kfw.rtos.ThreadPool

/-- Blocks and callbacks are where they should be: the pool's fields represent
the 32 blocks with the queued and executing items out, and the queue holds the
accepted callbacks that were not called. -/
structure Intact (state : ThreadPool) : Prop where
  represents : ∃ used free, state.m_pool.Represents state.mem 32 used free nullptr
    (state.m_queue.data ++ state.executing)
  handle : state.m_pool.m_sem.m_handle ≠ kInvalidSemaphoreHandle
  tokens : state.m_pool.m_sem.semcnt ≤ state.m_pool.m_sem.maxsem
  queue : state.m_queue.m_handle ≠ 0
  capacity : state.m_queue.dtqcnt = 32
  called : state.CalledOnce

variable {state next : ThreadPool}

theorem Intact.conserved (h : state.Intact) : state.Conserved := by
  obtain ⟨used, free, hrep⟩ := h.represents
  exact ⟨free, hrep.chain, hrep.partition⟩

/-- A worker moves the oldest item from the queue to the executing ones. -/
theorem Intact.thread_recv [Itron] (h : state.Intact) (henabled : state.Enabled .thread_recv) :
    ∃ next, state.step .thread_recv = ok next ∧ next.Intact := by
  obtain ⟨used, free, hrep⟩ := h.represents
  cases hdata : state.m_queue.data with
  | nil => exact absurd hdata henabled.1
  | cons work_item rest =>
    refine ⟨{ state with
      m_queue := { state.m_queue with data := rest }
      executing := work_item :: state.executing
      started := state.started ++ [Callback.load state.mem state.funcs work_item] }, ?_, ?_⟩
    · simp [step, ThreadPool.thread_recv, DataQueue.recv, h.queue, hdata, Itron.trcv_dtq_cons]
    · have hcalled := h.called
      simp only [CalledOnce, hdata, List.map_cons] at hcalled
      rw [hdata] at hrep
      refine ⟨⟨used, free, hrep.perm ?_⟩, h.handle, h.tokens, h.queue, h.capacity, ?_⟩
      · exact List.perm_middle
      · simpa only [CalledOnce, List.append_assoc, List.singleton_append] using hcalled

/-- Passing an item to `delete` loses its block. -/
theorem Intact.thread_delete (h : state.Intact) {work_item : Addr}
    (henabled : state.Enabled (.thread_delete work_item)) :
    ¬ (state.thread_delete work_item).Conserved := by
  obtain ⟨used, free, hrep⟩ := h.represents
  have hperm : (work_item :: (state.m_queue.data ++ state.executing.erase work_item)).Perm
      (state.m_queue.data ++ state.executing) :=
    List.perm_middle.symm.trans ((List.perm_cons_erase henabled).symm.append_left _)
  exact (hrep.perm hperm).not_partition

/-- Storing a callback in a block that is not queued leaves the queued ones. -/
theorem map_load_update {items : List Addr} {work_item : Addr} (hitem : work_item ∉ items)
    (mem : Addr → Addr) (funcs : Addr → Nat) (word : Addr) (func : Nat) :
    items.map (Callback.load (Function.update mem work_item word) (Function.update funcs work_item func)) =
      items.map (Callback.load mem funcs) := by
  apply List.map_congr_left
  intro other hother
  have hne : other ≠ work_item := by
    rintro rfl
    exact hitem hother
  rw [Callback.load, Function.update_of_ne hne, Function.update_of_ne hne, Callback.load]

/-- Queueing work with a block available: the item is queued, or refused and
its block given back. -/
theorem Intact.queue_of_room [Itron] (h : state.Intact) (func : Callback) (er : Int)
    (htoken : state.m_pool.m_sem.semcnt < state.m_pool.m_sem.maxsem)
    (hroom : state.m_queue.data.length + state.executing.length < 32)
    (hfits : er = E_OK ∨ state.m_pool.m_sem.semcnt + 1 < state.m_pool.m_sem.maxsem) :
    ∃ next, state.step (.queue_work_item_isr func er) = ok next ∧ next.Intact := by
  obtain ⟨used, free, hrep⟩ := h.represents
  obtain ⟨block, pool, nextUsed, hget, hnext, hsem⟩ := hrep.get_isr_ok h.handle htoken (by simpa using hroom)
  have hcalled := h.called
  have hnodup := List.nodup_append.mp hnext.nodup
  have hblock : block ∉ state.m_queue.data := by
    have hout := (List.nodup_cons.mp hnodup.2.1).1
    exact fun hmem => hout (List.mem_append_left _ hmem)
  have hfree : block ∉ state.m_pool.freeAfterTake free :=
    fun hmem => hnodup.2.2 block hmem block (by simp) rfl
  have hstored := hnext.write hfree func.m_obj
  have hqueueRoom : state.m_queue.data.length < state.m_queue.dtqcnt := by
    rw [h.capacity]
    omega
  by_cases her : er = E_OK
  · refine ⟨{ state with
      m_pool := pool
      mem := Function.update state.mem block func.m_obj
      funcs := Function.update state.funcs block func.m_func
      m_queue := { state.m_queue with data := state.m_queue.data ++ [block] }
      accepted := state.accepted ++ [func] }, ?_, ?_⟩
    · simp [step, ThreadPool.queue_work_item_isr, hget, DataQueue.send_isr, h.queue, her,
        Itron.psnd_dtq_of_room block hqueueRoom]
    · refine ⟨⟨nextUsed, _, hstored.perm ?_⟩, ?_, ?_, h.queue, h.capacity, ?_⟩
      · simp only [List.append_assoc, List.singleton_append]
        exact List.perm_middle
      · simpa only [hsem] using h.handle
      · simp only [hsem]
        omega
      · simp only [CalledOnce] at hcalled ⊢
        rw [List.map_append, map_load_update hblock, hcalled, List.append_assoc]
        simp [Callback.load]
  · have hspare := hfits.resolve_left her
    obtain ⟨given, mem, hrelease, hgiven, hgivenSem, _, _, link, hmem⟩ := hstored.release_ok
      (by simpa only [hsem] using h.handle) (by simpa only [hsem] using hspare)
    refine ⟨{ state with
      m_pool := given
      mem
      funcs := Function.update state.funcs block func.m_func }, ?_, ?_⟩
    · simp [step, ThreadPool.queue_work_item_isr, hget, DataQueue.send_isr, h.queue, her,
        Itron.psnd_dtq_of_error block hqueueRoom her, is_failed_convert_er her, hrelease]
    · refine ⟨⟨nextUsed, _, hgiven⟩, ?_, ?_, h.queue, h.capacity, ?_⟩
      · simpa only [hgivenSem, hsem] using h.handle
      · simp only [hgivenSem, hsem]
        omega
      · simp only [CalledOnce, hmem, Function.update_idem] at hcalled ⊢
        rw [map_load_update hblock, hcalled]

/-- A refused item whose token no longer fits in the semaphore is not given
back to the pool. -/
theorem Intact.queue_loses [Itron] (h : state.Intact) (func : Callback) {er : Int} (her : er ≠ E_OK)
    (htoken : state.m_pool.m_sem.semcnt + 1 = state.m_pool.m_sem.maxsem)
    (hroom : state.m_queue.data.length + state.executing.length < 32) :
    ∃ next, state.step (.queue_work_item_isr func er) = ok next ∧ ¬ next.Conserved := by
  obtain ⟨used, free, hrep⟩ := h.represents
  obtain ⟨block, pool, nextUsed, hget, hnext, hsem⟩ :=
    hrep.get_isr_ok h.handle (by omega) (by simpa using hroom)
  have hfree : block ∉ state.m_pool.freeAfterTake free :=
    fun hmem => (List.nodup_append.mp hnext.nodup).2.2 block hmem block (by simp) rfl
  have hstored := hnext.write hfree func.m_obj
  have hqueueRoom : state.m_queue.data.length < state.m_queue.dtqcnt := by
    rw [h.capacity]
    omega
  have hrefused : pool.release (Function.update state.mem block func.m_obj) block =
      ok (kEUnknown, pool, Function.update state.mem block func.m_obj) := by
    apply FixedMemoryPool.release_refused hnext.buffer
    · simpa only [hsem] using h.handle
    · simpa only [hsem] using htoken
  refine ⟨{ state with
    m_pool := pool
    mem := Function.update state.mem block func.m_obj
    funcs := Function.update state.funcs block func.m_func }, ?_, hstored.not_partition⟩
  simp [step, ThreadPool.queue_work_item_isr, hget, DataQueue.send_isr, h.queue, her,
    Itron.psnd_dtq_of_error block hqueueRoom her, is_failed_convert_er her, hrefused]

theorem Intact.queue_refused [Itron] (h : state.Intact) (func : Callback) (er : Int)
    (htoken : state.m_pool.m_sem.semcnt = state.m_pool.m_sem.maxsem) :
    state.step (.queue_work_item_isr func er) = ok state := by
  obtain ⟨used, free, hrep⟩ := h.represents
  have hfailed : is_failed kEUnknown = true := by decide
  simp [step, ThreadPool.queue_work_item_isr,
    FixedMemoryPool.get_isr_refused hrep.buffer h.handle htoken, hfailed]

/-- Queueing work with every block out follows the null free list. -/
theorem Intact.queue_exhausted [Itron] (h : state.Intact) (func : Callback) (er : Int)
    (htoken : state.m_pool.m_sem.semcnt < state.m_pool.m_sem.maxsem)
    (hfull : ¬ state.m_queue.data.length + state.executing.length < 32) :
    state.step (.queue_work_item_isr func er) = fail .invalid_access := by
  obtain ⟨used, free, hrep⟩ := h.represents
  have hlength := hrep.length_eq
  have hused := hrep.used_le
  rw [List.length_append] at hlength
  have hget := hrep.get_isr_exhausted h.handle htoken (by rw [List.length_append]; omega)
  simp [step, ThreadPool.queue_work_item_isr, hget]

/-- A step meets the condition exactly when it returns to a state in which
blocks and callbacks are accounted for. -/
theorem Intact.keepsBlocks_iff [Itron] (h : state.Intact) {event : Event} (henabled : state.Enabled event) :
    (state.Returns event ∧ ∀ next, state.step event = ok next → next.Conserved ∧ next.CalledOnce) ↔
      state.KeepsBlocks event := by
  have kept : ∀ event next, state.step event = ok next → next.Intact →
      state.Returns event ∧ ∀ next, state.step event = ok next → next.Conserved ∧ next.CalledOnce := by
    intro event next hstep hnext
    refine ⟨⟨next, hstep⟩, fun other hother => ?_⟩
    obtain rfl : next = other := by simpa using hstep.symm.trans hother
    exact ⟨hnext.conserved, hnext.called⟩
  cases event with
  | queue_work_item_isr func er =>
    have htokens := h.tokens
    simp only [KeepsBlocks]
    by_cases hmax : state.m_pool.m_sem.semcnt = state.m_pool.m_sem.maxsem
    · exact ⟨fun _ => .inl hmax, fun _ => kept _ _ (h.queue_refused func er hmax) h⟩
    · have htoken : state.m_pool.m_sem.semcnt < state.m_pool.m_sem.maxsem := by omega
      simp only [hmax, false_or]
      constructor
      · intro ⟨⟨next, hstep⟩, hnext⟩
        by_cases hroom : state.m_queue.data.length + state.executing.length < 32
        · refine ⟨hroom, ?_⟩
          by_contra hlost
          rw [not_or] at hlost
          obtain ⟨other, hother, hnot⟩ := h.queue_loses func hlost.1 (by omega) hroom
          exact hnot (hnext other hother).1
        · rw [h.queue_exhausted func er htoken hroom] at hstep
          cases hstep
      · intro ⟨hroom, hfits⟩
        obtain ⟨next, hstep, hnext⟩ := h.queue_of_room func er htoken hroom hfits
        exact kept _ _ hstep hnext
  | thread_recv =>
    obtain ⟨next, hstep, hnext⟩ := h.thread_recv henabled
    exact ⟨fun _ => trivial, fun _ => kept _ _ hstep hnext⟩
  | thread_delete work_item =>
    refine ⟨fun hsafe => ?_, False.elim⟩
    exact h.thread_delete henabled (hsafe.2 _ rfl).1

theorem Intact.step [Itron] (h : state.Intact) (event : Event) (henabled : state.Enabled event)
    (hkeeps : state.KeepsBlocks event) (hstep : state.step event = ok next) : next.Intact := by
  cases event with
  | queue_work_item_isr func er =>
    have htokens := h.tokens
    by_cases hmax : state.m_pool.m_sem.semcnt = state.m_pool.m_sem.maxsem
    · obtain rfl : state = next := by simpa using (h.queue_refused func er hmax).symm.trans hstep
      exact h
    · obtain ⟨hroom, hfits⟩ := hkeeps.resolve_left hmax
      obtain ⟨other, hother, hnext⟩ := h.queue_of_room func er (by omega) hroom hfits
      obtain rfl : other = next := by simpa using hother.symm.trans hstep
      exact hnext
  | thread_recv =>
    obtain ⟨other, hother, hnext⟩ := h.thread_recv henabled
    obtain rfl : other = next := by simpa using hother.symm.trans hstep
    exact hnext
  | thread_delete work_item => exact hkeeps.elim

/-- A pool that got its memory, semaphore and queue starts with every block
available. -/
theorem start_intact (mem : Addr → Addr) (funcs : Addr → Nat) (buffer : Addr) (er_sem er_dtq : Int)
    (hbuffer : buffer ≠ nullptr) (hsem : 0 < er_sem) (hdtq : 0 < er_dtq) :
    ∃ state, start { mem, funcs } buffer er_sem er_dtq = ok state ∧ state.Intact := by
  have hcontract : FixedMemoryPool.CreateContract sizeof_ThreadPoolWorkItem 32 buffer er_sem :=
    ⟨by decide, by decide, hbuffer, hsem⟩
  have huncreated : FixedMemoryPool.Uncreated {} := ⟨rfl, rfl⟩
  obtain ⟨pool, hcreate, hrep, _, _, hpoolSem⟩ := huncreated.create hcontract mem
  have hpos : ¬ er_dtq ≤ 0 := by omega
  refine ⟨{ mem, funcs, m_pool := pool, m_queue := { m_handle := er_dtq, dtqcnt := 32 } }, ?_, ?_⟩
  · simp [start, hcreate, DataQueue.create, hpos]
  · refine ⟨⟨0, [], hrep⟩, ?_, ?_, ?_, rfl, rfl⟩
    · simp only [hpoolSem, kInvalidSemaphoreHandle]
      omega
    · simp only [hpoolSem]
      decide
    · simp only
      omega

/-- Conservation of work items over whole runs of interrupts and workers from a
started pool: every call comes back, every block is available, waiting or
executing in every state, and accepted callbacks are called once and in order,
if and only if no worker passes an item to `delete`, no work is queued while
all blocks are out, and no refused item meets a full semaphore. -/
theorem items_conserved_iff [Itron] (mem : Addr → Addr) (funcs : Addr → Nat) (buffer : Addr)
    (er_sem er_dtq : Int) (hbuffer : buffer ≠ nullptr) (hsem : 0 < er_sem) (hdtq : 0 < er_dtq)
    (state : ThreadPool) (hstart : start { mem, funcs } buffer er_sem er_dtq = ok state)
    (events : List Event) (hevents : Along step Enabled state events) :
    (Along step Returns state events ∧
      Always step (fun state => state.Conserved ∧ state.CalledOnce) state events) ↔
    Along step KeepsBlocks state events := by
  obtain ⟨started, hstarted, hintact⟩ := start_intact mem funcs buffer er_sem er_dtq hbuffer hsem hdtq
  obtain rfl : started = state := by simpa using hstarted.symm.trans hstart
  rw [always_iff_along, and_left_comm, ← along_and]
  have hrun := Along.iff_of_step Intact (fun _ _ h henabled => h.keepsBlocks_iff henabled)
    (fun _ event _ h henabled hkeeps hstep => h.step event henabled hkeeps hstep) hintact hevents
  rw [hrun, and_iff_right]
  exact ⟨hintact.conserved, hintact.called⟩

/-- Two items are queued and one is received. -/
theorem items_conserved_queue_recv :
    ∃ state, start { mem := fun _ => nullptr, funcs := fun _ => 0 } 64 1 1 = ok state ∧
      Along step Returns state [.queue_work_item_isr ⟨8, 1⟩ E_OK, .queue_work_item_isr ⟨8, 2⟩ E_OK,
        .thread_recv] ∧
      Always step (fun state => state.Conserved ∧ state.CalledOnce) state
        [.queue_work_item_isr ⟨8, 1⟩ E_OK, .queue_work_item_isr ⟨8, 2⟩ E_OK, .thread_recv] := by
  refine ⟨_, rfl, (items_conserved_iff (fun _ => nullptr) (fun _ => 0) 64 1 1 (by decide) (by decide)
    (by decide) _ rfl _ ?_).mpr ?_⟩
  · refine ⟨trivial, ?_⟩
    rintro _ ⟨⟩
    refine ⟨trivial, ?_⟩
    rintro _ ⟨⟩
    exact ⟨by simp [Enabled], fun _ _ => trivial⟩
  · refine ⟨.inr ⟨by decide, .inl rfl⟩, ?_⟩
    rintro _ ⟨⟩
    refine ⟨.inr ⟨by decide, .inl rfl⟩, ?_⟩
    rintro _ ⟨⟩
    exact ⟨trivial, fun _ _ => trivial⟩

/-- One item is queued, received and called: its block, at address 64, is then
neither available nor waiting nor executing. -/
theorem delete_loses_block :
    ∃ state, start { mem := fun _ => nullptr, funcs := fun _ => 0 } 64 1 1 = ok state ∧
      Along step Enabled state [.queue_work_item_isr ⟨8, 1⟩ E_OK, .thread_recv, .thread_delete 64] ∧
      ∃ last, steps step state [.queue_work_item_isr ⟨8, 1⟩ E_OK, .thread_recv, .thread_delete 64] =
          ok last ∧ last.accepted = last.started ∧ last.m_queue.data = [] ∧ last.executing = [] ∧
        ¬ last.Conserved := by
  obtain ⟨started, hstarted, hintact⟩ :=
    start_intact (fun _ => nullptr) (fun _ => 0) 64 1 1 (by decide) (by decide) (by decide)
  cases hstarted
  have hqueued := hintact.step (.queue_work_item_isr ⟨8, 1⟩ E_OK) trivial
    (.inr ⟨by decide, .inl rfl⟩) rfl
  have hreceived := hqueued.step .thread_recv ⟨List.cons_ne_nil _ _, by decide⟩ trivial rfl
  have hitem : (64 : Addr) ∈ [64] := List.mem_singleton_self 64
  refine ⟨_, rfl, ?_, _, rfl, rfl, rfl, rfl, hreceived.thread_delete hitem⟩
  refine ⟨trivial, ?_⟩
  rintro _ ⟨⟩
  refine ⟨⟨List.cons_ne_nil _ _, by decide⟩, ?_⟩
  rintro _ ⟨⟩
  exact ⟨hitem, fun _ _ => trivial⟩

end kfw.rtos.ThreadPool
