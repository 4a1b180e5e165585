import Kfw.Lib.Registry
import Kfw.Rtos.Kernel

open exec Result

namespace kfw.rtos

/-- An object of one of the wrapper classes. -/
inductive Wrapper where
  | semaphore (self : Semaphore)
  | mutex (self : Mutex)
  | event_flag (self : EventFlag)
  | data_queue (self : DataQueue)
  | thread (self : Thread)
  | timer (self : Timer)

/-- The arguments of a `create`, and the kernel's answers to it: `er_id` to the
service of its class, and `er_flg` to `acre_flg` in `ThreadContext::create`. -/
structure CreateCall where
  count : UInt32 := 0
  max_count : UInt32 := 0
  pattern : UInt32 := 0
  queue_count : UInt32 := 0
  allocated : Bool := true
  er_id : Int
  er_flg : Int := -1

/-- The object behind a handle. -/
def handle_object (kind : ObjectKind) (handle : Int) : Finset (ObjectKind × Int) :=
  if handle = 0 then ∅ else {(kind, handle)}

@[simp] theorem handle_object_invalid (kind : ObjectKind) : handle_object kind 0 = ∅ := if_pos rfl

theorem handle_object_of_pos {kind : ObjectKind} {handle : Int} (hhandle : 0 < handle) :
    handle_object kind handle = {(kind, handle)} := if_neg (by omega)

namespace Wrapper

/-- The object right after its construction. -/
def fresh : Wrapper → Wrapper
  | .semaphore _ => .semaphore {}
  | .mutex _ => .mutex {}
  | .event_flag _ => .event_flag {}
  | .data_queue _ => .data_queue {}
  | .thread _ => .thread {}
  | .timer _ => .timer {}

def create [Itron] (kernel : Kernel) (call : CreateCall) : Wrapper → Exec (ret_t × Wrapper × Kernel)
  | .semaphore self => do
    let (r, self, kernel) ← self.create_object kernel call.count call.max_count call.er_id
    ok (r, .semaphore self, kernel)
  | .mutex self => do
    let (r, self, kernel) ← self.create kernel call.er_id
    ok (r, .mutex self, kernel)
  | .event_flag self =>
    let (r, self, kernel) := self.create kernel call.pattern call.er_id
    ok (r, .event_flag self, kernel)
  | .data_queue self =>
    let (r, self, kernel) := self.create_object kernel call.queue_count call.er_id
    ok (r, .data_queue self, kernel)
  | .thread self =>
    let (r, self, kernel) := self.create kernel call.allocated call.er_flg call.er_id
    ok (r, .thread self, kernel)
  | .timer self =>
    let (r, self, kernel) := self.create kernel call.er_id
    ok (r, .timer self, kernel)

def dispose [Itron] (kernel : Kernel) : Wrapper → Wrapper × Kernel
  | .semaphore self =>
    let (self, kernel) := self.dispose_object kernel
    (.semaphore self, kernel)
  | .mutex self =>
    let (self, kernel) := self.dispose kernel
    (.mutex self, kernel)
  | .event_flag self =>
    let (self, kernel) := self.dispose kernel
    (.event_flag self, kernel)
  | .data_queue self =>
    let (self, kernel) := self.dispose kernel
    (.data_queue self, kernel)
  | .thread self =>
    let (self, kernel) := self.dispose kernel
    (.thread self, kernel)
  | .timer self =>
    let (self, kernel) := self.dispose kernel
    (.timer self, kernel)

/-- The kernel objects whose ids a wrapper holds. -/
def objects : Wrapper → Finset (ObjectKind × Int)
  | .semaphore self => handle_object .sem self.m_handle
  | .mutex self => handle_object .mtx self.m_handle
  | .event_flag self => handle_object .flg self.m_handle
  | .data_queue self => handle_object .dtq self.m_handle
  | .thread self => self.m_context.elim ∅ fun context =>
      handle_object .tsk context.m_handle ∪ handle_object .flg context.m_join_flag.m_handle
  | .timer self => handle_object .cyc self.m_handle

/-- The kind of the object that the create service of the class creates. -/
def kind : Wrapper → ObjectKind
  | .semaphore _ => .sem
  | .mutex _ => .mtx
  | .event_flag _ => .flg
  | .data_queue _ => .dtq
  | .thread _ => .tsk
  | .timer _ => .cyc

/-- The kinds of kernel objects that a wrapper of the class needs. -/
def needs (self : Wrapper) : Finset ObjectKind :=
  match self with
  | .thread _ => {self.kind, .flg}
  | _ => {self.kind}

/-- The kernel's answers are possible ones. -/
def Answers (kernel : Kernel) (call : CreateCall) (self : Wrapper) : Prop :=
  kernel.Answers self.kind call.er_id ∧ kernel.Answers .flg call.er_flg

/-- The calls that a class gets right: none on a timer, and no thread that gets its
task but not its flag. -/
def Sound (call : CreateCall) : Wrapper → Prop
  | .timer _ => False
  | .thread self => self.m_context = none → call.allocated = true → 0 < call.er_id → 0 < call.er_flg
  | _ => True

/-- The guard of the class against a second creation lets a `create` pass; a timer
has no such guard. -/
def Uncreated : Wrapper → Prop
  | .semaphore self => self.m_handle = kInvalidSemaphoreHandle
  | .mutex self => self.m_handle = kInvalidMutexHandle
  | .event_flag self => self.m_handle = kInvalidEventFlagHandle
  | .data_queue self => self.m_handle = 0
  | .thread self => self.m_context = none
  | .timer _ => True

/-- A `create` succeeds once there is memory and the kernel creates the objects. -/
def Creatable [Itron] (kernel : Kernel) (self : Wrapper) : Prop :=
  ∀ call : CreateCall, call.allocated = true → 0 < call.er_id → 0 < call.er_flg →
    ∃ next nextKernel, self.create kernel call = ok (kOk, next, nextKernel)

/-- `create` returns `kOk` exactly if every kernel object that is needed was
created. If it fails it changes nothing and can be called again. -/
def Reports [Itron] (kernel : Kernel) (call : CreateCall) (self : Wrapper) : Prop :=
  ∀ r next nextKernel, self.create kernel call = ok (r, next, nextKernel) →
    (r = kOk ↔ ∀ kind ∈ self.needs, ∃ id, (kind, id) ∈ nextKernel.live \ kernel.live) ∧
      (is_failed r = true → next = self ∧ nextKernel = kernel ∧ (self.Uncreated → next.Creatable nextKernel))

/-- What a `create` that is right comes to: all objects are new and there was none
before, or nothing changed. -/
def Outcome (kernel : Kernel) (self : Wrapper) : ret_t × Wrapper × Kernel → Prop
  | (r, next, nextKernel) =>
    r = kOk ∧ self.objects = ∅ ∧ next.objects.image Prod.fst = self.needs ∧
        (∀ object ∈ next.objects, object ∉ kernel.live) ∧ nextKernel.live = kernel.live ∪ next.objects ∨
      is_failed r = true ∧ next = self ∧ nextKernel = kernel

variable {kernel : Kernel} {call : CreateCall} {self next : Wrapper}

/-- A wrapper that held nothing and got the one object of its class. -/
theorem Outcome.of_created [Itron] {er_id : Int} (hnone : self.objects = ∅) (hneeds : self.needs = {self.kind})
    (her : 0 < er_id) (hfresh : (self.kind, er_id) ∉ kernel.live) (hnext : next.objects = {(self.kind, er_id)}) :
    self.Outcome kernel (kOk, next, kernel.acre self.kind er_id) := by
  refine .inl ⟨rfl, hnone, ?_, ?_, ?_⟩
  · rw [hnext, hneeds, Finset.image_singleton]
  · intro object hobject
    rw [hnext, Finset.mem_singleton] at hobject
    rwa [hobject]
  · rw [hnext, Kernel.acre_of_id her, Finset.insert_eq, Finset.union_comm]

theorem Outcome.of_failed {r : ret_t} (hr : is_failed r = true) : self.Outcome kernel (r, self, kernel) :=
  .inr ⟨hr, rfl, rfl⟩

theorem create_semaphore [Itron] (semaphore : Semaphore) (hanswers : kernel.Answers .sem call.er_id)
    {result : ret_t × Wrapper × Kernel} (hcreate : (Wrapper.semaphore semaphore).create kernel call = ok result) :
    (Wrapper.semaphore semaphore).Outcome kernel result := by
  by_cases hhandle : semaphore.m_handle = kInvalidSemaphoreHandle
  · rcases hanswers with her | ⟨her, hfresh⟩
    · simp [create, Semaphore.create_object, Semaphore.create, hhandle, her] at hcreate
    · have hnot : ¬ call.er_id < 0 := by omega
      simp only [create, Semaphore.create_object, Semaphore.create, hhandle, ne_eq, not_true, if_false, hnot,
        bind_ok, ok.injEq] at hcreate
      subst hcreate
      exact .of_created (by rw [objects, hhandle]; rfl) rfl her hfresh (handle_object_of_pos her)
  · simp [create, Semaphore.create_object, Semaphore.create, hhandle] at hcreate

theorem create_mutex [Itron] (mutex : Mutex) (hanswers : kernel.Answers .mtx call.er_id)
    {result : ret_t × Wrapper × Kernel} (hcreate : (Wrapper.mutex mutex).create kernel call = ok result) :
    (Wrapper.mutex mutex).Outcome kernel result := by
  by_cases hhandle : mutex.m_handle = kInvalidMutexHandle
  · rcases hanswers with her | ⟨her, hfresh⟩
    · simp [create, Mutex.create, hhandle, her] at hcreate
    · have hnot : ¬ call.er_id < 0 := by omega
      simp only [create, Mutex.create, hhandle, ne_eq, not_true, if_false, hnot, bind_ok, ok.injEq] at hcreate
      subst hcreate
      exact .of_created (by rw [objects, hhandle]; rfl) rfl her hfresh (handle_object_of_pos her)
  · simp [create, Mutex.create, hhandle] at hcreate

theorem create_event_flag [Itron] (flag : EventFlag) (hanswers : kernel.Answers .flg call.er_id)
    {result : ret_t × Wrapper × Kernel} (hcreate : (Wrapper.event_flag flag).create kernel call = ok result) :
    (Wrapper.event_flag flag).Outcome kernel result := by
  by_cases hhandle : flag.m_handle = kInvalidEventFlagHandle
  · rcases hanswers with her | ⟨her, hfresh⟩
    · simp only [create, EventFlag.create, hhandle, ne_eq, not_true, if_false, her, if_true,
        Kernel.acre_of_error her, ok.injEq] at hcreate
      subst hcreate
      exact .of_failed rfl
    · have hnot : ¬ call.er_id < 0 := by omega
      simp only [create, EventFlag.create, hhandle, ne_eq, not_true, if_false, hnot, ok.injEq] at hcreate
      subst hcreate
      exact .of_created (by rw [objects, hhandle]; rfl) rfl her hfresh (handle_object_of_pos her)
  · simp only [create, EventFlag.create, ne_eq, hhandle, not_false_eq_true, if_true, ok.injEq] at hcreate
    subst hcreate
    exact .of_failed rfl

theorem create_data_queue [Itron] (queue : DataQueue) (hanswers : kernel.Answers .dtq call.er_id)
    {result : ret_t × Wrapper × Kernel} (hcreate : (Wrapper.data_queue queue).create kernel call = ok result) :
    (Wrapper.data_queue queue).Outcome kernel result := by
  by_cases hhandle : queue.m_handle = 0
  · rcases hanswers with her | ⟨her, hfresh⟩
    · have hle : call.er_id ≤ 0 := by omega
      simp only [create, DataQueue.create_object, DataQueue.create, hhandle, ne_eq, not_true, if_false, hle,
        if_true, Kernel.acre_of_error her, ok.injEq] at hcreate
      subst hcreate
      exact .of_failed rfl
    · have hnot : ¬ call.er_id ≤ 0 := by omega
      simp only [create, DataQueue.create_object, DataQueue.create, hhandle, ne_eq, not_true, if_false, hnot,
        ok.injEq] at hcreate
      subst hcreate
      exact .of_created (by rw [objects, hhandle]; rfl) rfl her hfresh (handle_object_of_pos her)
  · simp only [create, DataQueue.create_object, DataQueue.create, ne_eq, hhandle, not_false_eq_true, if_true,
      ok.injEq] at hcreate
    subst hcreate
    exact .of_failed rfl

theorem create_thread [Itron] (thread : Thread) (hanswers : (Wrapper.thread thread).Answers kernel call)
    (hsound : (Wrapper.thread thread).Sound call) {result : ret_t × Wrapper × Kernel}
    (hcreate : (Wrapper.thread thread).create kernel call = ok result) :
    (Wrapper.thread thread).Outcome kernel result := by
  by_cases hnone : thread.m_context = none
  · by_cases hrefused : call.allocated = false ∨ call.er_id < 0
    · obtain ⟨r, hr, hthread⟩ := Thread.create_refused hnone hanswers.2 hrefused
      simp only [create, hthread, ok.injEq] at hcreate
      subst hcreate
      exact .of_failed hr
    · obtain ⟨halloc, hnot⟩ := not_or.mp hrefused
      rw [Bool.not_eq_false] at halloc
      obtain ⟨htsk, htskFresh⟩ := hanswers.1.resolve_left hnot
      have hflg := hsound hnone halloc htsk
      have hflgFresh := (hanswers.2.resolve_left (by omega)).2
      simp only [create, halloc, Thread.create_of_id hnone htsk, EventFlag.create_of_id hflg, ok.injEq] at hcreate
      subst hcreate
      have hobjects : (handle_object .tsk call.er_id ∪ handle_object .flg call.er_flg) =
          {(.tsk, call.er_id), (.flg, call.er_flg)} := by
        rw [handle_object_of_pos htsk, handle_object_of_pos hflg]
        rfl
      refine .inl ⟨rfl, by rw [objects, hnone]; rfl, ?_, ?_, ?_⟩
      · simp [objects, needs, kind, hobjects, Finset.image_insert]
      · intro object hobject
        simp only [objects, Option.elim_some, hobjects, Finset.mem_insert, Finset.mem_singleton] at hobject
        rcases hobject with rfl | rfl
        · exact htskFresh
        · exact hflgFresh
      · rw [Kernel.acre_of_id htsk, Kernel.acre_of_id hflg]
        simp only [objects, Option.elim_some, hobjects]
        ext object
        simp only [Finset.mem_insert, Finset.mem_union, Finset.mem_singleton]
        tauto
  · simp only [create, Thread.create_again hnone, ok.injEq] at hcreate
    subst hcreate
    exact .of_failed rfl

theorem create_spec [Itron] (self : Wrapper) (hanswers : self.Answers kernel call) (hsound : self.Sound call)
    {result : ret_t × Wrapper × Kernel} (hcreate : self.create kernel call = ok result) :
    self.Outcome kernel result := by
  cases self with
  | semaphore semaphore => exact create_semaphore semaphore hanswers.1 hcreate
  | mutex mutex => exact create_mutex mutex hanswers.1 hcreate
  | event_flag flag => exact create_event_flag flag hanswers.1 hcreate
  | data_queue queue => exact create_data_queue queue hanswers.1 hcreate
  | thread thread => exact create_thread thread hanswers hsound hcreate
  | timer timer => exact hsound.elim

theorem kind_mem_needs (self : Wrapper) : self.kind ∈ self.needs := by
  cases self <;> simp [needs]

/-- The return code of an `Outcome` says whether the objects were created. -/
theorem Outcome.kOk_iff {r : ret_t} {nextKernel : Kernel} (h : self.Outcome kernel (r, next, nextKernel)) :
    r = kOk ↔ ∀ kind ∈ self.needs, ∃ id, (kind, id) ∈ nextKernel.live \ kernel.live := by
  rcases h with ⟨hr, -, hneeds, hfresh, hlive⟩ | ⟨hr, -, hkernel⟩
  · refine iff_of_true hr fun kind hkind => ?_
    rw [← hneeds] at hkind
    obtain ⟨⟨_, id⟩, hobject, rfl⟩ := Finset.mem_image.mp hkind
    refine ⟨id, Finset.mem_sdiff.mpr ⟨?_, hfresh _ hobject⟩⟩
    rw [hlive]
    exact Finset.mem_union_right _ hobject
  · refine iff_of_false ?_ fun hcreated => ?_
    · rintro rfl
      simp at hr
    · obtain ⟨id, hid⟩ := hcreated self.kind self.kind_mem_needs
      simp [hkernel] at hid

theorem creatable_of_uncreated [Itron] (hsound : self.Sound call) (hself : self.Uncreated) : self.Creatable kernel := by
  intro again halloc hid hflg
  have hnot : ¬ again.er_id < 0 := by omega
  cases self with
  | semaphore semaphore =>
    have hhandle : semaphore.m_handle = kInvalidSemaphoreHandle := hself
    simp [create, Semaphore.create_object, Semaphore.create, hhandle, hnot]
  | mutex mutex =>
    have hhandle : mutex.m_handle = kInvalidMutexHandle := hself
    simp [create, Mutex.create, hhandle, hnot]
  | event_flag flag =>
    have hhandle : flag.m_handle = kInvalidEventFlagHandle := hself
    simp [create, EventFlag.create, hhandle, hnot]
  | data_queue queue =>
    have hhandle : queue.m_handle = 0 := hself
    have hnotLe : ¬ again.er_id ≤ 0 := by omega
    simp [create, DataQueue.create_object, DataQueue.create, hhandle, hnotLe]
  | thread thread => simp [create, halloc, Thread.create_of_id hself hid]
  | timer timer => exact hsound.elim

theorem reports_of_sound [Itron] (hanswers : self.Answers kernel call) (hsound : self.Sound call) :
    self.Reports kernel call := by
  intro r next nextKernel hcreate
  have houtcome := create_spec self hanswers hsound hcreate
  refine ⟨houtcome.kOk_iff, fun hr => ?_⟩
  rcases houtcome with ⟨hok, -⟩ | ⟨-, rfl, rfl⟩
  · rw [hok] at hr
    simp at hr
  · exact ⟨rfl, rfl, creatable_of_uncreated hsound⟩

/-- A timer reports every answer of the kernel as an error. -/
theorem create_timer [Itron] (timer : Timer) (her : call.er_id ≠ 0) :
    (Wrapper.timer timer).create kernel call = ok (kEUnknown, .timer timer, kernel.acre .cyc call.er_id) := by
  have hne : call.er_id ≠ E_OK := her
  simp [create, Timer.create, hne]

theorem not_reports_timer [Itron] (timer : Timer) (hanswers : (Wrapper.timer timer).Answers kernel call) :
    ¬ (Wrapper.timer timer).Reports kernel call := by
  intro hreports
  have her : call.er_id ≠ 0 := by
    rcases hanswers.1 with her | ⟨her, -⟩ <;> omega
  obtain ⟨-, hfailed⟩ := hreports _ _ _ (create_timer timer her)
  obtain ⟨-, -, hcreatable⟩ := hfailed rfl
  obtain ⟨_, _, hcreate⟩ := hcreatable trivial { er_id := 1, er_flg := 1 } rfl (by decide) (by decide)
  rw [create_timer timer (by decide)] at hcreate
  have hr : kEUnknown = kOk := congrArg Prod.fst (ok.inj hcreate)
  exact absurd hr (by decide)

/-- Without its flag a thread is reported as created all the same. -/
theorem not_reports_thread [Itron] (thread : Thread) (hanswers : (Wrapper.thread thread).Answers kernel call)
    (hnone : thread.m_context = none) (halloc : call.allocated = true) (htsk : 0 < call.er_id)
    (hflg : ¬ 0 < call.er_flg) : ¬ (Wrapper.thread thread).Reports kernel call := by
  intro hreports
  have her : call.er_flg < 0 := hanswers.2.resolve_right fun hid => hflg hid.1
  have hcreate : (Wrapper.thread thread).create kernel call =
      ok (kOk, .thread { m_context := some { m_handle := call.er_id } }, kernel.acre .tsk call.er_id) := by
    simp [create, halloc, Thread.create_of_id hnone htsk, EventFlag.create_of_error her]
  obtain ⟨id, hid⟩ := (hreports _ _ _ hcreate).1.mp rfl .flg (by simp [needs])
  simp [Kernel.acre_of_id htsk] at hid

theorem reports_iff_sound [Itron] (hanswers : self.Answers kernel call) :
    self.Reports kernel call ↔ self.Sound call := by
  refine ⟨fun hreports => ?_, reports_of_sound hanswers⟩
  cases self with
  | thread thread =>
    intro hnone halloc htsk
    by_contra hflg
    exact not_reports_thread thread hanswers hnone halloc htsk hflg hreports
  | timer timer => exact not_reports_timer timer hanswers hreports
  | _ => exact trivial

/-- What a `dispose` does to the kernel: the object behind the handle is deleted, if there is one. -/
theorem live_del [Itron] (kernel : Kernel) (kind : ObjectKind) (handle : Int) :
    (if handle = 0 then kernel else kernel.del kind handle).live = kernel.live \ handle_object kind handle := by
  by_cases hhandle : handle = 0
  · rw [if_pos hhandle, hhandle, handle_object_invalid, Finset.sdiff_empty]
  · rw [if_neg hhandle, handle_object, if_neg hhandle, Finset.sdiff_singleton_eq_erase, Kernel.del_eq]

theorem event_flag_dispose [Itron] (flag : EventFlag) (kernel : Kernel) :
    (flag.dispose kernel).1.m_handle = kInvalidEventFlagHandle ∧
      (flag.dispose kernel).2.live = kernel.live \ handle_object .flg flag.m_handle := by
  rw [← live_del]
  by_cases hhandle : flag.m_handle = 0
  · have hdispose : flag.dispose kernel = (flag, kernel) := if_pos hhandle
    rw [hdispose, if_pos hhandle]
    exact ⟨hhandle, rfl⟩
  · have hdispose : flag.dispose kernel =
        ({ flag with m_handle := kInvalidEventFlagHandle }, kernel.del .flg flag.m_handle) := if_neg hhandle
    rw [hdispose, if_neg hhandle]
    exact ⟨rfl, rfl⟩

/-- The destructor of a context gives back its task and its flag. -/
theorem thread_context_delete [Itron] (context : ThreadContext) (kernel : Kernel) :
    (context.delete kernel).live =
      kernel.live \ (handle_object .tsk context.m_handle ∪ handle_object .flg context.m_join_flag.m_handle) := by
  have hdelete : context.delete kernel =
      ((context.dispose kernel).1.m_join_flag.dispose (context.dispose kernel).2).2 := rfl
  by_cases hhandle : context.m_handle = 0
  · have hdispose : context.dispose kernel = (context, kernel) := if_pos hhandle
    rw [hdelete, hdispose, (event_flag_dispose _ _).2, hhandle, handle_object_invalid, Finset.empty_union]
  · have hdispose : context.dispose kernel =
        (⟨kInvalidThreadHandle, (context.m_join_flag.dispose (kernel.del .tsk context.m_handle)).1⟩,
          (context.m_join_flag.dispose (kernel.del .tsk context.m_handle)).2) := if_neg hhandle
    have hdel : (kernel.del .tsk context.m_handle).live = kernel.live \ handle_object .tsk context.m_handle := by
      rw [← live_del, if_neg hhandle]
    have hflag := event_flag_dispose context.m_join_flag (kernel.del .tsk context.m_handle)
    -- the flag's own destructor finds it disposed already
    rw [hdelete, hdispose, (event_flag_dispose _ _).2, hflag.1, hflag.2, hdel, kInvalidEventFlagHandle,
      handle_object_invalid, Finset.sdiff_empty, sdiff_sdiff_left]
    rfl

/-- `dispose` deletes what the wrapper holds. -/
theorem dispose_spec [Itron] (self : Wrapper) (kernel : Kernel) :
    (self.dispose kernel).1.objects = ∅ ∧ (self.dispose kernel).2.live = kernel.live \ self.objects := by
  cases self with
  | semaphore semaphore =>
    refine ⟨?_, live_del kernel .sem semaphore.m_handle⟩
    by_cases hhandle : semaphore.m_handle = 0
    · simp [dispose, Semaphore.dispose_object, Semaphore.dispose, objects, hhandle, kInvalidSemaphoreHandle]
    · simp [dispose, Semaphore.dispose_object, Semaphore.dispose, objects, hhandle, kInvalidSemaphoreHandle]
  | mutex mutex =>
    rw [objects, ← live_del]
    by_cases hhandle : mutex.m_handle = 0
    · simp [dispose, Mutex.dispose, objects, hhandle, kInvalidMutexHandle]
    · simp [dispose, Mutex.dispose, objects, hhandle, kInvalidMutexHandle]
  | event_flag flag =>
    have hdispose := event_flag_dispose flag kernel
    refine ⟨?_, hdispose.2⟩
    simp [dispose, objects, hdispose.1, kInvalidEventFlagHandle]
  | data_queue queue =>
    rw [objects, ← live_del]
    by_cases hhandle : queue.m_handle = 0
    · simp [dispose, DataQueue.dispose, objects, hhandle]
    · simp [dispose, DataQueue.dispose, objects, hhandle]
  | thread thread =>
    cases thread with | mk m_context =>
    cases m_context with
    | none => simp [dispose, Thread.dispose, objects]
    | some context => exact ⟨rfl, thread_context_delete context kernel⟩
  | timer timer =>
    rw [objects, ← live_del]
    by_cases hhandle : timer.m_handle = 0
    · simp [dispose, Timer.dispose, objects, hhandle]
    · simp [dispose, Timer.dispose, objects, hhandle]

end Wrapper

/-- The wrapper objects of a program, and the kernel. -/
structure Wrappers (V : Type) where
  wrappers : V → Wrapper
  kernel : Kernel

inductive WrapperCall (V : Type) where
  | create (v : V) (call : CreateCall)
  | dispose (v : V)

namespace Wrappers

variable {V : Type} [DecidableEq V]

/-- The start of the program, with every wrapper constructed and no kernel object. -/
def start (wrappers : V → Wrapper) : Wrappers V :=
  { wrappers := fun v => (wrappers v).fresh, kernel := {} }

/-- One call. `kfw_system_error` resets the controller, and the program starts again. -/
def step [Itron] (state : Wrappers V) : WrapperCall V → Exec (Wrappers V)
  | .create v call =>
    match (state.wrappers v).create state.kernel call with
    | ok (_, next, kernel) => ok { wrappers := Function.update state.wrappers v next, kernel }
    | fail (.system_error _) => ok (start state.wrappers)
    | fail .invalid_access => fail .invalid_access
    | div => div
  | .dispose v =>
    let (next, kernel) := (state.wrappers v).dispose state.kernel
    ok { wrappers := Function.update state.wrappers v next, kernel }

/-- The kernel answers the services of the call as it can. -/
def Answered (state : Wrappers V) : WrapperCall V → Prop
  | .create v call => (state.wrappers v).Answers state.kernel call
  | .dispose _ => True

def Sound (state : Wrappers V) : WrapperCall V → Prop
  | .create v call => (state.wrappers v).Sound call
  | .dispose _ => True

def Reports [Itron] (state : Wrappers V) : WrapperCall V → Prop
  | .create v call => (state.wrappers v).Reports state.kernel call
  | .dispose _ => True

/-- The live kernel objects are those whose ids the wrappers hold, each held by one. -/
def Accounted (state : Wrappers V) : Prop :=
  Exact (fun v => (state.wrappers v).objects) state.kernel.live

variable {state next : Wrappers V}

omit [DecidableEq V] in
theorem start_accounted (wrappers : V → Wrapper) : (start wrappers).Accounted := by
  have hempty : (fun v => ((start wrappers).wrappers v).objects) = fun _ => ∅ := by
    funext v
    show ((wrappers v).fresh).objects = ∅
    cases wrappers v <;> rfl
  rw [Accounted, hempty]
  exact Exact.empty

/-- One wrapper exchanges the objects it holds for new ones. -/
theorem Accounted.exchange (h : state.Accounted) (v : V) {wrapper : Wrapper} {kernel : Kernel}
    (hfresh : ∀ object ∈ wrapper.objects, object ∉ state.kernel.live)
    (hlive : kernel.live = state.kernel.live \ (state.wrappers v).objects ∪ wrapper.objects) :
    Accounted { wrappers := Function.update state.wrappers v wrapper, kernel } := by
  have hobjects : (fun w => (Function.update state.wrappers v wrapper w).objects) =
      Function.update (fun w => (state.wrappers w).objects) v wrapper.objects := by
    funext w
    exact Function.apply_update (fun _ => Wrapper.objects) state.wrappers v wrapper w
  show Exact (fun w => (Function.update state.wrappers v wrapper w).objects) kernel.live
  rw [hobjects, hlive]
  exact Exact.replace h v hfresh

theorem Accounted.create [Itron] (h : state.Accounted) {v : V} {call : CreateCall}
    (hanswers : (state.wrappers v).Answers state.kernel call) (hsound : (state.wrappers v).Sound call)
    (hstep : state.step (.create v call) = ok next) : next.Accounted := by
  cases hcreate : (state.wrappers v).create state.kernel call with
  | ok result =>
    obtain ⟨r, wrapper, kernel⟩ := result
    simp only [step, hcreate, ok.injEq] at hstep
    subst hstep
    rcases Wrapper.create_spec _ hanswers hsound hcreate with ⟨-, hnone, -, hfresh, hlive⟩ | ⟨-, rfl, rfl⟩
    · refine h.exchange v hfresh ?_
      rw [hnone, Finset.sdiff_empty, hlive]
    · rwa [Function.update_eq_self]
  | fail error =>
    cases error with
    | invalid_access => simp [step, hcreate] at hstep
    | system_error r =>
      simp only [step, hcreate, ok.injEq] at hstep
      subst hstep
      exact start_accounted _
  | div => simp [step, hcreate] at hstep

theorem Accounted.dispose [Itron] (h : state.Accounted) {v : V} (hstep : state.step (.dispose v) = ok next) :
    next.Accounted := by
  obtain ⟨hnone, hlive⟩ := Wrapper.dispose_spec (state.wrappers v) state.kernel
  simp only [Wrappers.step, ok.injEq] at hstep
  subst hstep
  refine h.exchange v ?_ ?_
  · simp [hnone]
  · rw [hnone, Finset.union_empty, hlive]

theorem Accounted.step [Itron] (h : state.Accounted) {call : WrapperCall V} (hanswered : state.Answered call)
    (hsound : state.Sound call) (hstep : state.step call = ok next) : next.Accounted := by
  cases call with
  | create v call => exact h.create hanswered hsound hstep
  | dispose v => exact h.dispose hstep

/-- The kernel objects are accounted for, and every `create` reports what became of
them, exactly in the runs in which no timer is created and every thread that gets its
task gets its flag. -/
theorem kernel_objects_accounted_iff [Itron] (wrappers : V → Wrapper) (calls : List (WrapperCall V))
    (hanswered : Along step Answered (start wrappers) calls) :
    Along step Reports (start wrappers) calls ∧ Always step Accounted (start wrappers) calls ↔
      Along step Sound (start wrappers) calls := by
  rw [always_iff_along, and_iff_right (start_accounted wrappers), ← along_and]
  refine Along.iff_of_step Accounted ?_ ?_ (start_accounted wrappers) hanswered
  · intro state call hstate hcall
    have hreports : state.Reports call ↔ state.Sound call := by
      cases call with
      | create v call => exact Wrapper.reports_iff_sound hcall
      | dispose v => exact Iff.rfl
    rw [hreports]
    exact ⟨And.left, fun hsound => ⟨hsound, fun next hnext => Accounted.step hstate hcall hsound hnext⟩⟩
  · intro state call next hstate hcall hsound hnext
    exact Accounted.step hstate hcall hsound hnext

/-- A thread that gets task 2 and flag 1, and is disposed of. -/
theorem thread_objects_accounted :
    Along step Reports (start fun _ : Unit => .thread {}) [.create () { er_id := 2, er_flg := 1 }, .dispose ()] ∧
      Always step Accounted (start fun _ : Unit => .thread {})
        [.create () { er_id := 2, er_flg := 1 }, .dispose ()] :=
  (kernel_objects_accounted_iff (fun _ : Unit => .thread {})
      [.create () { er_id := 2, er_flg := 1 }, .dispose ()]
      ⟨by simp [Answered, Wrapper.Answers, Kernel.Answers, start], fun _ _ => ⟨trivial, fun _ _ => trivial⟩⟩).mpr
    ⟨by simp [Sound, Wrapper.Sound, start, Wrapper.fresh], fun _ _ => ⟨trivial, fun _ _ => trivial⟩⟩

/-- The kernel creates cyclic handler 1, `Timer::create` reports an error and nobody
holds the handler; and a thread is reported as created although it has no flag. -/
theorem timer_create_leaks :
    (∃ next, (start fun _ : Unit => .timer {}).step (.create () { er_id := 1 }) = ok next ∧
      next.kernel.live = {(.cyc, 1)} ∧ (next.wrappers ()).objects = ∅ ∧ ¬ next.Accounted) ∧
    ∃ next kernel, (Wrapper.thread {}).create {} { er_id := 1, er_flg := -1 } = ok (kOk, next, kernel) ∧
      kernel.live = {(.tsk, 1)} := by
  refine ⟨⟨{ wrappers := Function.update (fun _ => .timer {}) () (.timer {}), kernel := ⟨{(.cyc, 1)}⟩ },
    rfl, rfl, rfl, fun h => ?_⟩, _, _, rfl, rfl⟩
  obtain ⟨v, hv⟩ := (h.live_iff (.cyc, 1)).mp (Finset.mem_singleton_self _)
  exact Finset.notMem_empty _ hv

end Wrappers

end kfw.rtos
