import Kfw.Rtos.ThreadPool

open exec Result

namespace kfw.rtos

/-- The objects that exist in the kernel, by their kind and id. -/
structure Kernel where
  live : Finset (ObjectKind × Int) := ∅

namespace Kernel

/-- The state after a service that creates an object, where `er_id` is its answer:
the id of the object, or a negative error. -/
def acre [Itron] (kernel : Kernel) (kind : ObjectKind) (er_id : Int) : Kernel :=
  { live := Itron.acre kernel.live kind er_id }

/-- The state after a service that deletes an object. -/
def del [Itron] (kernel : Kernel) (kind : ObjectKind) (id : Int) : Kernel := { live := Itron.del kernel.live kind id }

/-- What a create service can answer: the positive id of an object that did not
exist before, or a negative error. -/
def Answers (kernel : Kernel) (kind : ObjectKind) (er_id : Int) : Prop :=
  er_id < 0 ∨ 0 < er_id ∧ (kind, er_id) ∉ kernel.live

variable {kernel : Kernel} {kind : ObjectKind} {er_id : Int}

theorem acre_of_error [Itron] (her : er_id < 0) : kernel.acre kind er_id = kernel := by
  rw [acre, Itron.acre_of_error (by omega)]

theorem acre_of_id [Itron] (her : 0 < er_id) :
    kernel.acre kind er_id = { live := insert (kind, er_id) kernel.live } := by
  rw [acre, Itron.acre_of_id her]

theorem del_eq [Itron] (kernel : Kernel) (kind : ObjectKind) (id : Int) :
    kernel.del kind id = { live := kernel.live.erase (kind, id) } := by
  rw [del, Itron.del_eq]

/-- An object that is created and deleted again leaves nothing behind. -/
theorem del_acre [Itron] (hfresh : (kind, er_id) ∉ kernel.live) :
    (kernel.acre kind er_id).del kind er_id = kernel := by
  by_cases her : 0 < er_id
  · rw [acre_of_id her, del_eq, Finset.erase_insert hfresh]
  · rw [acre, Itron.acre_of_error her, del_eq, Finset.erase_eq_of_notMem hfresh]

end Kernel

def TSK_NONE : Int := 0

def kInvalidThreadHandle : Int := TSK_NONE
def kInvalidMutexHandle : Int := 0
def kInvalidEventFlagHandle : Int := 0

/-- `Semaphore::create` with the kernel object it creates. -/
def Semaphore.create_object [Itron] (self : Semaphore) (kernel : Kernel) (count max_count : UInt32) (er_id : Int) :
    Exec (ret_t × Semaphore × Kernel) := do
  let (r, next) ← self.create count max_count er_id
  ok (r, next, kernel.acre .sem er_id)

def Semaphore.dispose_object [Itron] (self : Semaphore) (kernel : Kernel) : Semaphore × Kernel :=
  (self.dispose, if self.m_handle = kInvalidSemaphoreHandle then kernel else kernel.del .sem self.m_handle)

structure Mutex where
  m_handle : Int := kInvalidMutexHandle

/-- `er_id` is the kernel's answer to `kos_cre_mtx`. -/
def Mutex.create [Itron] (self : Mutex) (kernel : Kernel) (er_id : Int) : Exec (ret_t × Mutex × Kernel) :=
  if self.m_handle ≠ kInvalidMutexHandle then fail (.system_error kEInvalidOperation)
  else
    let kernel := kernel.acre .mtx er_id
    if er_id < 0 then fail (.system_error kEResource)
    else ok (kOk, { m_handle := er_id }, kernel)

def Mutex.dispose [Itron] (self : Mutex) (kernel : Kernel) : Mutex × Kernel :=
  if self.m_handle = kInvalidMutexHandle then (self, kernel)
  else ({ m_handle := kInvalidMutexHandle }, kernel.del .mtx self.m_handle)

/-- An `EventFlag` with the pattern of the kernel's flag behind its handle. -/
structure EventFlag where
  m_handle : Int := kInvalidEventFlagHandle
  flgptn : UInt32 := 0
  deriving DecidableEq

namespace EventFlag

/-- `er_id` is the kernel's answer to `acre_flg`. -/
def create [Itron] (self : EventFlag) (kernel : Kernel) (pattern : UInt32) (er_id : Int) : ret_t × EventFlag × Kernel :=
  if self.m_handle ≠ kInvalidEventFlagHandle then (kEInvalidOperation, self, kernel)
  else
    let kernel := kernel.acre .flg er_id
    if er_id < 0 then (kEResource, self, kernel)
    else (kOk, { m_handle := er_id, flgptn := pattern }, kernel)

def dispose [Itron] (self : EventFlag) (kernel : Kernel) : EventFlag × Kernel :=
  if self.m_handle = kInvalidEventFlagHandle then (self, kernel)
  else ({ self with m_handle := kInvalidEventFlagHandle }, kernel.del .flg self.m_handle)

theorem create_of_error [Itron] {kernel : Kernel} {er_id : Int} (her : er_id < 0) (pattern : UInt32) :
    ({} : EventFlag).create kernel pattern er_id = (kEResource, {}, kernel) := by
  simp [create, her, Kernel.acre_of_error her]

theorem create_of_id [Itron] {kernel : Kernel} {er_id : Int} (her : 0 < er_id) (pattern : UInt32) :
    ({} : EventFlag).create kernel pattern er_id =
      (kOk, { m_handle := er_id, flgptn := pattern }, kernel.acre .flg er_id) := by
  have hnot : ¬ er_id < 0 := by omega
  simp [create, hnot]

theorem dispose_of_id [Itron] {kernel : Kernel} {handle : Int} (hhandle : 0 < handle) (flgptn : UInt32) :
    ({ m_handle := handle, flgptn } : EventFlag).dispose kernel =
      ({ m_handle := kInvalidEventFlagHandle, flgptn }, kernel.del .flg handle) :=
  if_neg (show ¬ handle = 0 by omega)

def set [Itron] (self : EventFlag) (flags : UInt32) : ret_t × EventFlag :=
  if self.m_handle = kInvalidEventFlagHandle then (kEDisposed, self)
  else
    let (er, flgptn) := Itron.set_flg self.flgptn flags
    (kfw_convert_er er, { self with flgptn })

/-- A wait for all bits of `pattern` without timeout. The flag was created without
`TA_CLR`, so it keeps its bits. -/
def wait [Itron] (self : EventFlag) (pattern : UInt32) : Exec ret_t :=
  if self.m_handle = kInvalidEventFlagHandle then ok kEDisposed
  else do
    let er ← Itron.twai_flg self.flgptn pattern
    ok (kfw_convert_er er)

end EventFlag

/-- `DataQueue::create` with the kernel object it creates. -/
def DataQueue.create_object [Itron] (self : DataQueue) (kernel : Kernel) (queue_count : UInt32) (er_id : Int) :
    ret_t × DataQueue × Kernel :=
  let (r, next) := self.create queue_count er_id
  (r, next, if self.m_handle ≠ 0 then kernel else kernel.acre .dtq er_id)

def DataQueue.dispose [Itron] (self : DataQueue) (kernel : Kernel) : DataQueue × Kernel :=
  if self.m_handle = 0 then (self, kernel)
  else ({ self with m_handle := 0 }, kernel.del .dtq self.m_handle)

structure ThreadContext where
  m_handle : Int := kInvalidThreadHandle
  m_join_flag : EventFlag := {}
  deriving DecidableEq

namespace ThreadContext

/-- `er_flg` and `er_tsk` are the kernel's answers to `acre_flg` and `acre_tsk`. The
answer of the flag's creation is not looked at. -/
def create [Itron] (self : ThreadContext) (kernel : Kernel) (er_flg er_tsk : Int) : ret_t × ThreadContext × Kernel :=
  if self.m_handle ≠ kInvalidThreadHandle then (kEInvalidOperation, self, kernel)
  else
    let (_, m_join_flag, kernel) := self.m_join_flag.create kernel 0 er_flg
    let kernel := kernel.acre .tsk er_tsk
    if er_tsk < 0 then
      let (m_join_flag, kernel) := m_join_flag.dispose kernel
      (kfw_convert_er er_tsk, { self with m_join_flag }, kernel)
    else (kOk, { m_handle := er_tsk, m_join_flag }, kernel)

/-- Without a task nothing is left, whether there was a flag or not. -/
theorem create_of_error [Itron] {kernel : Kernel} {er_flg er_tsk : Int} (hflg : kernel.Answers .flg er_flg)
    (htsk : er_tsk < 0) :
    ({} : ThreadContext).create kernel er_flg er_tsk = (kfw_convert_er er_tsk, {}, kernel) := by
  rcases hflg with hflg | ⟨hflg, hfresh⟩
  · simp [create, EventFlag.create_of_error hflg, Kernel.acre_of_error htsk, htsk, EventFlag.dispose]
  · simp [create, EventFlag.create_of_id hflg, EventFlag.dispose_of_id hflg, Kernel.acre_of_error htsk, htsk,
      Kernel.del_acre hfresh]

def dispose [Itron] (self : ThreadContext) (kernel : Kernel) : ThreadContext × Kernel :=
  if self.m_handle = kInvalidThreadHandle then (self, kernel)
  else
    let kernel := kernel.del .tsk self.m_handle
    let (m_join_flag, kernel) := self.m_join_flag.dispose kernel
    ({ m_handle := kInvalidThreadHandle, m_join_flag }, kernel)

/-- `delete` of a context: its destructor and that of its flag. -/
def delete [Itron] (self : ThreadContext) (kernel : Kernel) : Kernel :=
  let (self, kernel) := self.dispose kernel
  (self.m_join_flag.dispose kernel).2

end ThreadContext

structure Thread where
  m_context : Option ThreadContext := none
  deriving DecidableEq

namespace Thread

/-- `allocated` is whether there is memory for the context. -/
def create [Itron] (self : Thread) (kernel : Kernel) (allocated : Bool) (er_flg er_tsk : Int) :
    ret_t × Thread × Kernel :=
  if self.m_context.isSome then (kEInvalidOperation, self, kernel)
  else if ¬ allocated then (kEOutOfMemory, self, kernel)
  else
    let (r, context, kernel) := ({} : ThreadContext).create kernel er_flg er_tsk
    if is_failed r then (r, self, context.delete kernel)
    else (kOk, { m_context := some context }, kernel)

variable {self : Thread} {kernel : Kernel} {allocated : Bool} {er_flg er_tsk : Int}

theorem create_again [Itron] (hsome : self.m_context ≠ none) :
    self.create kernel allocated er_flg er_tsk = (kEInvalidOperation, self, kernel) := by
  simp [create, Option.isSome_iff_ne_none, hsome]

/-- A `create` that gets no memory or no task fails and changes nothing. -/
theorem create_refused [Itron] (hnone : self.m_context = none) (hflg : kernel.Answers .flg er_flg)
    (hrefused : allocated = false ∨ er_tsk < 0) :
    ∃ r, is_failed r = true ∧ self.create kernel allocated er_flg er_tsk = (r, self, kernel) := by
  cases allocated with
  | false => exact ⟨kEOutOfMemory, by decide, by simp [create, hnone]⟩
  | true =>
    have htsk : er_tsk < 0 := by simpa using hrefused
    have hfailed : is_failed (kfw_convert_er er_tsk) = true :=
      is_failed_convert_er (show er_tsk ≠ 0 by omega)
    refine ⟨kfw_convert_er er_tsk, hfailed, ?_⟩
    simp [create, hnone, ThreadContext.create_of_error hflg htsk, hfailed, ThreadContext.delete,
      ThreadContext.dispose, EventFlag.dispose]

/-- With a task `create` succeeds, with the flag that was created for it or without. -/
theorem create_of_id [Itron] (hnone : self.m_context = none) (htsk : 0 < er_tsk) :
    self.create kernel true er_flg er_tsk =
      (kOk, { m_context := some {
          m_handle := er_tsk, m_join_flag := (({} : EventFlag).create kernel 0 er_flg).2.1 } },
        (({} : EventFlag).create kernel 0 er_flg).2.2.acre .tsk er_tsk) := by
  have hnot : ¬ er_tsk < 0 := by omega
  simp [create, hnone, ThreadContext.create, hnot, is_failed_kOk]

def dispose [Itron] (self : Thread) (kernel : Kernel) : Thread × Kernel :=
  match self.m_context with
  | none => (self, kernel)
  | some context => ({ m_context := none }, context.delete kernel)

/-- A thread that was created and is disposed of at once leaves nothing behind. -/
theorem dispose_created [Itron] (hflg : kernel.Answers .flg er_flg) (htsk : 0 < er_tsk)
    (hfresh : (.tsk, er_tsk) ∉ kernel.live) :
    (({} : Thread).create kernel true er_flg er_tsk).2.1.dispose
      (({} : Thread).create kernel true er_flg er_tsk).2.2 = ({}, kernel) := by
  have hhandle : ¬ er_tsk = kInvalidThreadHandle := show ¬ er_tsk = 0 by omega
  rw [create_of_id rfl htsk]
  rcases hflg with hflg | ⟨hflg, hflgFresh⟩
  · rw [EventFlag.create_of_error hflg]
    simp [dispose, ThreadContext.delete, ThreadContext.dispose, hhandle, EventFlag.dispose,
      Kernel.del_acre hfresh]
  · have htskFresh : (.tsk, er_tsk) ∉ (kernel.acre .flg er_flg).live := by
      rw [Kernel.acre_of_id hflg]
      simpa using hfresh
    have hflgHandle : ¬ er_flg = kInvalidEventFlagHandle := show ¬ er_flg = 0 by omega
    rw [EventFlag.create_of_id hflg]
    simp [dispose, ThreadContext.delete, ThreadContext.dispose, hhandle, EventFlag.dispose, hflgHandle,
      Kernel.del_acre htskFresh, Kernel.del_acre hflgFresh]

/-- `er` is the kernel's answer to `sta_tsk`. -/
def start (self : Thread) (er : Int) : ret_t :=
  match self.m_context with
  | none => kEDisposed
  | some _ => kfw_convert_er er

def join [Itron] (self : Thread) : Exec ret_t :=
  match self.m_context with
  | none => ok kEDisposed
  | some context => context.m_join_flag.wait 1

end Thread

structure Timer where
  m_handle : Int := 0

/-- `er_id` is the kernel's answer to `acre_cyc`. There is no check whether the
timer was created already, and any answer but `E_OK` counts as an error. -/
def Timer.create [Itron] (self : Timer) (kernel : Kernel) (er_id : Int) : ret_t × Timer × Kernel :=
  let kernel := kernel.acre .cyc er_id
  if er_id ≠ E_OK then (kEUnknown, self, kernel)
  else (kOk, { m_handle := er_id }, kernel)

def Timer.dispose [Itron] (self : Timer) (kernel : Kernel) : Timer × Kernel :=
  if self.m_handle = 0 then (self, kernel)
  else ({ m_handle := 0 }, kernel.del .cyc self.m_handle)

end kfw.rtos
