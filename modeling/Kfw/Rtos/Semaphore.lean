import Kfw.Rtos.Itron

open exec Result

namespace kfw.rtos

def kfw_convert_er (er : Int) : ret_t :=
  if er = E_OK then kOk
  else if er = E_TMOUT then kETimeout
  else kEUnknown

theorem is_failed_convert_er {er : Int} (her : er ≠ E_OK) : is_failed (kfw_convert_er er) = true := by
  by_cases htmo : er = E_TMOUT
  · rw [htmo]
    decide
  · rw [kfw_convert_er, if_neg her, if_neg htmo]
    decide

def kInvalidSemaphoreHandle : Int := 0

/-- A `Semaphore` object with the kernel's counting semaphore behind its
handle: the tokens it has (`semcnt`) and the most it may have (`maxsem`). -/
structure Semaphore where
  m_handle : Int := kInvalidSemaphoreHandle
  semcnt : Nat := 0
  maxsem : Nat := 0
  deriving DecidableEq

/-- `er_id` is the kernel's answer to `kos_cre_sem`. -/
def Semaphore.create (self : Semaphore) (count max_count : UInt32) (er_id : Int) :
    Exec (ret_t × Semaphore) :=
  if self.m_handle ≠ kInvalidSemaphoreHandle then fail (.system_error kEInvalidOperation)
  else if er_id < 0 then fail (.system_error kEResource)
  else ok (kOk, { m_handle := er_id, semcnt := count.toNat, maxsem := max_count.toNat })

def Semaphore.dispose (self : Semaphore) : Semaphore :=
  if self.m_handle = kInvalidSemaphoreHandle then self
  else { self with m_handle := kInvalidSemaphoreHandle }

def Semaphore.wait [Itron] (self : Semaphore) (timeout_ms : Int) : Exec (ret_t × Semaphore) :=
  if self.m_handle = kInvalidSemaphoreHandle then fail (.system_error kEDisposed)
  else do
    let (er, semcnt) ← Itron.twai_sem self.semcnt timeout_ms
    ok (kfw_convert_er er, { self with semcnt })

/-- `Semaphore::release` and `Semaphore::release_isr`, which differ only in the
kernel service they call. -/
def Semaphore.release [Itron] (self : Semaphore) : Exec (ret_t × Semaphore) :=
  if self.m_handle = kInvalidSemaphoreHandle then fail (.system_error kEDisposed)
  else
    let (er, semcnt) := Itron.sig_sem self.semcnt self.maxsem
    ok (kfw_convert_er er, { self with semcnt })

def Semaphore.release_isr [Itron] (self : Semaphore) : Exec (ret_t × Semaphore) := self.release

section services

variable [Itron] {self : Semaphore} (hhandle : self.m_handle ≠ kInvalidSemaphoreHandle)

include hhandle

theorem Semaphore.wait_of_token (htoken : 0 < self.semcnt) (timeout_ms : Int) :
    self.wait timeout_ms = ok (kOk, { self with semcnt := self.semcnt - 1 }) := by
  simp [Semaphore.wait, Itron.twai_sem_of_token timeout_ms htoken, hhandle, kfw_convert_er]

/-- Without a token a wait never succeeds: it does not come back, or fails and leaves the count. -/
theorem Semaphore.wait_forever (hempty : self.semcnt = 0) : self.wait TMO_FEVR = div := by
  simp [Semaphore.wait, hempty, Itron.twai_sem_forever, hhandle]

theorem Semaphore.wait_of_empty (hempty : self.semcnt = 0) {timeout_ms : Int} (htimeout : timeout_ms ≠ TMO_FEVR) :
    ∃ r, is_failed r = true ∧ self.wait timeout_ms = ok (r, self) := by
  obtain ⟨er, her, hwait⟩ := Itron.twai_sem_timeout htimeout
  rw [← hempty] at hwait
  refine ⟨kfw_convert_er er, is_failed_convert_er her, ?_⟩
  simp [Semaphore.wait, hwait, hhandle]

theorem Semaphore.release_of_room (hroom : self.semcnt < self.maxsem) :
    self.release = ok (kOk, { self with semcnt := self.semcnt + 1 }) := by
  simp [Semaphore.release, Itron.sig_sem_of_room hroom, hhandle, kfw_convert_er]

theorem Semaphore.release_of_full (hfull : self.semcnt = self.maxsem) : self.release = ok (kEUnknown, self) := by
  simp [Semaphore.release, Itron.sig_sem_of_full hfull.not_lt, hhandle, kfw_convert_er, E_QOVR, E_OK, E_TMOUT]

end services

end kfw.rtos
