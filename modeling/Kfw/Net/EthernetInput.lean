import Kfw.Lib.Run
import Kfw.Rtos.Semaphore

open exec Result kfw.rtos

namespace kfw.net

def osOK : Int32 := 0

def TIME_WAITING_FOR_INPUT : Int := 100

/-- `osSemaphoreCreate`, when the kernel has a semaphore to give. -/
def osSemaphoreCreate (count : Nat) : Semaphore := { semcnt := count, maxsem := 0xFFFFFFFF }

/-- The count that `osSemaphoreWait` reads and returns once it has a token. -/
def ref_sem [Itron] (sem : Semaphore) : Int32 := (Itron.ref_sem sem.semcnt).toUInt32.toInt32

def osSemaphoreRelease [Itron] (sem : Semaphore) : Semaphore :=
  { sem with semcnt := (Itron.sig_sem sem.semcnt sem.maxsem).2 }

/-- `low_level_input` on the frames in the receive descriptors, each by its
length; `alloc` is whether `pbuf_alloc` has a buffer. A frame that is fetched
without one is dropped. -/
def low_level_input (frames : List Nat) (alloc : Bool) : Option Nat × List Nat :=
  match frames with
  | [] => (none, [])
  | len :: frames => (if 0 < len ∧ alloc = true then some len else none, frames)

/-- Where the task `ethernetif_input` stands: before it waits for a token, before
it reads the count, or before it fetches a frame. -/
inductive InputPc where
  | wait
  | ref
  | drain
  deriving DecidableEq

/-- The receiving side of the driver: the semaphore, the frames in the
descriptors, those of them whose callback has not run yet, and the task. -/
structure EthernetInput where
  s_xSemaphore : Semaphore := osSemaphoreCreate 1
  frames : List Nat := []
  callbacks : Nat := 0
  pc : InputPc := .wait
  deriving DecidableEq

inductive EthernetAction where
  /-- a frame is received -/
  | arrive (len : Nat)
  /-- `HAL_ETH_RxCpltCallback` for a frame that was received -/
  | callback
  /-- the next step of the task, with the answer of `pbuf_alloc` if it is asked -/
  | task (alloc : Bool)

namespace EthernetInput

def step [Itron] (eth : EthernetInput) : EthernetAction → Exec EthernetInput
  | .arrive len => ok { eth with frames := eth.frames ++ [len], callbacks := eth.callbacks + 1 }
  | .callback =>
    if eth.callbacks = 0 then fail .invalid_access
    else ok { eth with
      s_xSemaphore := osSemaphoreRelease eth.s_xSemaphore
      callbacks := eth.callbacks - 1 }
  | .task alloc =>
    match eth.pc with
    | .wait => do
      let (er, semcnt) ← Itron.twai_sem eth.s_xSemaphore.semcnt TIME_WAITING_FOR_INPUT
      ok { eth with s_xSemaphore.semcnt := semcnt, pc := if er = E_OK then .ref else .wait }
    | .ref => ok { eth with pc := if ref_sem eth.s_xSemaphore = osOK then .drain else .wait }
    | .drain =>
      let (p, frames) := low_level_input eth.frames alloc
      ok { eth with frames, pc := if p.isSome then .drain else .wait }

/-- A token or a callback is there that will make the task go on. -/
def Woken (eth : EthernetInput) : Prop := 0 < eth.s_xSemaphore.semcnt ∨ 0 < eth.callbacks

/-- No frame is left behind when the task waits and nothing will wake it. -/
def NothingLeft (eth : EthernetInput) : Prop :=
  eth.pc = .wait → eth.s_xSemaphore.semcnt = 0 → eth.callbacks = 0 → eth.frames = []

/-- There is a buffer for every frame fetched while others wait behind it, unless
the task will be woken again. -/
def HasBuffer (eth : EthernetInput) (action : EthernetAction) : Prop :=
  ∀ alloc len others, action = .task alloc → eth.pc = .drain → eth.frames = len :: others → others ≠ [] →
    (0 < len ∧ alloc = true) ∨ eth.Woken

/-- Frames wait only for a task that is at work or will be. -/
structure Attended (eth : EthernetInput) : Prop where
  count : eth.s_xSemaphore.semcnt < 2 ^ 32
  maxsem : eth.s_xSemaphore.maxsem = 0xFFFFFFFF
  waiting : eth.pc = .wait → eth.frames ≠ [] → eth.Woken

variable {eth next : EthernetInput} {action : EthernetAction}

theorem Attended.nothingLeft (h : eth.Attended) : eth.NothingLeft := by
  intro hpc hcount hcallbacks
  by_contra hframes
  rcases h.waiting hpc hframes with htoken | hcallback
  · omega
  · omega

/-- The count reads as `osOK` only when no token is left. -/
theorem ref_sem_eq_osOK_iff [Itron] {sem : Semaphore} (hcount : sem.semcnt < 2 ^ 32) :
    ref_sem sem = osOK ↔ sem.semcnt = 0 := by
  rw [ref_sem, Itron.ref_sem_eq]
  constructor
  · intro hzero
    have hword : sem.semcnt.toUInt32 = 0 := congrArg Int32.toUInt32 hzero
    have hnat : sem.semcnt % 2 ^ 32 = 0 := congrArg UInt32.toNat hword
    rwa [Nat.mod_eq_of_lt hcount] at hnat
  · intro hzero
    rw [hzero]
    rfl

/-- After a release there is a token, whether or not there was room for one more. -/
theorem osSemaphoreRelease_spec [Itron] {sem : Semaphore} (hcount : sem.semcnt < 2 ^ 32)
    (hmax : sem.maxsem = 0xFFFFFFFF) :
    (osSemaphoreRelease sem).semcnt < 2 ^ 32 ∧ (osSemaphoreRelease sem).maxsem = 0xFFFFFFFF ∧
      0 < (osSemaphoreRelease sem).semcnt := by
  unfold osSemaphoreRelease
  by_cases hroom : sem.semcnt < sem.maxsem
  · rw [Itron.sig_sem_of_room hroom]
    exact ⟨by simp only; omega, hmax, Nat.succ_pos _⟩
  · rw [Itron.sig_sem_of_full hroom]
    exact ⟨hcount, hmax, by simp only; omega⟩

/-- A step keeps the frames attended unless it drops one of several and nothing
will wake the task again. -/
theorem Attended.step [Itron] (h : eth.Attended) (hbuffer : eth.HasBuffer action) (hnext : eth.step action = ok next) :
    next.Attended := by
  cases action with
  | arrive len =>
    cases hnext
    exact ⟨h.count, h.maxsem, fun _ _ => .inr (Nat.succ_pos _)⟩
  | callback =>
    obtain ⟨hcount, hmaxsem, htoken⟩ := osSemaphoreRelease_spec h.count h.maxsem
    simp only [EthernetInput.step] at hnext
    split at hnext
    · cases hnext
    · cases hnext
      exact ⟨hcount, hmaxsem, fun _ _ => .inl htoken⟩
  | task alloc =>
    cases hpc : eth.pc with
    | wait =>
      by_cases htoken : 0 < eth.s_xSemaphore.semcnt
      · simp only [EthernetInput.step, hpc, Itron.twai_sem_of_token _ htoken, bind_ok, if_true, ok.injEq] at hnext
        subst hnext
        exact ⟨Nat.lt_of_le_of_lt (Nat.sub_le _ _) h.count, h.maxsem, fun hwait => by cases hwait⟩
      · have hempty : eth.s_xSemaphore.semcnt = 0 := by omega
        obtain ⟨er, her, hwait⟩ := Itron.twai_sem_timeout (show TIME_WAITING_FOR_INPUT ≠ TMO_FEVR by decide)
        rw [← hempty] at hwait
        simp only [EthernetInput.step, hpc, hwait, bind_ok, if_neg her, ok.injEq] at hnext
        subst hnext
        exact ⟨h.count, h.maxsem, fun _ => h.waiting hpc⟩
    | ref =>
      simp only [EthernetInput.step, hpc, ok.injEq] at hnext
      subst hnext
      refine ⟨h.count, h.maxsem, fun hwait _ => .inl (Nat.pos_of_ne_zero fun hzero => ?_)⟩
      rw [if_pos ((ref_sem_eq_osOK_iff h.count).mpr hzero)] at hwait
      cases hwait
    | drain =>
      simp only [EthernetInput.step, hpc, ok.injEq] at hnext
      subst hnext
      refine ⟨h.count, h.maxsem, fun hwait hleft => ?_⟩
      cases hframes : eth.frames with
      | nil => simp [low_level_input, hframes] at hleft
      | cons len others =>
        simp only [low_level_input, hframes] at hwait hleft
        rcases hbuffer alloc len others rfl hpc hframes hleft with hfetched | hwoken
        · simp [hfetched] at hwait
        · exact hwoken

/-- Without a buffer where one is needed, frames are left behind. -/
theorem leaves_frames [Itron] (hbuffer : ¬ eth.HasBuffer action) :
    ∃ next, eth.step action = ok next ∧ ¬ next.NothingLeft := by
  simp only [HasBuffer, not_forall, not_or] at hbuffer
  obtain ⟨alloc, len, others, rfl, hpc, hframes, hothers, hdropped, hasleep⟩ := hbuffer
  refine ⟨{ eth with frames := others, pc := .wait }, ?_, fun hnothing => ?_⟩
  · simp [EthernetInput.step, hpc, low_level_input, hframes, hdropped]
  · rw [Woken, not_or, Nat.not_lt, Nat.le_zero, Nat.not_lt, Nat.le_zero] at hasleep
    exact hothers (hnothing rfl hasleep.1 hasleep.2)

end EthernetInput

/-- Over every interleaving of frames, callbacks and steps of the task, a frame
is never left behind exactly if `pbuf_alloc` has a buffer for every frame that is
fetched while others wait behind it and nothing will wake the task again. -/
theorem ethernet_input_wakes_iff [Itron] (actions : List EthernetAction) :
    Always EthernetInput.step EthernetInput.NothingLeft {} actions ↔
      Along EthernetInput.step EthernetInput.HasBuffer {} actions := by
  have hallowed : Along EthernetInput.step (fun _ _ => True) {} actions := .of_forall fun _ _ _ => trivial
  have hstart : EthernetInput.Attended {} := ⟨by decide, rfl, fun _ hframes => absurd rfl hframes⟩
  exact always_iff_along_of_break EthernetInput.Attended (fun _ hattended => hattended.nothingLeft)
    (fun _ _ _ hattended _ hbuffer hnext => hattended.step hbuffer hnext)
    (fun _ _ _ _ hbuffer => EthernetInput.leaves_frames hbuffer) hstart hallowed

/-- Two frames arrive, the task takes all tokens, and there is no buffer for the
first frame: the second stays behind. -/
theorem ethernet_input_leaves_frame :
    ¬ Always EthernetInput.step EthernetInput.NothingLeft {}
      [.arrive 60, .arrive 60, .callback, .callback, .task true, .task true, .task true, .task true,
        .task true, .task true, .task false] := by
  intro hnothing
  have hrun : steps EthernetInput.step {}
      [.arrive 60, .arrive 60, .callback, .callback, .task true, .task true, .task true, .task true,
        .task true, .task true, .task false] =
        ok { s_xSemaphore := osSemaphoreCreate 0, frames := [60], callbacks := 0, pc := .wait } := by
    decide +kernel
  have hleft := hnothing.last hrun rfl rfl rfl
  simp at hleft

end kfw.net
