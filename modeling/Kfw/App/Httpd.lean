import Kfw.Lib.Run
import Kfw.Rtos.Kernel
import Kfw.Web.Listener

open exec Result kfw.net kfw.rtos kfw.web

namespace kfw.app

/-- What the services under one `Httpd::start` answer: those of the server, whether
there is memory for the thread, and the kernel's answers to `acre_flg`, `acre_tsk`
and `sta_tsk`. -/
structure StartAnswers where
  server : ServerAnswers
  allocated : Bool
  er_flg : Int
  er_tsk : Int
  er : Int

structure Httpd where
  m_is_running : Bool := false
  m_http_l : HttpListener := {}
  m_http_thread : Thread := {}

namespace Httpd

def error_failed_http_l_start (r : ret_t) (self : Httpd) (kernel : Kernel) : ret_t × Httpd × Kernel :=
  (r, { self with m_http_l := self.m_http_l.dispose }, kernel)

def error_failed_thread_create (r : ret_t) (self : Httpd) (kernel : Kernel) : ret_t × Httpd × Kernel :=
  error_failed_http_l_start r { self with m_http_l := self.m_http_l.stop } kernel

def error_failed_thread_start [Itron] (r : ret_t) (self : Httpd) (kernel : Kernel) : ret_t × Httpd × Kernel :=
  let (m_http_thread, kernel) := self.m_http_thread.dispose kernel
  error_failed_thread_create r { self with m_http_thread } kernel

/-- The three functions above are the labels at the end of `start`, each going on
with the next. -/
def start [Itron] (self : Httpd) (kernel : Kernel) (answers : StartAnswers) : ret_t × Httpd × Kernel :=
  if self.m_is_running then (kEInvalidOperation, self, kernel)
  else
    let (r, m_http_l) := self.m_http_l.create 80 answers.server
    let self := { self with m_http_l }
    if is_failed r then (r, self, kernel)
    else
      let (r, m_http_l) := self.m_http_l.start answers.server
      let self := { self with m_http_l }
      if is_failed r then error_failed_http_l_start r self kernel
      else
        let (r, m_http_thread, kernel) :=
          self.m_http_thread.create kernel answers.allocated answers.er_flg answers.er_tsk
        let self := { self with m_http_thread }
        if is_failed r then error_failed_thread_create r self kernel
        else
          let r := self.m_http_thread.start answers.er
          if is_failed r then error_failed_thread_start r self kernel
          else (kOk, { self with m_is_running := true }, kernel)

def stop (self : Httpd) : Httpd :=
  if ¬ self.m_is_running then self else { self with m_http_l := self.m_http_l.stop }

def restart [Itron] (self : Httpd) (kernel : Kernel) (answers : StartAnswers) : Httpd × Kernel :=
  (self.stop.start kernel answers).2

/-- No listening socket and no thread. -/
structure Stopped (self : Httpd) : Prop where
  not_running : self.m_is_running = false
  closed : self.m_http_l.m_server.m_socket.m_context = none
  not_started : self.m_http_l.m_is_started = false
  no_thread : self.m_http_thread.m_context = none

end Httpd

/-- Every step of `Httpd::start` succeeds. -/
structure StartAnswers.Succeeds (answers : StartAnswers) : Prop where
  opens : answers.server.allocated = true ∧ answers.server.granted = true
  binds : answers.server.netconn_bind 80 = ERR_OK
  listens : answers.server.netconn_listen_with_backlog 16 = ERR_OK
  creates : answers.allocated = true ∧ 0 < answers.er_tsk
  starts : answers.er = E_OK

namespace Httpd

/-- The listener with its server socket open. -/
def opened (m_is_started : Bool) : HttpListener :=
  { m_server := { m_socket := { m_context := some () } }, m_is_started }

theorem Stopped.eq {self : Httpd} (h : self.Stopped) : self = {} := by
  obtain ⟨m_is_running, ⟨⟨⟨m_context⟩⟩, m_is_started⟩, ⟨thread⟩⟩ := self
  obtain ⟨hrunning, hclosed, hstarted, hthread⟩ := h
  simp only at hrunning hclosed hstarted hthread
  rw [hrunning, hclosed, hstarted, hthread]

variable (kernel : Kernel) {answers : StartAnswers}

theorem start_not_opened [Itron] (hopen : answers.server.allocated = false ∨ answers.server.granted = false) :
    ∃ r, is_failed r = true ∧ ({} : Httpd).start kernel answers = (r, {}, kernel) := by
  obtain ⟨r, hr, hcreate⟩ := TcpServer.create_not_opened 80 hopen
  refine ⟨r, hr, ?_⟩
  simp [start, HttpListener.create, hcreate, hr]

/-- If `bind` fails the socket stays open. -/
theorem start_not_bound [Itron] (hopen : answers.server.allocated = true ∧ answers.server.granted = true)
    (hbind : answers.server.netconn_bind 80 ≠ ERR_OK) :
    ({} : Httpd).start kernel answers =
      (lwip_err_to_ret (answers.server.netconn_bind 80), { m_http_l := opened false }, kernel) := by
  have hcreate := TcpServer.create_opened 80 hopen.1 hopen.2
  rw [show (80 : Int32).toUInt32.toUInt16 = 80 from rfl] at hcreate
  simp [start, HttpListener.create, hcreate, is_failed_lwip_err_to_ret hbind, opened]

/-- What is left of `start` once the socket is open and bound. -/
theorem start_bound [Itron] (hopen : answers.server.allocated = true ∧ answers.server.granted = true)
    (hbind : answers.server.netconn_bind 80 = ERR_OK) :
    ({} : Httpd).start kernel answers =
      if answers.server.netconn_listen_with_backlog 16 = ERR_OK then
        let (r, m_http_thread, kernel) :=
          ({} : Thread).create kernel answers.allocated answers.er_flg answers.er_tsk
        let self := { m_http_l := opened true, m_http_thread }
        if is_failed r then error_failed_thread_create r self kernel
        else
          let r := self.m_http_thread.start answers.er
          if is_failed r then error_failed_thread_start r self kernel
          else (kOk, { self with m_is_running := true }, kernel)
      else (lwip_err_to_ret (answers.server.netconn_listen_with_backlog 16), {}, kernel) := by
  have hcreate := TcpServer.create_opened 80 hopen.1 hopen.2
  rw [show (80 : Int32).toUInt32.toUInt16 = 80 from rfl, hbind] at hcreate
  have hlisten : ({ m_socket := { m_context := some () } } : TcpServer).start answers.server =
      lwip_err_to_ret (answers.server.netconn_listen_with_backlog 16) := rfl
  by_cases hlistens : answers.server.netconn_listen_with_backlog 16 = ERR_OK
  · rw [if_pos hlistens]
    simp [start, HttpListener.create, hcreate, HttpListener.start, hlisten, hlistens, opened,
      show lwip_err_to_ret ERR_OK = kOk from rfl]
  · rw [if_neg hlistens]
    simp [start, HttpListener.create, hcreate, HttpListener.start, hlisten, is_failed_lwip_err_to_ret hlistens,
      show lwip_err_to_ret ERR_OK = kOk from rfl, error_failed_http_l_start, HttpListener.dispose,
      TcpServer.dispose, Socket.close]

variable {kernel}

/-- A step that fails once the socket is bound is undone, with all those before it. -/
theorem start_undone [Itron] (hopen : answers.server.allocated = true ∧ answers.server.granted = true)
    (hbind : answers.server.netconn_bind 80 = ERR_OK) (hflg : kernel.Answers .flg answers.er_flg)
    (htsk : kernel.Answers .tsk answers.er_tsk) (hfails : ¬ answers.Succeeds) :
    ∃ r, is_failed r = true ∧ ({} : Httpd).start kernel answers = (r, {}, kernel) := by
  rw [start_bound kernel hopen hbind]
  by_cases hlistens : answers.server.netconn_listen_with_backlog 16 = ERR_OK
  · rw [if_pos hlistens]
    by_cases hrefused : answers.allocated = false ∨ answers.er_tsk < 0
    · obtain ⟨r, hr, hcreate⟩ := Thread.create_refused
        (show ({} : Thread).m_context = none from rfl) hflg hrefused
      refine ⟨r, hr, ?_⟩
      simp [hcreate, hr, error_failed_thread_create, error_failed_http_l_start, opened, HttpListener.stop,
        HttpListener.dispose, TcpServer.dispose, Socket.close]
    · obtain ⟨hallocated, hnot⟩ := not_or.mp hrefused
      rw [Bool.not_eq_false] at hallocated
      obtain ⟨hid, hfresh⟩ := htsk.resolve_left hnot
      have her : answers.er ≠ E_OK := fun her => hfails ⟨hopen, hbind, hlistens, ⟨hallocated, hid⟩, her⟩
      have hdispose := Thread.dispose_created hflg hid hfresh
      rw [Thread.create_of_id rfl hid] at hdispose
      refine ⟨kfw_convert_er answers.er, is_failed_convert_er her, ?_⟩
      simp [hallocated, Thread.create_of_id rfl hid, Thread.start, is_failed_convert_er her,
        error_failed_thread_start, hdispose, error_failed_thread_create, error_failed_http_l_start, opened,
        HttpListener.stop, HttpListener.dispose, TcpServer.dispose, Socket.close]
  · rw [if_neg hlistens]
    exact ⟨_, is_failed_lwip_err_to_ret hlistens, rfl⟩

theorem start_succeeds [Itron] (kernel : Kernel) (h : answers.Succeeds) :
    ∃ m_http_thread nextKernel, ({} : Httpd).start kernel answers =
      (kOk, { m_is_running := true, m_http_l := opened true, m_http_thread }, nextKernel) := by
  rw [start_bound kernel h.opens h.binds, if_pos h.listens, h.creates.1, Thread.create_of_id rfl h.creates.2]
  simp [Thread.start, h.starts, kfw_convert_er]

end Httpd

/-- The HTTP service with the kernel its thread runs in. -/
structure HttpService where
  httpd : Httpd
  kernel : Kernel

namespace HttpService

def start [Itron] (state : HttpService) (answers : StartAnswers) : ret_t × HttpService :=
  let (r, httpd, kernel) := state.httpd.start state.kernel answers
  (r, { httpd, kernel })

/-- One more attempt to start the service. -/
def attempt [Itron] (state : HttpService) (answers : StartAnswers) : Exec HttpService := ok (state.start answers).2

/-- The kernel answers the services of an attempt as it can. -/
def Answered (state : HttpService) (answers : StartAnswers) : Prop :=
  state.kernel.Answers .flg answers.er_flg ∧ state.kernel.Answers .tsk answers.er_tsk

/-- An attempt that fails leaves the state as it was, and one whose steps all succeed
returns `kOk` unless the service runs already. -/
def Undoes [Itron] (state : HttpService) (answers : StartAnswers) : Prop :=
  (is_failed (state.start answers).1 = true → (state.start answers).2 = state) ∧
    (state.httpd.m_is_running = false → answers.Succeeds → (state.start answers).1 = kOk)

/-- If the service does not run and the socket can be opened, it can be bound too. -/
def BindsIfOpened (state : HttpService) (answers : StartAnswers) : Prop :=
  state.httpd.m_is_running = false → answers.server.allocated = true → answers.server.granted = true →
    answers.server.netconn_bind 80 = ERR_OK

/-- The service runs, or is stopped altogether. -/
def Settled (state : HttpService) : Prop := state.httpd.m_is_running = true ∨ state.httpd = {}

variable {state next : HttpService} {answers : StartAnswers}

theorem start_running [Itron] (hrunning : state.httpd.m_is_running = true) :
    state.start answers = (kEInvalidOperation, state) := by
  simp [start, Httpd.start, hrunning]

/-- An attempt on a stopped service in which the socket is bound if it is opened. -/
theorem start_stopped [Itron] (hstopped : state.httpd = {}) (hanswered : state.Answered answers)
    (hbinds : state.BindsIfOpened answers) :
    (∃ r, is_failed r = true ∧ ¬ answers.Succeeds ∧ state.start answers = (r, state)) ∨
      ∃ m_http_thread kernel, state.start answers = (kOk,
        { httpd := { m_is_running := true, m_http_l := Httpd.opened true, m_http_thread }, kernel }) := by
  obtain ⟨httpd, kernel⟩ := state
  cases hstopped
  by_cases hopen : answers.server.allocated = true ∧ answers.server.granted = true
  · have hbind := hbinds rfl hopen.1 hopen.2
    by_cases hsucceeds : answers.Succeeds
    · obtain ⟨m_http_thread, nextKernel, hstart⟩ := Httpd.start_succeeds kernel hsucceeds
      exact .inr ⟨m_http_thread, nextKernel, by simp [start, hstart]⟩
    · obtain ⟨r, hr, hstart⟩ := Httpd.start_undone hopen hbind hanswered.1 hanswered.2 hsucceeds
      exact .inl ⟨r, hr, hsucceeds, by simp [start, hstart]⟩
  · have hnot : answers.server.allocated = false ∨ answers.server.granted = false := by
      simpa [imp_iff_not_or] using hopen
    obtain ⟨r, hr, hstart⟩ := Httpd.start_not_opened kernel hnot
    exact .inl ⟨r, hr, fun hsucceeds => hopen hsucceeds.opens, by simp [start, hstart]⟩

theorem undoes_iff [Itron] (hstate : state.Settled) (hanswered : state.Answered answers) :
    state.Undoes answers ↔ state.BindsIfOpened answers := by
  rcases hstate with hrunning | hstopped
  · refine iff_of_true ⟨fun _ => by rw [start_running hrunning], fun hnot => ?_⟩ fun hnot => ?_
    · exact absurd hrunning (by simp [hnot])
    · exact absurd hrunning (by simp [hnot])
  · constructor
    · intro hundoes _ hallocated hgranted
      by_contra hbind
      obtain ⟨httpd, kernel⟩ := state
      cases hstopped
      have hstart := Httpd.start_not_bound kernel ⟨hallocated, hgranted⟩ hbind
      have hsame := hundoes.1 (by simp [start, hstart, is_failed_lwip_err_to_ret hbind])
      simp [start, hstart, Httpd.opened] at hsame
    · intro hbinds
      rcases start_stopped hstopped hanswered hbinds with
        ⟨r, hr, hfails, hstart⟩ | ⟨m_http_thread, kernel, hstart⟩
      · exact ⟨fun _ => by rw [hstart], fun _ hsucceeds => absurd hsucceeds hfails⟩
      · exact ⟨fun hfailed => by simp [hstart] at hfailed, fun _ _ => by rw [hstart]⟩

theorem Settled.attempt [Itron] (hstate : state.Settled) (hanswered : state.Answered answers)
    (hbinds : state.BindsIfOpened answers) (hnext : state.attempt answers = ok next) : next.Settled := by
  cases hnext
  rcases hstate with hrunning | hstopped
  · rw [start_running hrunning]
    exact .inl hrunning
  · rcases start_stopped hstopped hanswered hbinds with
      ⟨r, hr, hfails, hstart⟩ | ⟨m_http_thread, kernel, hstart⟩
    · rw [hstart]
      exact .inr hstopped
    · rw [hstart]
      exact .inl rfl

/-- Failed attempts are undone, and an attempt whose steps all succeed returns `kOk`
after any number of them, exactly if no attempt on the stopped service gets a socket
that it cannot bind. -/
theorem failed_start_undone_iff [Itron] (hstopped : state.httpd.Stopped) (attempts : List StartAnswers)
    (hanswered : Along attempt Answered state attempts) :
    Along attempt Undoes state attempts ↔ Along attempt BindsIfOpened state attempts :=
  Along.iff_of_step Settled (fun _ _ hstate haction => undoes_iff hstate haction)
    (fun _ _ _ hstate haction hbinds hnext => Settled.attempt hstate haction hbinds hnext)
    (.inr hstopped.eq) hanswered

/-- All services succeed but for the two whose answers are given. -/
def answering (bind_err listen_err : Int) : StartAnswers where
  server := ⟨true, true, fun _ => bind_err, fun _ => listen_err⟩
  allocated := true
  er_flg := 1
  er_tsk := 1
  er := E_OK

theorem answering_answered (bind_err listen_err : Int) : Answered ⟨{}, {}⟩ (answering bind_err listen_err) := by
  simp [Answered, answering, Kernel.Answers]

/-- After an attempt that cannot listen, the next one succeeds. -/
theorem failed_listen_undone :
    Along attempt Undoes ⟨{}, {}⟩ [answering ERR_OK (-8), answering ERR_OK ERR_OK] :=
  (failed_start_undone_iff ⟨rfl, rfl, rfl, rfl⟩ [answering ERR_OK (-8), answering ERR_OK ERR_OK]
      ⟨answering_answered _ _, fun next hnext => by
        cases hnext
        exact ⟨answering_answered ERR_OK ERR_OK, fun _ _ => trivial⟩⟩).mpr
    ⟨fun _ _ _ => rfl, fun _ _ => ⟨fun _ _ _ => rfl, fun _ _ => trivial⟩⟩

/-- After an attempt that cannot bind, the socket stays open, and an attempt whose
steps would all succeed cannot open it. -/
theorem failed_bind_not_undone :
    ∃ state, attempt ⟨{}, {}⟩ (answering (-8) ERR_OK) = ok state ∧
      state.httpd.m_http_l.m_server.m_socket.m_context = some () ∧
      (state.start (answering ERR_OK ERR_OK)).1 = kEInvalidOperation :=
  ⟨⟨{ m_http_l := Httpd.opened false }, {}⟩, rfl, rfl, rfl⟩

end HttpService

inductive HttpdCall where
  | start (answers : StartAnswers)
  | stop
  | restart (answers : StartAnswers)

namespace HttpService

def step [Itron] (state : HttpService) : HttpdCall → Exec HttpService
  | .start answers => ok (state.start answers).2
  | .stop => ok { state with httpd := state.httpd.stop }
  | .restart answers =>
    let (httpd, kernel) := state.httpd.restart state.kernel answers
    ok { httpd, kernel }

/-- Every socket and thread operation of the call succeeds. -/
def Succeeds (_state : HttpService) : HttpdCall → Prop
  | .start answers => answers.Succeeds
  | .stop => True
  | .restart answers => answers.Succeeds

/-- The service counts as running exactly while its listener is started. -/
def Agrees (state : HttpService) : Prop := state.httpd.m_is_running = state.httpd.m_http_l.m_is_started

variable {σ : Type} (allocator : Allocator) (conn : io.Stream σ) (heap : Heap) (accepted : Int × σ) (buf : UInt8)
  (fuel : Nat)

/-- The listener is started and does not refuse its clients. -/
def Serving (state : HttpService) : Prop :=
  state.httpd.m_http_l.m_is_started = true ∧ ¬ state.httpd.m_http_l.Refuses allocator conn heap accepted buf fuel

/-- After a `start` or a `restart` the service serves. -/
def Serves [Itron] (state : HttpService) : HttpdCall → Prop
  | .stop => True
  | call => ∀ next, state.step call = ok next → next.Serving allocator conn heap accepted buf fuel

/-- Neither `stop` nor `restart` is called while the service runs. -/
def NotStopped (state : HttpService) : HttpdCall → Prop
  | .start _ => True
  | _ => state.httpd.m_is_running = false

/-- The service runs with its listener started. -/
structure Up (state : HttpService) : Prop where
  running : state.httpd.m_is_running = true
  listener : state.httpd.m_http_l = Httpd.opened true

theorem Up.serving {state : HttpService} (h : state.Up) :
    state.Serving allocator conn heap accepted buf fuel := by
  have hstarted : state.httpd.m_http_l.m_is_started = true := by rw [h.listener, Httpd.opened]
  exact ⟨hstarted, fun hrefuses => by simp [HttpListener.refuses_iff.mp hrefuses] at hstarted⟩

variable {state next : HttpService} {answers : StartAnswers} {call : HttpdCall}

theorem agrees_of_up_or_stopped (h : state.Up ∨ state.httpd = {}) : state.Agrees := by
  rcases h with hup | hstopped
  · rw [Agrees, hup.running, hup.listener, Httpd.opened]
  · rw [Agrees, hstopped]

/-- A `start` whose steps all succeed brings the service up, or leaves it up. -/
theorem up_start [Itron] (h : state.Up ∨ state.httpd = {}) (hsucceeds : answers.Succeeds) :
    (state.start answers).2.Up := by
  rcases h with hup | hstopped
  · rwa [start_running hup.running]
  · obtain ⟨httpd, kernel⟩ := state
    cases hstopped
    obtain ⟨m_http_thread, nextKernel, hstart⟩ := Httpd.start_succeeds kernel hsucceeds
    simp only [start, hstart]
    exact ⟨rfl, rfl⟩

theorem step_stop [Itron] (hnot : state.httpd.m_is_running = false) : state.step .stop = ok state := by
  simp [step, Httpd.stop, hnot]

theorem step_restart [Itron] (hnot : state.httpd.m_is_running = false) (answers : StartAnswers) :
    state.step (.restart answers) = ok (state.start answers).2 := by
  simp [step, Httpd.restart, Httpd.stop, hnot, start]

/-- A call that does not stop a running service serves, if it should, and leaves the
service up or stopped. -/
theorem step_not_stopped [Itron] (h : state.Up ∨ state.httpd = {}) (hsucceeds : state.Succeeds call)
    (hcall : state.NotStopped call) :
    state.Serves allocator conn heap accepted buf fuel call ∧
      ∀ next, state.step call = ok next → next.Up ∨ next.httpd = {} := by
  -- what is left to show once a `start` brought the service up
  have hbrought : ∀ answers next, (state.start answers).2.Up → ok (state.start answers).2 = (ok next : Exec _) →
      next.Serving allocator conn heap accepted buf fuel ∧ (next.Up ∨ next.httpd = {}) := by
    intro answers next hup hnext
    cases hnext
    exact ⟨hup.serving .., .inl hup⟩
  cases call with
  | start answers =>
    have hup := up_start h hsucceeds
    exact ⟨fun next hnext => (hbrought answers next hup hnext).1,
      fun next hnext => (hbrought answers next hup hnext).2⟩
  | stop =>
    refine ⟨trivial, fun next hnext => ?_⟩
    rw [step_stop hcall] at hnext
    cases hnext
    exact h
  | restart answers =>
    have hup := up_start h hsucceeds
    have hsame := step_restart hcall answers
    exact ⟨fun next hnext => (hbrought answers next hup (hsame.symm.trans hnext)).1,
      fun next hnext => (hbrought answers next hup (hsame.symm.trans hnext)).2⟩

/-- Stopping a service that runs stops its listener only, which a `restart` cannot
start again. -/
theorem step_stopped [Itron] (hup : state.Up) (hcall : ¬ state.NotStopped call) :
    ∃ next, state.step call = ok next ∧ ¬ next.Agrees := by
  have hrunning := hup.running
  have hstopped : state.httpd.stop = { state.httpd with m_http_l := Httpd.opened false } := by
    simp [Httpd.stop, hrunning, hup.listener, HttpListener.stop, Httpd.opened]
  have hdisagrees : ¬ Agrees { state with httpd := { state.httpd with m_http_l := Httpd.opened false } } := by
    simp [Agrees, hrunning, Httpd.opened]
  cases call with
  | start answers => exact absurd trivial hcall
  | stop => exact ⟨_, rfl, by rwa [hstopped]⟩
  | restart answers =>
    refine ⟨{ state with httpd := { state.httpd with m_http_l := Httpd.opened false } }, ?_, hdisagrees⟩
    simp [step, Httpd.restart, hstopped, Httpd.start, hrunning]

/-- The running flag agrees with the listener, and every `start` and `restart` leaves
the listener started, exactly in the runs that never stop or restart a service that
is running. -/
theorem lifecycle_iff [Itron] (kernel : Kernel) (calls : List HttpdCall)
    (hsucceeds : Along step Succeeds ⟨{}, kernel⟩ calls) :
    Always step Agrees ⟨{}, kernel⟩ calls ∧
        Along step (Serves allocator conn heap accepted buf fuel) ⟨{}, kernel⟩ calls ↔
      Along step NotStopped ⟨{}, kernel⟩ calls := by
  rw [always_iff_along, and_iff_right (agrees_of_up_or_stopped (.inr rfl)), ← along_and]
  refine Along.iff_of_step (fun state => state.Up ∨ state.httpd = {}) ?_ ?_ (.inr rfl) hsucceeds
  · intro state call hstate hcall
    constructor
    · intro hholds
      by_contra hstops
      have hup : state.Up := hstate.resolve_right fun hstopped => hstops (by
        cases call <;> simp [NotStopped, hstopped])
      obtain ⟨next, hnext, hdisagrees⟩ := step_stopped hup hstops
      exact hdisagrees (hholds.1 next hnext)
    · intro hkeeps
      obtain ⟨hserves, hnexts⟩ := step_not_stopped allocator conn heap accepted buf fuel hstate hcall hkeeps
      exact ⟨fun next hnext => agrees_of_up_or_stopped (hnexts next hnext), hserves⟩
  · intro state call next hstate hcall hkeeps hnext
    exact (step_not_stopped allocator conn heap accepted buf fuel hstate hcall hkeeps).2 next hnext

/-- A service that is started, and started again while it runs. -/
theorem lifecycle_started_twice :
    Always step Agrees ⟨{}, {}⟩ [.start (answering ERR_OK ERR_OK), .start (answering ERR_OK ERR_OK)] :=
  ((lifecycle_iff ⟨fun _ _ => none, by simp, by simp⟩ ⟨fun _ _ => div, fun _ _ => div, fun _ => div⟩
      ⟨fun _ => none, 0, 0, rfl, by simp⟩ (0, ()) 0 0 {}
      [.start (answering ERR_OK ERR_OK), .start (answering ERR_OK ERR_OK)]
      ⟨⟨⟨rfl, rfl⟩, rfl, rfl, ⟨rfl, by decide⟩, rfl⟩, fun _ _ =>
        ⟨⟨⟨rfl, rfl⟩, rfl, rfl, ⟨rfl, by decide⟩, rfl⟩, fun _ _ => trivial⟩⟩).mpr
    ⟨trivial, fun _ _ => ⟨trivial, fun _ _ => trivial⟩⟩).1

/-- A running service that is restarted keeps its running flag and has its listener
stopped. -/
theorem restart_stops_listener :
    ∃ state,
      steps step ⟨{}, {}⟩ [.start (answering ERR_OK ERR_OK), .restart (answering ERR_OK ERR_OK)] = ok state ∧
      state.httpd.m_is_running = true ∧ state.httpd.m_http_l.m_is_started = false :=
  ⟨_, rfl, rfl, rfl⟩

end HttpService

end kfw.app
