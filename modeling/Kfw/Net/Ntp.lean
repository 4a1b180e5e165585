import Kfw.Net.Receive.Datagrams

open exec Result

namespace kfw.net

def kNtpUtcOffset : UInt32 := 2208988800

/-- The four bytes at an index of the receive buffer, the highest first. -/
def be_word (recv_data : Fin 48 → UInt8) (i : Fin 45) : UInt32 :=
  let byte (k : Fin 4) : UInt32 := (recv_data ⟨i + k, by omega⟩).toUInt32
  byte 0 <<< 24 ||| byte 1 <<< 16 ||| byte 2 <<< 8 ||| byte 3

/-- The value of these four bytes. -/
def be_value (recv_data : Fin 48 → UInt8) (i : Fin 45) : Nat :=
  let byte (k : Fin 4) : Nat := (recv_data ⟨i + k, by omega⟩).toNat
  byte 0 * 2 ^ 24 + byte 1 * 2 ^ 16 + byte 2 * 2 ^ 8 + byte 3

/-- A timestamp of a server in milliseconds since 1970. -/
def srv_tm (sec frac : UInt32) : Int :=
  ((sec.toNat : Int) - kNtpUtcOffset.toNat) * 1000 + (frac.toNat * 1000 / 2 ^ 32 : Nat)

/-- The offset of the local clock that a reply in the receive buffer gives. -/
def reply_offset (recv_data : Fin 48 → UInt8) (cli_send_tm cli_recv_tm : Int) : Int :=
  let srv_recv_tm := srv_tm (be_word recv_data 32) (be_word recv_data 36)
  let srv_send_tm := srv_tm (be_word recv_data 40) (be_word recv_data 44)
  (srv_recv_tm - cli_send_tm).tdiv 2 - (cli_recv_tm - srv_send_tm).tdiv 2

/-- Seconds and fraction of the time at which the server received the request. -/
def srv_recv_tm_words (recv_data : Fin 48 → UInt8) : UInt32 × UInt32 := (be_word recv_data 32, be_word recv_data 36)

/-- Seconds and fraction of the time at which the server sent the reply. -/
def srv_send_tm_words (recv_data : Fin 48 → UInt8) : UInt32 × UInt32 := (be_word recv_data 40, be_word recv_data 44)

/-- The receive buffer after `recv` put data in it. -/
def received (recv_data : Fin 48 → UInt8) (data : List UInt8) : Fin 48 → UInt8 :=
  fun i => data[i.val]?.getD (recv_data i)

/-- What `do_sync` finds: the results of the calls it makes, the client as it is
created, and the local times it reads. -/
structure NtpEnv where
  get_host_by_name : ret_t := kOk
  create : ret_t := kOk
  client : UdpClient
  cli_send_tm : Nat → Int
  send : Nat → ret_t
  cli_recv_tm : Nat → Int
  now : Int

/-- A reply with the local times before it was asked for and after it came. -/
structure Sample where
  cli_send_tm : Int
  reply : List UInt8
  cli_recv_tm : Int
  deriving DecidableEq

/-- Where the loop of `do_sync` stands, with the samples behind its offsets. -/
structure Syncing where
  pass : Nat := 0
  client : UdpClient
  recv_data : Fin 48 → UInt8
  ok_cnt : Nat := 0
  error_cnt : Nat := 0
  offsets : List Int := []
  samples : List Sample := []

/-- How `do_sync` ends: its return code, what it passed to `Rtc::sync` if it
called it, and the samples that were used. -/
structure SyncResult where
  ret : ret_t
  sync : Option Int := none
  samples : List Sample := []
  deriving DecidableEq

/-- A failed call in a pass. -/
def Syncing.failed (syncing : Syncing) (r : ret_t) : Flow Syncing SyncResult :=
  let error_cnt := syncing.error_cnt + 1
  if error_cnt ≥ 3 then .done { ret := r }
  else .cont { syncing with pass := syncing.pass + 1, error_cnt }

theorem Syncing.failed_cases (syncing : Syncing) (r : ret_t) :
    syncing.failed r = .done { ret := r } ∨
      syncing.failed r = .cont { syncing with pass := syncing.pass + 1, error_cnt := syncing.error_cnt + 1 } := by
  by_cases hlast : syncing.error_cnt + 1 ≥ 3
  · exact .inl (by simp only [failed, if_pos hlast])
  · exact .inr (by simp only [failed, if_neg hlast])

def offset_avg (offsets : List Int) : Int := (offsets.map (Int.tdiv · 4)).sum

namespace NtpEnv

/-- One pass through the loop of `do_sync`. -/
def sync_pass (env : NtpEnv) (syncing : Syncing) : Exec (Flow Syncing SyncResult) :=
  let cli_send_tm := env.cli_send_tm syncing.pass
  let r := env.send syncing.pass
  if is_failed r then ok (syncing.failed r)
  else do
    let (rr, data, _, client) ← syncing.client.recv 48 {} 2
    let recv_data := received syncing.recv_data data
    if is_failed rr.ret then ok ({ syncing with client, recv_data }.failed rr.ret)
    else
      let cli_recv_tm := env.cli_recv_tm syncing.pass
      let offsets := syncing.offsets ++ [reply_offset recv_data cli_send_tm cli_recv_tm]
      let samples := syncing.samples ++ [{ cli_send_tm, reply := data, cli_recv_tm }]
      let ok_cnt := syncing.ok_cnt + 1
      if ok_cnt ≥ 4 then ok (.done { ret := kOk, sync := some (env.now + offset_avg offsets), samples })
      else ok (.cont {
        pass := syncing.pass + 1
        client
        recv_data
        ok_cnt
        error_cnt := syncing.error_cnt
        offsets
        samples })

/-- `do_sync`, with what is in its receive buffer at first. -/
def do_sync (env : NtpEnv) (recv_data : Fin 48 → UInt8) (fuel : Nat) : Exec SyncResult :=
  if is_failed env.get_host_by_name then ok { ret := env.get_host_by_name }
  else if is_failed env.create then ok { ret := env.create }
  else loop env.sync_pass fuel { client := env.client, recv_data }

end NtpEnv

/-- A reply of at least 48 bytes, received and sent by the server in 1970 or
later. -/
def Genuine (reply : List UInt8) : Prop :=
  48 ≤ reply.length ∧ kNtpUtcOffset ≤ be_word (received (fun _ => 0) reply) 32 ∧
    kNtpUtcOffset ≤ be_word (received (fun _ => 0) reply) 40

/-- The offset that a sample gives, from its bytes and local times only. -/
def Sample.offset (sample : Sample) : Int :=
  reply_offset (received (fun _ => 0) sample.reply) sample.cli_send_tm sample.cli_recv_tm

/-- A pass counted as an error and did nothing else. -/
def Syncing.CountsAsError (syncing : Syncing) : Flow Syncing SyncResult → Prop
  | .cont next => next.ok_cnt = syncing.ok_cnt ∧ next.offsets = syncing.offsets ∧
      next.error_cnt = syncing.error_cnt + 1
  | .done result => result.sync = none ∧ 3 ≤ syncing.error_cnt + 1

/-- The offsets so far are those of the samples, all of them genuine. -/
structure Syncing.Sampled (syncing : Syncing) : Prop where
  offsets : syncing.offsets = syncing.samples.map Sample.offset
  ok_cnt : syncing.ok_cnt = syncing.samples.length
  few : syncing.ok_cnt < 4
  genuine : ∀ sample ∈ syncing.samples, Genuine sample.reply

namespace NtpEnv

variable (env : NtpEnv) (recv_data : Fin 48 → UInt8)

/-- The states in which `do_sync` starts a pass. -/
def Reaches (syncing : Syncing) : Prop :=
  is_failed env.get_host_by_name = false ∧ is_failed env.create = false ∧
    Passes env.sync_pass { client := env.client, recv_data } syncing

/-- What is received in a pass. -/
def Receives (syncing : Syncing) (reply : List UInt8) : Prop :=
  is_failed (env.send syncing.pass) = false ∧ ∃ rr remote client,
    syncing.client.recv 48 {} 2 = ok (rr, reply, remote, client) ∧ is_failed rr.ret = false

/-- The clock is set only from four genuine samples, and to a value that they
determine; every other reply counts as an error. -/
structure SetsFromGenuine : Prop where
  sync : ∀ fuel result time, env.do_sync recv_data fuel = ok result → result.sync = some time →
    result.samples.length = 4 ∧ (∀ sample ∈ result.samples, Genuine sample.reply) ∧
      time = env.now + offset_avg (result.samples.map Sample.offset)
  errors : ∀ syncing reply, env.Reaches recv_data syncing → env.Receives syncing reply → ¬ Genuine reply →
    ∃ flow, env.sync_pass syncing = ok flow ∧ syncing.CountsAsError flow

variable {env recv_data} {syncing : Syncing} {reply : List UInt8}

/-- A reply of 48 bytes or more fills the receive buffer. -/
theorem received_of_length (hlength : 48 ≤ reply.length) (recv_data other : Fin 48 → UInt8) :
    received recv_data reply = received other reply := by
  funext i
  have hi : i.val < reply.length := Nat.lt_of_lt_of_le i.isLt hlength
  simp [received, hi]

/-- The sample that a pass takes from a reply. -/
def sample (env : NtpEnv) (syncing : Syncing) (reply : List UInt8) : Sample where
  cli_send_tm := env.cli_send_tm syncing.pass
  reply
  cli_recv_tm := env.cli_recv_tm syncing.pass

/-- A pass that receives a reply uses it, whatever it is. -/
theorem Receives.sync_pass (h : env.Receives syncing reply) :
    ∃ client offset, offset = reply_offset (received syncing.recv_data reply) (env.cli_send_tm syncing.pass)
        (env.cli_recv_tm syncing.pass) ∧
      env.sync_pass syncing = ok (if syncing.ok_cnt + 1 ≥ 4 then .done {
          ret := kOk
          sync := some (env.now + offset_avg (syncing.offsets ++ [offset]))
          samples := syncing.samples ++ [env.sample syncing reply] }
        else .cont {
          pass := syncing.pass + 1
          client
          recv_data := received syncing.recv_data reply
          ok_cnt := syncing.ok_cnt + 1
          error_cnt := syncing.error_cnt
          offsets := syncing.offsets ++ [offset]
          samples := syncing.samples ++ [env.sample syncing reply] }) := by
  obtain ⟨hsend, rr, remote, client, hrecv, hrr⟩ := h
  refine ⟨client, _, rfl, ?_⟩
  simp only [NtpEnv.sync_pass, hsend, Bool.false_eq_true, if_false, hrecv, hrr, bind_ok, sample]
  split <;> rfl

/-- A pass either receives a reply or fails. -/
theorem sync_pass_cases {flow : Flow Syncing SyncResult} (hpass : env.sync_pass syncing = ok flow) :
    (∃ reply, env.Receives syncing reply) ∨
      ∃ client recv_data r, flow = ({ syncing with client, recv_data } : Syncing).failed r := by
  by_cases hsend : is_failed (env.send syncing.pass) = true
  · right
    simp only [NtpEnv.sync_pass, hsend, if_true, ok.injEq] at hpass
    exact ⟨syncing.client, syncing.recv_data, _, hpass.symm⟩
  · rw [Bool.not_eq_true] at hsend
    simp only [NtpEnv.sync_pass, hsend, Bool.false_eq_true, if_false] at hpass
    obtain ⟨⟨rr, data, remote, client⟩, hrecv, hrest⟩ := bind_eq_ok_iff.mp hpass
    by_cases hrr : is_failed rr.ret = true
    · right
      simp only [hrr, if_true, ok.injEq] at hrest
      exact ⟨_, _, _, hrest.symm⟩
    · rw [Bool.not_eq_true] at hrr
      exact .inl ⟨data, hsend, rr, remote, client, hrecv, hrr⟩

/-- The offset that a pass takes from a reply. -/
def taken_offset (env : NtpEnv) (syncing : Syncing) (reply : List UInt8) : Int :=
  reply_offset (received syncing.recv_data reply) (env.cli_send_tm syncing.pass) (env.cli_recv_tm syncing.pass)

/-- A pass after which the loop goes on has taken one reply more, which was not the fourth,
or has failed and left the offsets as they were. -/
theorem sync_pass_cont {next : Syncing} (hpass : env.sync_pass syncing = ok (.cont next)) :
    (∃ reply, env.Receives syncing reply ∧ syncing.ok_cnt + 1 < 4 ∧ next.ok_cnt = syncing.ok_cnt + 1 ∧
      next.offsets = syncing.offsets ++ [env.taken_offset syncing reply] ∧
      next.samples = syncing.samples ++ [env.sample syncing reply]) ∨
    next.ok_cnt = syncing.ok_cnt ∧ next.offsets = syncing.offsets ∧ next.samples = syncing.samples := by
  rcases sync_pass_cases hpass with ⟨reply, hreceives⟩ | ⟨client, recv_data, r, hfailed⟩
  · obtain ⟨client, offset, rfl, hreply⟩ := hreceives.sync_pass
    by_cases hlast : syncing.ok_cnt + 1 ≥ 4
    · rw [if_pos hlast] at hreply
      cases hreply.symm.trans hpass
    · rw [if_neg hlast] at hreply
      cases hreply.symm.trans hpass
      exact .inl ⟨reply, hreceives, Nat.lt_of_not_ge hlast, rfl, rfl, rfl⟩
  · rcases Syncing.failed_cases { syncing with client, recv_data } r with hdone | hcont
    · cases hfailed.trans hdone
    · cases hfailed.trans hcont
      exact .inr ⟨rfl, rfl, rfl⟩

/-- A pass that sets the clock has taken the fourth reply. -/
theorem sync_pass_done {result : SyncResult} {time : Int} (hpass : env.sync_pass syncing = ok (.done result))
    (hsync : result.sync = some time) :
    ∃ reply, env.Receives syncing reply ∧ 4 ≤ syncing.ok_cnt + 1 ∧
      result.samples = syncing.samples ++ [env.sample syncing reply] ∧
      time = env.now + offset_avg (syncing.offsets ++ [env.taken_offset syncing reply]) := by
  rcases sync_pass_cases hpass with ⟨reply, hreceives⟩ | ⟨client, recv_data, r, hfailed⟩
  · obtain ⟨client, offset, rfl, hreply⟩ := hreceives.sync_pass
    by_cases hlast : syncing.ok_cnt + 1 ≥ 4
    · rw [if_pos hlast] at hreply
      cases hreply.symm.trans hpass
      exact ⟨reply, hreceives, hlast, rfl, (Option.some.inj hsync).symm⟩
    · rw [if_neg hlast] at hreply
      cases hreply.symm.trans hpass
  · rcases Syncing.failed_cases { syncing with client, recv_data } r with hdone | hcont
    · cases hfailed.trans hdone
      cases hsync
    · cases hfailed.trans hcont

/-- The offset of a genuine reply does not depend on what was in the buffer. -/
theorem sample_offset (hgenuine : Genuine reply) :
    env.taken_offset syncing reply = (env.sample syncing reply).offset := by
  rw [taken_offset, received_of_length hgenuine.1 syncing.recv_data fun _ => 0]
  rfl

theorem genuine_append (hsampled : syncing.Sampled) (hgenuine : Genuine reply) :
    ∀ sample ∈ syncing.samples ++ [env.sample syncing reply], Genuine sample.reply := by
  rw [List.forall_mem_append, List.forall_mem_singleton]
  exact ⟨hsampled.genuine, hgenuine⟩

/-- With genuine replies only, a pass keeps the samples in order. -/
theorem sampled_pass (hsampled : syncing.Sampled) (hgenuine : ∀ reply, env.Receives syncing reply → Genuine reply)
    {next : Syncing} (hpass : env.sync_pass syncing = ok (.cont next)) : next.Sampled := by
  rcases sync_pass_cont hpass with ⟨reply, hreceives, hfew, hcount, hoffsets, hsamples⟩ | ⟨hcount, hoffsets, hsamples⟩
  · have hreply := hgenuine reply hreceives
    refine ⟨?_, ?_, hcount ▸ hfew, hsamples ▸ genuine_append hsampled hreply⟩
    · rw [hoffsets, hsamples, hsampled.offsets, sample_offset hreply, List.map_append, List.map_singleton]
    · rw [hcount, hsamples, hsampled.ok_cnt, List.length_append, List.length_singleton]
  · refine ⟨?_, ?_, ?_, ?_⟩
    · rw [hoffsets, hsamples, hsampled.offsets]
    · rw [hcount, hsamples, hsampled.ok_cnt]
    · rw [hcount]
      exact hsampled.few
    · rw [hsamples]
      exact hsampled.genuine

/-- With genuine replies only, the pass that sets the clock does so from four of
them. -/
theorem sampled_last (hsampled : syncing.Sampled) (hgenuine : ∀ reply, env.Receives syncing reply → Genuine reply)
    {result : SyncResult} {time : Int} (hpass : env.sync_pass syncing = ok (.done result))
    (hsync : result.sync = some time) :
    result.samples.length = 4 ∧ (∀ sample ∈ result.samples, Genuine sample.reply) ∧
      time = env.now + offset_avg (result.samples.map Sample.offset) := by
  obtain ⟨reply, hreceives, hlast, hsamples, htime⟩ := sync_pass_done hpass hsync
  have hreply := hgenuine reply hreceives
  have hcount := hsampled.ok_cnt
  have hfew := hsampled.few
  rw [hsamples]
  refine ⟨?_, genuine_append hsampled hreply, ?_⟩
  · rw [List.length_append, List.length_singleton]
    omega
  · rw [htime, hsampled.offsets, sample_offset hreply, List.map_append, List.map_singleton]

/-- A reply that counts as an error is none of those the code takes. -/
theorem Receives.not_countsAsError (h : env.Receives syncing reply) {flow : Flow Syncing SyncResult}
    (hpass : env.sync_pass syncing = ok flow) : ¬ syncing.CountsAsError flow := by
  obtain ⟨client, offset, _, hreply⟩ := h.sync_pass
  cases hreply.symm.trans hpass
  split
  · simp [Syncing.CountsAsError]
  · simp [Syncing.CountsAsError]

end NtpEnv

/-- Whatever is received, and whatever the receive buffer held before, the clock
is set from genuine replies only, and other replies count as errors, exactly if
every reply received in the run is genuine. -/
theorem do_sync_genuine_iff (env : NtpEnv) (recv_data : Fin 48 → UInt8) :
    env.SetsFromGenuine recv_data ↔
      ∀ syncing reply, env.Reaches recv_data syncing → env.Receives syncing reply → Genuine reply := by
  constructor
  · intro hsets syncing reply hreaches hreceives
    by_contra hnot
    obtain ⟨flow, hpass, herror⟩ := hsets.errors syncing reply hreaches hreceives hnot
    exact hreceives.not_countsAsError hpass herror
  · intro hgenuine
    refine ⟨?_, fun syncing reply hreaches hreceives hnot => absurd (hgenuine _ _ hreaches hreceives) hnot⟩
    intro fuel result time hrun hsync
    unfold NtpEnv.do_sync at hrun
    split at hrun
    · cases hrun
      cases hsync
    · split at hrun
      · cases hrun
        cases hsync
      · rename_i hhost hcreate
        rw [Bool.not_eq_true] at hhost hcreate
        have hsampled : ∀ syncing, Passes env.sync_pass { client := env.client, recv_data } syncing →
            syncing.Sampled := by
          intro syncing hpasses
          induction hpasses with
          | start => exact ⟨rfl, rfl, Nat.succ_pos 3, by simp⟩
          | next hstate hpass ih =>
            exact NtpEnv.sampled_pass ih (fun reply => hgenuine _ reply ⟨hhost, hcreate, hstate⟩) hpass
        obtain ⟨last, hlast, hdone⟩ := loop_last .start hrun
        exact NtpEnv.sampled_last (hsampled last hlast)
          (fun reply => hgenuine last reply ⟨hhost, hcreate, hlast⟩) hdone hsync

/-- A reply of one byte. -/
def one_byte : NetBuf where
  p := [⟨[0xE4], by decide⟩]
  ptr := [⟨[0xE4], by decide⟩]

/-- Four replies of one byte each set the clock to what the receive buffer held. -/
theorem do_sync_from_garbage :
    ¬ NtpEnv.SetsFromGenuine {
        client := { m_socket := { m_context := some { m_handle := List.replicate 4 (.received one_byte) } } }
        cli_send_tm := fun _ => 0
        send := fun _ => kOk
        cli_recv_tm := fun _ => 0
        now := 0 } fun _ => 0xFF := by
  intro hsets
  have hrun : NtpEnv.do_sync {
      client := { m_socket := { m_context := some { m_handle := List.replicate 4 (.received one_byte) } } }
      cli_send_tm := fun _ => 0
      send := fun _ => kOk
      cli_recv_tm := fun _ => 0
      now := 0 } (fun _ => 0xFF) 4 = ok {
        ret := kOk
        sync := some 2085978495996
        samples := List.replicate 4 { cli_send_tm := 0, reply := [0xE4], cli_recv_tm := 0 } } := by
    decide +kernel
  obtain ⟨_, hgenuine, _⟩ := hsets.sync 4 _ _ hrun rfl
  have hlength := (hgenuine _ (List.mem_replicate.mpr ⟨by decide, rfl⟩)).1
  simp at hlength

end kfw.net
