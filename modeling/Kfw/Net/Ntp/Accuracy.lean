import Kfw.Lib.MachineInt
import Kfw.Net.Ntp.Timestamp

open exec Result machine IntType

namespace kfw.net

/-- What an offset is computed from: the local times and the receive buffer. -/
structure Exchange where
  cli_send_tm : Int
  recv_data : Fin 48 → UInt8
  cli_recv_tm : Int

/-- `srv_tm` as it is computed, in integers of 32 and 64 bits. -/
def srv_tm_num (sec frac : UInt32) : Num int64 :=
  let msec : Num uint32 := (Num.of uint64 frac.toNat * 1000 / 4294967296).cast uint32
  (Num.of int64 sec.toNat - Num.of int64 kNtpUtcOffset.toNat) * 1000 + msec.cast int64

namespace Exchange

def offset (exchange : Exchange) : Int :=
  reply_offset exchange.recv_data exchange.cli_send_tm exchange.cli_recv_tm

/-- The offset without a rounding. -/
def exact_offset (exchange : Exchange) : ℚ :=
  (((srv_recv_tm exchange.recv_data - exchange.cli_send_tm : Int) : ℚ) +
    (srv_send_tm exchange.recv_data - exchange.cli_recv_tm : Int)) / 2

/-- The offset as it is computed, in integers of 64 bits. -/
def offset_num (exchange : Exchange) : Num int64 :=
  let (sec, frac) := srv_recv_tm_words exchange.recv_data
  let srv_recv_tm := srv_tm_num sec frac
  let (sec, frac) := srv_send_tm_words exchange.recv_data
  let srv_send_tm := srv_tm_num sec frac
  (srv_recv_tm - Num.of int64 exchange.cli_send_tm) / 2 - (Num.of int64 exchange.cli_recv_tm - srv_send_tm) / 2

/-- The local times are below 2^60. -/
def InTime (exchange : Exchange) : Prop := |exchange.cli_send_tm| < 2 ^ 60 ∧ |exchange.cli_recv_tm| < 2 ^ 60

/-- The server's clock is ahead by `ahead`, and request and reply took the same time. -/
def Symmetric (exchange : Exchange) (ahead : Int) : Prop :=
  ∃ delay, srv_recv_tm exchange.recv_data = exchange.cli_send_tm + delay + ahead ∧
    exchange.cli_recv_tm = srv_send_tm exchange.recv_data - ahead + delay

end Exchange

/-- The average of four offsets as it is computed. -/
def offset_avg_num (offset0 offset1 offset2 offset3 : Num int64) : Num int64 :=
  offset0 / 4 + offset1 / 4 + offset2 / 4 + offset3 / 4

/-- The correction of the clock from four exchanges. -/
def correction (exchanges : Fin 4 → Exchange) : Int := offset_avg (List.ofFn fun i => (exchanges i).offset)

theorem srv_tm_bounds (sec frac : UInt32) : -2208988800000 ≤ srv_tm sec frac ∧ srv_tm sec frac < 2085978496000 := by
  have hsec := sec.toNat_lt
  have hfrac := frac.toNat_lt
  have hmsec : frac.toNat * 1000 / 2 ^ 32 < 1000 := by omega
  change _ ≤ ((sec.toNat : Int) - (2208988800 : Nat)) * 1000 + (frac.toNat * 1000 / 2 ^ 32 : Nat) ∧
    ((sec.toNat : Int) - (2208988800 : Nat)) * 1000 + (frac.toNat * 1000 / 2 ^ 32 : Nat) < _
  generalize frac.toNat * 1000 / 2 ^ 32 = msec at *
  omega

/-- Decoding a time stamp stays in range. -/
theorem srv_tm_num_exact (sec frac : UInt32) : (srv_tm_num sec frac).Exact (srv_tm sec frac) := by
  have hsec := sec.toNat_lt
  have hfrac := frac.toNat_lt
  have hoffset : kNtpUtcOffset.toNat = 2208988800 := rfl
  obtain ⟨hlow, hhigh⟩ := srv_tm_bounds sec frac
  have hlt : frac.toNat * 1000 / 4294967296 < 1000 := by omega
  have hfracNum : (Num.of uint64 frac.toNat).Is frac.toNat true := Num.is_of_fits rfl (uint64_fits (by omega))
  have hscaled := hfracNum.mul (Num.is_ofNat 1000 (uint64_fits (by omega))) (uint64_fits (by omega))
  have hmsec := hscaled.div (Num.is_ofNat 4294967296 (uint64_fits (by omega))) (uint64_fits (by omega))
  have hmsec64 := (hmsec.cast (uint32_fits (by omega))).cast (int64_fits (by omega))
  have hsecNum : (Num.of int64 sec.toNat).Exact sec.toNat := Num.exact_of (int64_fits (by omega))
  have hsince := hsecNum.sub (Num.exact_of (int64_fits (by omega : kNtpUtcOffset.toNat < _)))
    (int64_fits_of_bounds (by omega) (by omega))
  have hthousand := hsince.mul (Num.exact_ofNat 1000 (int64_fits (by omega)))
    (int64_fits_of_bounds (by omega) (by omega))
  exact hthousand.add hmsec64.exact (int64_fits_of_bounds (by omega) (by omega))

/-- Half of the difference of two times below 2^60. -/
theorem half_sub_exact {a b : Num int64} {x y : Int} (ha : a.Exact x) (hb : b.Exact y) (hx : |x| ≤ 2 ^ 60)
    (hy : |y| ≤ 2 ^ 60) : ((a - b) / 2).Exact ((x - y).tdiv 2) ∧ |(x - y).tdiv 2| ≤ 2 ^ 60 := by
  have hhalf := abs_mul_tdiv_sub_lt (x - y) (by decide : (0 : Int) < 2)
  rw [abs_le] at hx hy ⊢
  rw [abs_lt] at hhalf
  have hsub := ha.sub hb (int64_fits_of_bounds (by omega) (by omega))
  exact ⟨hsub.div (Num.exact_ofNat 2 (by decide)) (int64_fits_of_bounds (by omega) (by omega)),
    by omega, by omega⟩

theorem abs_srv_tm_le (sec frac : UInt32) : |srv_tm sec frac| ≤ 2 ^ 60 := by
  have hbounds := srv_tm_bounds sec frac
  rw [abs_le]
  omega

namespace Exchange

variable {exchange : Exchange}

/-- Computing an offset stays in range. -/
theorem offset_num_exact (h : exchange.InTime) :
    exchange.offset_num.Exact exchange.offset ∧ |exchange.offset| ≤ 2 ^ 61 := by
  obtain ⟨hsend, hrecv⟩ := h
  have hfits : ∀ {x : Int}, |x| < 2 ^ 60 → int64.Fits x := by
    intro x hx
    rw [abs_lt] at hx
    exact int64_fits_of_bounds (by omega) (by omega)
  obtain ⟨hthere, hthereLe⟩ := half_sub_exact
    (srv_tm_num_exact (srv_recv_tm_words exchange.recv_data).1 (srv_recv_tm_words exchange.recv_data).2)
    (Num.exact_of (hfits hsend)) (abs_srv_tm_le _ _) hsend.le
  obtain ⟨hback, hbackLe⟩ := half_sub_exact (Num.exact_of (hfits hrecv))
    (srv_tm_num_exact (srv_send_tm_words exchange.recv_data).1 (srv_send_tm_words exchange.recv_data).2)
    hrecv.le (abs_srv_tm_le _ _)
  rw [abs_le] at hthereLe hbackLe
  rw [offset, reply_offset_eq, srv_recv_tm, srv_send_tm]
  refine ⟨hthere.sub hback (int64_fits_of_bounds (by omega) (by omega)), ?_⟩
  rw [abs_le]
  omega

/-- A quarter of an offset is within a millisecond of what it stands for. -/
theorem quarter_offset_error (exchange : Exchange) :
    |(exchange.offset.tdiv 4 : ℚ) - exchange.exact_offset / 4| ≤ 1 := by
  have hquarter := abs_lt.mp (abs_mul_tdiv_sub_lt exchange.offset (by decide : (0 : Int) < 4))
  have hthere := abs_lt.mp (abs_mul_tdiv_sub_lt (srv_recv_tm exchange.recv_data - exchange.cli_send_tm)
    (by decide : (0 : Int) < 2))
  have hback := abs_lt.mp (abs_mul_tdiv_sub_lt (exchange.cli_recv_tm - srv_send_tm exchange.recv_data)
    (by decide : (0 : Int) < 2))
  have hoffset : exchange.offset = (srv_recv_tm exchange.recv_data - exchange.cli_send_tm).tdiv 2 -
    (exchange.cli_recv_tm - srv_send_tm exchange.recv_data).tdiv 2 := reply_offset_eq _ _ _
  have herror : |8 * exchange.offset.tdiv 4 - (srv_recv_tm exchange.recv_data - exchange.cli_send_tm +
      (srv_send_tm exchange.recv_data - exchange.cli_recv_tm))| ≤ 8 := by
    rw [abs_le]
    omega
  have hcast : |8 * (exchange.offset.tdiv 4 : ℚ) - ((srv_recv_tm exchange.recv_data - exchange.cli_send_tm : Int) +
      (srv_send_tm exchange.recv_data - exchange.cli_recv_tm : Int))| ≤ 8 := by
    exact_mod_cast herror
  rw [exact_offset]
  rw [abs_le] at hcast ⊢
  constructor <;> linarith

/-- Equal delays cancel. -/
theorem Symmetric.exact_offset {ahead : Int} (h : exchange.Symmetric ahead) : exchange.exact_offset = ahead := by
  obtain ⟨delay, hrecv, hsend⟩ := h
  rw [Exchange.exact_offset, hrecv, hsend]
  push_cast
  ring

end Exchange

theorem correction_eq (exchanges : Fin 4 → Exchange) :
    correction exchanges = (exchanges 0).offset.tdiv 4 + (exchanges 1).offset.tdiv 4 +
      (exchanges 2).offset.tdiv 4 + (exchanges 3).offset.tdiv 4 := by
  simp [correction, offset_avg, List.ofFn_succ, Int.add_assoc]

/-- The correction from four exchanges in a list. -/
theorem correction_of_list {exchanges : List Exchange} (hfour : exchanges.length = 4) :
    correction (fun i => exchanges.get (i.cast hfour.symm)) = offset_avg (exchanges.map Exchange.offset) := by
  match exchanges, hfour with
  | [_, _, _, _], _ => rfl

theorem offset_avg_num_exact {exchanges : Fin 4 → Exchange} (h : ∀ i, (exchanges i).InTime) :
    (offset_avg_num (exchanges 0).offset_num (exchanges 1).offset_num (exchanges 2).offset_num
      (exchanges 3).offset_num).Exact (correction exchanges) := by
  have hquarter : ∀ i, ((exchanges i).offset_num / 4).Exact ((exchanges i).offset.tdiv 4) ∧
      |(exchanges i).offset.tdiv 4| ≤ 2 ^ 60 := by
    intro i
    obtain ⟨hexact, hle⟩ := (exchanges i).offset_num_exact (h i)
    have hloss := abs_mul_tdiv_sub_lt (exchanges i).offset (by decide : (0 : Int) < 4)
    rw [abs_le] at hle ⊢
    rw [abs_lt] at hloss
    exact ⟨hexact.div (Num.exact_ofNat 4 (by decide)) (int64_fits_of_bounds (by omega) (by omega)),
      by omega, by omega⟩
  obtain ⟨h0, hle0⟩ := hquarter 0
  obtain ⟨h1, hle1⟩ := hquarter 1
  obtain ⟨h2, hle2⟩ := hquarter 2
  obtain ⟨h3, hle3⟩ := hquarter 3
  rw [abs_le] at hle0 hle1 hle2 hle3
  have hsum1 := h0.add h1 (int64_fits_of_bounds (by omega) (by omega))
  have hsum2 := hsum1.add h2 (int64_fits_of_bounds (by omega) (by omega))
  rw [correction_eq]
  exact hsum2.add h3 (int64_fits_of_bounds (by omega) (by omega))

/-- The correction is within four milliseconds of the mean of the exact offsets. -/
theorem correction_error (exchanges : Fin 4 → Exchange) :
    |(correction exchanges : ℚ) - (∑ i, (exchanges i).exact_offset) / 4| ≤ 4 := by
  have h0 := abs_le.mp (exchanges 0).quarter_offset_error
  have h1 := abs_le.mp (exchanges 1).quarter_offset_error
  have h2 := abs_le.mp (exchanges 2).quarter_offset_error
  have h3 := abs_le.mp (exchanges 3).quarter_offset_error
  rw [correction_eq, Fin.sum_univ_four, abs_le]
  push_cast
  constructor <;> linarith

/-- With local times below 2^60 the correction is computed without an overflow. It is within
four milliseconds of the exact mean offset, so with equal delays of the difference of the
clocks. -/
theorem correction_accurate {exchanges : Fin 4 → Exchange} (htime : ∀ i, (exchanges i).InTime) :
    (offset_avg_num (exchanges 0).offset_num (exchanges 1).offset_num (exchanges 2).offset_num
        (exchanges 3).offset_num).Exact (correction exchanges) ∧
      |(correction exchanges : ℚ) - (∑ i, (exchanges i).exact_offset) / 4| ≤ 4 ∧
      ∀ ahead, (∀ i, (exchanges i).Symmetric ahead) → |correction exchanges - ahead| ≤ 4 := by
  have herror := correction_error exchanges
  refine ⟨offset_avg_num_exact htime, herror, ?_⟩
  intro ahead hsymmetric
  have hmean : (∑ i, (exchanges i).exact_offset) / 4 = (ahead : ℚ) := by
    rw [Fin.sum_univ_four, (hsymmetric 0).exact_offset, (hsymmetric 1).exact_offset, (hsymmetric 2).exact_offset,
      (hsymmetric 3).exact_offset]
    ring
  rw [hmean] at herror
  exact_mod_cast herror

/-- A local clock that is far ahead, with a delay of two milliseconds. -/
theorem correction_accurate_behind : |correction (fun _ => ⟨5, fun _ => 0, 9⟩) - -2208988800007| ≤ 4 :=
  (correction_accurate fun _ => ⟨by decide, by decide⟩).2.2 _ fun _ => ⟨2, by decide, by decide⟩

namespace NtpEnv

variable {env : NtpEnv} {recv_data : Fin 48 → UInt8} {syncing : Syncing}

/-- The local times of an exchange are those of a pass. -/
def Times (env : NtpEnv) (exchange : Exchange) : Prop :=
  ∃ pass, exchange.cli_send_tm = env.cli_send_tm pass ∧ exchange.cli_recv_tm = env.cli_recv_tm pass

/-- The offsets so far are those of exchanges in the run. -/
def Exchanged (env : NtpEnv) (syncing : Syncing) : Prop :=
  ∃ exchanges : List Exchange, syncing.offsets = exchanges.map Exchange.offset ∧
    exchanges.length = syncing.ok_cnt ∧ syncing.ok_cnt < 4 ∧ ∀ exchange ∈ exchanges, env.Times exchange

/-- The exchange of a pass that receives a reply. -/
def exchange (env : NtpEnv) (syncing : Syncing) (reply : List UInt8) : Exchange where
  cli_send_tm := env.cli_send_tm syncing.pass
  recv_data := received syncing.recv_data reply
  cli_recv_tm := env.cli_recv_tm syncing.pass

theorem times_append {exchanges : List Exchange} (h : ∀ exchange ∈ exchanges, env.Times exchange)
    (syncing : Syncing) (reply : List UInt8) :
    ∀ exchange ∈ exchanges ++ [env.exchange syncing reply], env.Times exchange := by
  rw [List.forall_mem_append, List.forall_mem_singleton]
  exact ⟨h, syncing.pass, rfl, rfl⟩

theorem Exchanged.pass (h : env.Exchanged syncing) {next : Syncing}
    (hpass : env.sync_pass syncing = ok (.cont next)) : env.Exchanged next := by
  obtain ⟨exchanges, hoffsets, hlength, hfew, htimes⟩ := h
  rcases sync_pass_cont hpass with ⟨reply, _, hlast, hcount, hnext, _⟩ | ⟨hcount, hnext, _⟩
  · refine ⟨exchanges ++ [env.exchange syncing reply], ?_, ?_, hcount ▸ hlast, times_append htimes syncing reply⟩
    · rw [hnext, hoffsets, List.map_append, List.map_singleton]
      rfl
    · rw [hcount, List.length_append, List.length_singleton, hlength]
  · exact ⟨exchanges, hnext.trans hoffsets, hlength.trans hcount.symm, hcount ▸ hfew, htimes⟩

/-- The clock is set by the correction of the four exchanges of the run. -/
theorem Exchanged.last (h : env.Exchanged syncing) {result : SyncResult} {time : Int}
    (hpass : env.sync_pass syncing = ok (.done result)) (hsync : result.sync = some time) :
    ∃ exchanges : Fin 4 → Exchange, (∀ i, env.Times (exchanges i)) ∧ time = env.now + correction exchanges := by
  obtain ⟨exchanges, hoffsets, hlength, hfew, htimes⟩ := h
  obtain ⟨reply, _, hlast, _, htime⟩ := sync_pass_done hpass hsync
  have hfour : (exchanges ++ [env.exchange syncing reply]).length = 4 := by
    rw [List.length_append, List.length_singleton]
    omega
  have hall := times_append htimes syncing reply
  refine ⟨fun i => (exchanges ++ [env.exchange syncing reply]).get (i.cast hfour.symm),
    fun i => hall _ (List.get_mem _ _), ?_⟩
  rw [htime, correction_of_list hfour, hoffsets, List.map_append, List.map_singleton]
  rfl

/-- Over every run, with local times below 2^60, the clock is set by a correction that is
computed without an overflow and within four milliseconds of the exact mean offset. -/
theorem do_sync_accurate (htime : ∀ pass, |env.cli_send_tm pass| < 2 ^ 60 ∧ |env.cli_recv_tm pass| < 2 ^ 60)
    {fuel : Nat} {result : SyncResult} {time : Int} (hrun : env.do_sync recv_data fuel = ok result)
    (hsync : result.sync = some time) :
    ∃ exchanges : Fin 4 → Exchange, (∀ i, env.Times (exchanges i)) ∧
      (offset_avg_num (exchanges 0).offset_num (exchanges 1).offset_num (exchanges 2).offset_num
        (exchanges 3).offset_num).Exact (time - env.now) ∧
      |((time - env.now : Int) : ℚ) - (∑ i, (exchanges i).exact_offset) / 4| ≤ 4 := by
  unfold do_sync at hrun
  split at hrun
  · cases hrun
    cases hsync
  · split at hrun
    · cases hrun
      cases hsync
    · obtain ⟨last, hpasses, hdone⟩ := loop_last .start hrun
      have hstart : env.Exchanged { client := env.client, recv_data } := ⟨[], rfl, rfl, Nat.succ_pos 3, by simp⟩
      have hlast : env.Exchanged last := Passes.invariant _ (fun _ _ h hpass => h.pass hpass) hstart hpasses
      obtain ⟨exchanges, htimes, hset⟩ := hlast.last hdone hsync
      have hcorrection : time - env.now = correction exchanges := by
        rw [hset]
        omega
      refine ⟨exchanges, htimes, ?_, ?_⟩
      · rw [hcorrection]
        apply offset_avg_num_exact
        intro i
        obtain ⟨pass, hsend, hrecv⟩ := htimes i
        rw [Exchange.InTime, hsend, hrecv]
        exact htime pass
      · rw [hcorrection]
        exact correction_error exchanges

end NtpEnv

end kfw.net
