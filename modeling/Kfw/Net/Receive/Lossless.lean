import Kfw.Net.Receive

open exec Result

namespace kfw.net

/-- The bytes that are still unread of the netbuf that is held, in all its
fragments. -/
def SocketContext.unread (context : SocketContext) : List UInt8 :=
  match context.m_recv_buf with
  | none => []
  | some buf => (buf.ptr.flatMap Pbuf.payload).drop context.m_recv_buf_offset.toNat

def RecvAnswer.netbuf? : RecvAnswer → Option NetBuf
  | .failed _ _ => none
  | .received buf => some buf

/-- A socket from which data is received, with the bytes returned and the netbufs
taken from the connection so far. -/
structure Reception where
  context : SocketContext
  returned : List UInt8 := []
  taken : List NetBuf := []
  deriving DecidableEq

/-- The netbufs among the first answers, which are no longer to come. -/
def taken_between (before after : List RecvAnswer) : List NetBuf :=
  (before.take (before.length - after.length)).filterMap RecvAnswer.netbuf?

/-- One call of `recv_from` on an open socket. -/
def Reception.recv (fuel : Nat) (reception : Reception) (size : UInt32) : Exec Reception := do
  let (_, data, _, socket) ← Socket.recv_from { m_context := some reception.context } size {} fuel
  match socket.m_context with
  | none => fail .invalid_access
  | some context => ok {
      context
      returned := reception.returned ++ data
      taken := reception.taken ++ taken_between reception.context.m_handle context.m_handle }

/-- What was returned and what is unread make up all that was taken. -/
def Reception.Lossless (reception : Reception) : Prop :=
  reception.returned ++ reception.context.unread = reception.taken.flatMap NetBuf.bytes

/-- A call does not come to the end of a fragment that has bytes behind it. -/
def SocketContext.KeepsChain (context : SocketContext) (size : UInt32) : Prop :=
  size ≠ 0 → ∀ buf offset m_handle, context.reads_from = some (buf, offset, m_handle) →
    (netbuf_data buf).2 = buf.bytes ∨ offset.toNat + size.toNat < (netbuf_data buf).2.length

@[simp] theorem taken_between_self (answers : List RecvAnswer) : taken_between answers answers = [] := by
  simp [taken_between]

@[simp] theorem taken_between_cons (answer : RecvAnswer) (answers : List RecvAnswer) :
    taken_between (answer :: answers) answers = answer.netbuf?.toList := by
  cases hnetbuf : answer.netbuf? <;> simp [taken_between, hnetbuf]

variable {reception : Reception} {size : UInt32} {fuel : Nat}

/-- What is unread, with the netbuf that a call takes, is what the call reads
from. -/
theorem SocketContext.unread_taken {context : SocketContext} {buf : NetBuf} {offset : UInt32}
    {m_handle : List RecvAnswer} (hreads : context.reads_from = some (buf, offset, m_handle))
    (hcurrent : buf.ptr = buf.p) :
    context.unread ++ (taken_between context.m_handle m_handle).flatMap NetBuf.bytes =
      buf.bytes.drop offset.toNat := by
  rw [SocketContext.unread]
  rcases SocketContext.reads_from_cases hreads with ⟨hbuf, rfl, rfl⟩ | ⟨hbuf, rfl, hhandle⟩
  · simp [hbuf, hcurrent, NetBuf.bytes]
  · simp [hbuf, hhandle, RecvAnswer.netbuf?]

/-- What a call has read and what is then unread make up what it read from,
exactly if the chain was kept. -/
theorem NetBuf.Arrived.unread_after_read {buf : NetBuf} (harrived : buf.Arrived) {fragment : Pbuf}
    {rest : List Pbuf} (hp : buf.p = fragment :: rest) {offset : UInt32}
    (hoffset : offset.toNat ≤ fragment.payload.length) {data : List UInt8}
    (hdata : data = (fragment.payload.drop offset.toNat).take size.toNat) (m_handle : List RecvAnswer) :
    data ++ (SocketContext.after_read m_handle buf offset data.length).unread = buf.bytes.drop offset.toNat ↔
      (netbuf_data buf).2 = buf.bytes ∨ offset.toNat + size.toNat < (netbuf_data buf).2.length := by
  have hpayload := harrived.data hp
  have hbytes : buf.bytes = fragment.payload ++ rest.flatMap Pbuf.payload := by
    rw [NetBuf.bytes, hp, List.flatMap_cons]
  have hlength : data.length = min size.toNat (fragment.payload.length - offset.toNat) := by
    rw [hdata, List.length_take, List.length_drop]
  rw [hbytes, List.drop_append_of_le_length hoffset, hpayload, SocketContext.unread]
  by_cases hend : offset.toNat + data.length = fragment.payload.length
  · -- the fragment is used up, and the chain is deleted
    have hall : data = fragment.payload.drop offset.toNat := by
      rw [hdata, List.take_of_length_le]
      rw [List.length_drop]
      omega
    have hnot : ¬ offset.toNat + size.toNat < fragment.payload.length := by omega
    simp only [SocketContext.after_read, hpayload, hend, if_true, hnot, or_false]
    rw [← hall, List.append_cancel_left_eq, List.self_eq_append_right, eq_comm]
  · refine iff_of_true ?_ (.inr (by omega))
    have hnext : (offset + data.length.toUInt32).toNat = offset.toNat + data.length := by
      have hlen := fragment.len_lt
      rw [UInt32.toNat_add]
      change (_ + data.length % 2 ^ 32) % 2 ^ 32 = _
      omega
    simp only [SocketContext.after_read, hpayload, if_neg hend, hnext]
    rw [harrived.current, hp, List.flatMap_cons, ← List.drop_drop,
      List.drop_append_of_le_length hoffset, List.drop_append_of_le_length (by
        rw [List.length_drop]
        omega), ← List.append_assoc]
    congr 1
    exact List.prefix_iff_eq_append.mp (hdata ▸ List.take_prefix _ _)

/-- After a call that read something, nothing is lost exactly if the chain was
kept. -/
theorem Reception.Lossless.after_read (h : reception.Lossless) {buf : NetBuf} {offset : UInt32}
    {m_handle : List RecvAnswer} (hreads : reception.context.reads_from = some (buf, offset, m_handle))
    {fragment : Pbuf} {rest : List Pbuf} (hp : buf.p = fragment :: rest) (harrived : buf.Arrived)
    (hoffset : offset.toNat ≤ fragment.payload.length) {data : List UInt8}
    (hdata : data = (fragment.payload.drop offset.toNat).take size.toNat) :
    Lossless {
        context := .after_read m_handle buf offset data.length
        returned := reception.returned ++ data
        taken := reception.taken ++ taken_between reception.context.m_handle m_handle } ↔
      (netbuf_data buf).2 = buf.bytes ∨ offset.toNat + size.toNat < (netbuf_data buf).2.length := by
  rw [← harrived.unread_after_read hp hoffset hdata m_handle]
  unfold Lossless
  rw [List.flatMap_append, ← h, List.append_assoc, List.append_assoc,
    SocketContext.unread_taken hreads harrived.current, List.append_cancel_left_eq]

/-- A call waits for ever when nothing more arrives; otherwise it returns at most
what was asked for, and nothing is lost exactly if the chain was kept. -/
theorem Reception.Lossless.recv (h : reception.Lossless) (hvalid : reception.context.Valid) (hfuel : 2 ≤ fuel) :
    reception.context.m_handle = [] ∧ reception.recv fuel size = div ∧ reception.context.KeepsChain size ∨
      ∃ data next, reception.recv fuel size = ok next ∧ next.returned = reception.returned ++ data ∧
        data.length ≤ size.toNat ∧ next.context.Valid ∧
        (next.Lossless ↔ reception.context.KeepsChain size) := by
  by_cases hsize : size = 0
  · subst hsize
    refine .inr ⟨[], reception, ?_, by simp, by simp, hvalid, iff_of_true h ?_⟩
    · simp [Reception.recv, Socket.recv_from]
    · exact fun hsize => absurd rfl hsize
  cases hreads : reception.context.reads_from with
  | none =>
    have hkeeps : reception.context.KeepsChain size := by
      intro _ buf offset m_handle hsome
      rw [hreads] at hsome
      cases hsome
    obtain ⟨hbuf, ⟨hhandle, hdiv⟩ | ⟨err, herr, m_handle, hhandle, hfailed⟩⟩ :=
      recv_from_idle hreads hsize {} hfuel
    · left
      refine ⟨hhandle, ?_, hkeeps⟩
      rw [Reception.recv, hdiv, bind_div]
    · right
      refine ⟨[], { reception with context := { reception.context with m_handle } }, ?_, by simp, by simp,
        hvalid.tail hhandle, iff_of_true h hkeeps⟩
      rw [Reception.recv, hfailed, bind_ok]
      simp [hhandle, RecvAnswer.netbuf?]
  | some read =>
    obtain ⟨buf, offset, m_handle⟩ := read
    obtain ⟨fragment, rest, data, hp, hoffset, harrived, hdata, hrecv, hnext⟩ :=
      hvalid.recv_from_reads hreads hsize {} hfuel
    right
    refine ⟨data, _, ?_, rfl, ?_, hnext, (h.after_read hreads hp harrived hoffset hdata).trans ?_⟩
    · rw [Reception.recv, hrecv, bind_ok]
      rfl
    · rw [hdata, List.length_take]
      omega
    · constructor
      · intro hread _ buf' offset' m_handle' hreads'
        rw [hreads] at hreads'
        cases hreads'
        exact hread
      · intro hkeeps
        exact hkeeps hsize buf offset m_handle hreads

/-- What a call has to do: it neither faults nor waits while something is there,
it returns at most what was asked for, and nothing is lost. -/
structure Reception.Receives (fuel : Nat) (reception : Reception) (size : UInt32) : Prop where
  not_fail : ∀ error, reception.recv fuel size ≠ fail error
  waits : reception.recv fuel size = div → reception.context.m_handle = []
  bounded : ∀ next, reception.recv fuel size = ok next →
    ∃ data, next.returned = reception.returned ++ data ∧ data.length ≤ size.toNat
  lossless : ∀ next, reception.recv fuel size = ok next → next.Lossless

theorem Reception.Lossless.receives_iff (h : reception.Lossless) (hvalid : reception.context.Valid)
    (hfuel : 2 ≤ fuel) : reception.Receives fuel size ↔ reception.context.KeepsChain size := by
  rcases h.recv hvalid hfuel with ⟨hhandle, hdiv, hkeeps⟩ | ⟨data, next, hok, hreturned, hlength, _, hiff⟩
  · refine iff_of_true ⟨?_, fun _ => hhandle, ?_, ?_⟩ hkeeps
    all_goals simp [hdiv]
  · refine Iff.trans ?_ hiff
    constructor
    · intro hreceives
      exact hreceives.lossless next hok
    · intro hlossless
      refine ⟨by simp [hok], by simp [hok], ?_, ?_⟩
      · intro other hother
        cases hok.symm.trans hother
        exact ⟨data, hreturned, hlength⟩
      · intro other hother
        cases hok.symm.trans hother
        exact hlossless

/-- From a socket that holds nothing, whatever arrives and however much each call
asks for, all calls receive as they have to exactly if none of them comes to the
end of a fragment that has bytes behind it. -/
theorem recv_from_lossless_iff {arrived : List RecvAnswer}
    (harrived : ∀ buf, .received buf ∈ arrived → buf.Arrived) (hfuel : 2 ≤ fuel) (sizes : List UInt32) :
    Along (Reception.recv fuel) (Reception.Receives fuel) { context := { m_handle := arrived } } sizes ↔
      Along (Reception.recv fuel) (fun reception size => reception.context.KeepsChain size)
        { context := { m_handle := arrived } } sizes := by
  have hallowed : Along (Reception.recv fuel) (fun _ _ => True) { context := { m_handle := arrived } } sizes :=
    .of_forall fun _ _ _ => trivial
  refine Along.iff_of_step (fun reception => reception.Lossless ∧ reception.context.Valid) ?_ ?_
    ⟨rfl, harrived, by simp⟩ hallowed
  · intro reception size hinv _
    exact hinv.1.receives_iff hinv.2 hfuel
  · intro reception size next hinv _ hkeeps hnext
    rcases hinv.1.recv hinv.2 hfuel with ⟨_, hdiv, _⟩ | ⟨_, _, hok, _, _, hvalid, hiff⟩
    · cases hdiv.symm.trans hnext
    · cases hok.symm.trans hnext
      exact ⟨hiff.mpr hkeeps, hvalid⟩

/-- Three bytes in two fragments. -/
def two_fragments : NetBuf where
  p := [⟨[65, 66], by decide⟩, ⟨[67], by decide⟩]
  ptr := [⟨[65, 66], by decide⟩, ⟨[67], by decide⟩]

theorem two_fragments_arrived {buf : NetBuf} (hbuf : .received buf ∈ [RecvAnswer.received two_fragments]) :
    buf.Arrived := by
  obtain rfl : buf = two_fragments := by simpa using hbuf
  exact ⟨rfl, by simp [two_fragments]⟩

theorem recv_from_lossless_one_byte :
    Along (Reception.recv 2) (Reception.Receives 2)
      { context := { m_handle := [.received two_fragments] } } [1] := by
  refine (recv_from_lossless_iff (fun _ => two_fragments_arrived) (Nat.le_refl 2) [1]).mpr ⟨?_, by simp [Along]⟩
  intro _ buf offset m_handle hreads
  obtain ⟨rfl, rfl, rfl⟩ : two_fragments = buf ∧ 0 = offset ∧ [] = m_handle := by
    simpa [SocketContext.reads_from] using hreads
  right
  decide

/-- A call that reads the first of two fragments to its end loses the second. -/
theorem recv_from_loses_fragment :
    (∀ buf, .received buf ∈ [RecvAnswer.received two_fragments] → buf.Arrived) ∧
      ¬ Along (Reception.recv 2) (Reception.Receives 2)
        { context := { m_handle := [.received two_fragments] } } [2] := by
  refine ⟨fun _ => two_fragments_arrived, fun hreceives => ?_⟩
  have hrecv : Reception.recv 2 { context := { m_handle := [.received two_fragments] } } 2 = ok {
      context := { m_handle := [], m_recv_buf := none, m_recv_buf_offset := 2 }
      returned := [65, 66]
      taken := [two_fragments] } := by
    decide +kernel
  have hlossless := hreceives.1.lossless _ hrecv
  simp [Reception.Lossless, SocketContext.unread, NetBuf.bytes, two_fragments] at hlossless

end kfw.net
