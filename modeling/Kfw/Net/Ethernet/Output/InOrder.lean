import Kfw.Net.Ethernet.Output

open exec Result

namespace kfw.net

/-- A part of a frame as the DMA finds it in a descriptor. -/
structure TxSegment where
  fs : Bool
  ls : Bool
  data : List UInt8

/-- What a descriptor has for the DMA, if the DMA owns it. -/
def TxDesc.given (desc : TxDesc) : Option TxSegment :=
  if desc.own then some ⟨desc.fs, desc.ls, desc.buffer.bytes.take desc.tbs1⟩ else none

theorem TxDesc.given_eq_none_iff {desc : TxDesc} : desc.given = none ↔ desc.own = false := by
  cases hown : desc.own <;> simp [given, hown]

theorem TxDesc.next_mod (pos : Nat) : TxDesc.next (pos % ETH_TXBUFNB) = (pos + 1) % ETH_TXBUFNB :=
  next_desc_mod (by decide) pos

/-- The frames that the DMA puts on the wire from a list of segments, and what it has sent
of one behind them. -/
def assemble : List UInt8 → List TxSegment → List (List UInt8) × List UInt8
  | sending, [] => ([], sending)
  | sending, segment :: segments =>
    let sending := (if segment.fs then [] else sending) ++ segment.data
    if segment.ls then
      let (frames, last) := assemble [] segments
      (sending :: frames, last)
    else assemble sending segments

namespace EthernetOutput

/-- The segment with number `i` of a frame. -/
def segment (frame : List UInt8) (i : Nat) : TxSegment where
  fs := i = 0
  ls := i + 1 = bufcount_of frame.length
  data := piece ETH_TX_BUF_SIZE i frame

def segments_from (frame : List UInt8) : Nat → Nat → List TxSegment
  | _, 0 => []
  | i, count + 1 => segment frame i :: segments_from frame (i + 1) count

/-- The number of descriptors is right: the last one has the rest of the frame. -/
theorem bufcount_of_eq {length k : Nat} (hlow : k = 0 ∨ ETH_TX_BUF_SIZE * k < length)
    (hhigh : length ≤ ETH_TX_BUF_SIZE * (k + 1)) : bufcount_of length = k + 1 := by
  have hsize : ETH_TX_BUF_SIZE = 1524 := rfl
  rw [hsize] at hlow hhigh
  rw [bufcount_of, hsize]
  by_cases hmany : length > 1524
  · rw [if_pos hmany]
    by_cases hrest : length % 1524 ≠ 0
    · rw [if_pos hrest]
      omega
    · rw [if_neg hrest]
      omega
  · rw [if_neg hmany]
    omega

/-- The segments of a frame are put together again; the induction is on those still to come. -/
theorem assemble_segments {frame sending : List UInt8} {i count : Nat} (hcount : i + count = bufcount_of frame.length)
    (hpositive : 0 < count) (hlength : frame.length ≤ ETH_TX_BUF_SIZE * bufcount_of frame.length)
    (hsending : i = 0 ∨ sending = frame.take (ETH_TX_BUF_SIZE * i)) (rest : List TxSegment) :
    assemble sending (segments_from frame i count ++ rest) =
      (frame :: (assemble [] rest).1, (assemble [] rest).2) := by
  induction count generalizing i sending with
  | zero => omega
  | succ count ih =>
    have hsent : (if (segment frame i).fs then [] else sending) ++ (segment frame i).data =
        frame.take (ETH_TX_BUF_SIZE * (i + 1)) := by
      rw [← take_append_piece]
      rcases hsending with rfl | rfl
      · simp [segment]
      · by_cases hzero : i = 0
        · simp [segment, hzero]
        · simp [segment, hzero]
    rw [segments_from, List.cons_append, assemble, hsent]
    by_cases hlast : i + 1 = bufcount_of frame.length
    · obtain rfl : count = 0 := by omega
      rw [if_pos (by simpa [segment] using hlast), hlast, List.take_of_length_le hlength]
      rfl
    · rw [if_neg (by simpa [segment] using hlast)]
      exact ih (by omega) (by omega) (.inr rfl)

theorem assemble_append {sending : List UInt8} {segments : List TxSegment} {frames : List (List UInt8)}
    (h : assemble sending segments = (frames, [])) (rest : List TxSegment) :
    assemble sending (segments ++ rest) = (frames ++ (assemble [] rest).1, (assemble [] rest).2) := by
  induction segments generalizing sending frames with
  | nil =>
    cases h
    rfl
  | cons segment segments ih =>
    rw [List.cons_append, assemble]
    rw [assemble] at h
    split at h
    · next hls =>
      rw [if_pos hls]
      cases hrest : assemble [] segments with
      | mk others last =>
        simp only [hrest] at h
        cases h
        rw [ih hrest]
        rfl
    · next hls =>
      rw [if_neg hls]
      exact ih h

/-- The descriptors from the position `tail` on have what was copied so far, all full but the
one with number `k`, at which the driver is; `more` bytes follow at once. -/
structure Filling (eth : EthernetOutput) (tail k : Nat) (copied : List UInt8) (more : Nat) : Prop where
  desc_eq : eth.DmaTxDesc = (tail + k) % ETH_TXBUFNB
  offset_eq : ETH_TX_BUF_SIZE * k + eth.bufferoffset = copied.length
  offset_le : eth.bufferoffset ≤ ETH_TX_BUF_SIZE
  length_eq : eth.framelength = copied.length
  started : k = 0 ∨ ETH_TX_BUF_SIZE * k < copied.length + more
  bytes : ∀ j ≤ k, piece ETH_TX_BUF_SIZE j copied <+: (eth.desc ((tail + j) % ETH_TXBUFNB)).buffer.bytes

/-- How far a call is, with `free` descriptors from the position `tail` on; `due` are the
segments it is going to give. -/
def Phase (eth : EthernetOutput) (tail free : Nat) (due : List TxSegment) : Prop :=
  match eth.pc with
  | .idle => due = []
  | .pbuf q => due = [] ∧ eth.frame.length ≤ ETH_TXBUFNB * ETH_TX_BUF_SIZE ∧
    ∃ copied k, eth.Filling tail k copied 0 ∧ (k < free ∨ copied = []) ∧ copied ++ q.flatten = eth.frame
  | .copy rest q => due = [] ∧ eth.frame.length ≤ ETH_TXBUFNB * ETH_TX_BUF_SIZE ∧
    ∃ copied k, eth.Filling tail k copied rest.length ∧ k < free ∧ copied ++ (rest ++ q.flatten) = eth.frame
  | .transmit => due = [] ∧ ∃ k, eth.Filling tail k eth.frame 0 ∧ (k < free ∨ eth.frame = [])
  | .give i bufcount => eth.frame ≠ [] ∧ eth.framelength = eth.frame.length ∧
    bufcount = bufcount_of eth.frame.length ∧ eth.frame.length ≤ ETH_TX_BUF_SIZE * bufcount ∧
    i < bufcount ∧ bufcount - i ≤ free ∧ due = segments_from eth.frame i (bufcount - i) ∧
    ∀ j < bufcount - i, piece ETH_TX_BUF_SIZE (i + j) eth.frame <+:
      (eth.desc ((tail + j) % ETH_TXBUFNB)).buffer.bytes

/-- A chain that a call is started with is not longer than the buffers of all descriptors. -/
def Fits (eth : EthernetOutput) : OutputAction → Prop
  | .task p => eth.pc = .idle → p.flatten.length ≤ ETH_TXBUFNB * ETH_TX_BUF_SIZE
  | .dma => True

/-- The frames taken, with the one that is being given to the DMA. -/
def taken (eth : EthernetOutput) : List (List UInt8) :=
  match eth.pc with
  | .give _ _ => eth.accepted ++ [eth.frame]
  | _ => eth.accepted

/-- The descriptors that the DMA owns are a queue, and what the DMA makes of it, with the
segments that are due, are the frames taken that are not on the wire yet. -/
structure Queued (eth : EthernetOutput) (head : Nat) (items due : List TxSegment) (pending : List (List UInt8)) :
    Prop where
  ring : Ring ETH_TXBUFNB (fun i => (eth.desc i).given) head items
  dma_eq : eth.dma = head % ETH_TXBUFNB
  desc_eq : eth.TxDesc = (head + items.length) % ETH_TXBUFNB
  assembles : assemble eth.sending (items ++ due) = (pending, [])
  taken_eq : eth.taken = eth.wire ++ pending
  phase : eth.Phase (head + items.length) (ETH_TXBUFNB - items.length) due

variable {eth : EthernetOutput} {head tail k free : Nat} {items due : List TxSegment}
  {pending : List (List UInt8)} {copied : List UInt8} {more : Nat}

/-- Only the buffers and the locals of the call matter. -/
theorem Filling.congr (h : eth.Filling tail k copied more) {other : EthernetOutput}
    (hdesc : other.DmaTxDesc = eth.DmaTxDesc) (hoffset : other.bufferoffset = eth.bufferoffset)
    (hlength : other.framelength = eth.framelength)
    (hbuffer : ∀ i, (other.desc i).buffer = (eth.desc i).buffer) : other.Filling tail k copied more where
  desc_eq := hdesc ▸ h.desc_eq
  offset_eq := hoffset ▸ h.offset_eq
  offset_le := hoffset ▸ h.offset_le
  length_eq := hlength ▸ h.length_eq
  started := h.started
  bytes := fun j hj => by
    rw [hbuffer]
    exact h.bytes j hj

theorem Filling.length_piece (h : eth.Filling tail k copied more) :
    (piece ETH_TX_BUF_SIZE k copied).length = eth.bufferoffset := by
  have hoffset := h.offset_eq
  have hle := h.offset_le
  rw [exec.length_piece]
  omega

/-- A copy into the descriptor at which the driver is puts the data behind what is there. -/
theorem Filling.memcpy (h : eth.Filling tail k copied more) (hown : (eth.desc eth.DmaTxDesc).own = false)
    (hk : k < ETH_TXBUFNB) {data : List UInt8} (hfits : eth.bufferoffset + data.length ≤ ETH_TX_BUF_SIZE) :
    ∃ desc, (eth.desc eth.DmaTxDesc).memcpy eth.bufferoffset data = ok desc ∧ desc.own = false ∧
      ∀ j ≤ k, piece ETH_TX_BUF_SIZE j (copied ++ data) <+:
        (Function.update eth.desc eth.DmaTxDesc desc ((tail + j) % ETH_TXBUFNB)).buffer.bytes := by
  have hpiece := h.length_piece
  have hoffset := h.offset_eq
  have hfront := h.bytes k (Nat.le_refl k)
  rw [← h.desc_eq] at hfront
  have hroom : (piece ETH_TX_BUF_SIZE k copied).length + data.length ≤ ETH_MAX_PACKET_SIZE := by
    rw [hpiece]
    exact hfits
  obtain ⟨buffer, hput, hbytes⟩ := DmaBuffer.put_behind hfront hroom
  rw [hpiece] at hput
  refine ⟨{ eth.desc eth.DmaTxDesc with buffer }, ?_, hown, fun j hj => ?_⟩
  · simp [TxDesc.memcpy, hown, hput]
  · by_cases hlast : j = k
    · rw [hlast, ← h.desc_eq, Function.update_self,
        piece_append_last (by omega) (by rw [Nat.mul_succ]; omega)]
      exact hbytes
    · have hslot : (tail + j) % ETH_TXBUFNB ≠ eth.DmaTxDesc := by
        rw [h.desc_eq]
        exact ring_slot_ne (by omega) (by omega)
      have hfull : ETH_TX_BUF_SIZE * (j + 1) ≤ copied.length :=
        Nat.le_trans (Nat.mul_le_mul_left _ (by omega : j + 1 ≤ k)) (by omega)
      rw [Function.update_of_ne hslot, piece_append_of_le hfull]
      exact h.bytes j hj

theorem Phase.mono (h : eth.Phase tail free due) {other : Nat} (hfree : free ≤ other) : eth.Phase tail other due := by
  unfold Phase at h ⊢
  split at h
  · exact h
  · obtain ⟨hdue, hfits, copied, k, hfilling, hk, hframe⟩ := h
    exact ⟨hdue, hfits, copied, k, hfilling, hk.imp_left fun hlt => Nat.lt_of_lt_of_le hlt hfree, hframe⟩
  · obtain ⟨hdue, hfits, copied, k, hfilling, hk, hframe⟩ := h
    exact ⟨hdue, hfits, copied, k, hfilling, Nat.lt_of_lt_of_le hk hfree, hframe⟩
  · obtain ⟨hdue, k, hfilling, hk⟩ := h
    exact ⟨hdue, k, hfilling, hk.imp_left fun hlt => Nat.lt_of_lt_of_le hlt hfree⟩
  · obtain ⟨hframe, hlength, hcount, hfits, hi, hroom, hdue⟩ := h
    exact ⟨hframe, hlength, hcount, hfits, hi, Nat.le_trans hroom hfree, hdue⟩

/-- What the DMA does with the descriptors leaves a call where it is. -/
theorem Phase.dma_step (h : eth.Phase tail free due) : eth.dma_step.Phase tail free due := by
  have hbuffer : ∀ i, (eth.dma_step.desc i).buffer = (eth.desc i).buffer := by
    intro i
    cases hown : (eth.desc eth.dma).own
    · simp [EthernetOutput.dma_step, hown]
    · by_cases hi : i = eth.dma
      · simp [EthernetOutput.dma_step, hown, hi]
      · simp [EthernetOutput.dma_step, hown, Function.update_of_ne hi]
  have hsame : eth.dma_step.pc = eth.pc ∧ eth.dma_step.frame = eth.frame ∧
      eth.dma_step.DmaTxDesc = eth.DmaTxDesc ∧ eth.dma_step.bufferoffset = eth.bufferoffset ∧
      eth.dma_step.framelength = eth.framelength := by
    cases hown : (eth.desc eth.dma).own <;> simp [EthernetOutput.dma_step, hown]
  obtain ⟨hpc, hframe, hdesc, hoffset, hlength⟩ := hsame
  unfold Phase at h ⊢
  rw [hpc, hframe, hlength]
  split at h
  · exact h
  · obtain ⟨hdue, hfits, copied, k, hfilling, hrest⟩ := h
    exact ⟨hdue, hfits, copied, k, hfilling.congr hdesc hoffset hlength hbuffer, hrest⟩
  · obtain ⟨hdue, hfits, copied, k, hfilling, hrest⟩ := h
    exact ⟨hdue, hfits, copied, k, hfilling.congr hdesc hoffset hlength hbuffer, hrest⟩
  · obtain ⟨hdue, k, hfilling, hrest⟩ := h
    exact ⟨hdue, k, hfilling.congr hdesc hoffset hlength hbuffer, hrest⟩
  · simpa only [hbuffer] using h

/-- The DMA takes the first segment off the queue, if there is one. -/
theorem Queued.dma (h : eth.Queued head items due pending) :
    ∃ head' pending', eth.dma_step.Queued head' items.tail due pending' := by
  have htaken : eth.dma_step.taken = eth.taken := by
    cases hown : (eth.desc eth.dma).own <;> simp [EthernetOutput.dma_step, hown, taken, accepted]
  cases items with
  | nil =>
    have hnone := h.ring.slot_behind (i := 0) (by decide)
    rw [List.length_nil, Nat.add_zero, ← h.dma_eq, TxDesc.given_eq_none_iff] at hnone
    have hsame : eth.dma_step = eth := by
      simp [EthernetOutput.dma_step, hnone]
    rw [hsame]
    exact ⟨head, pending, h⟩
  | cons segment items =>
    have hgiven := h.ring.slot_head
    rw [← h.dma_eq] at hgiven
    have hown : (eth.desc eth.dma).own = true := by
      by_contra hnot
      rw [TxDesc.given_eq_none_iff.mpr (by simpa using hnot)] at hgiven
      cases hgiven
    rw [TxDesc.given, if_pos hown, Option.some.injEq] at hgiven
    subst hgiven
    have hring := h.ring.pop
    have hslots : (fun i => (eth.dma_step.desc i).given) =
        Function.update (fun i => (eth.desc i).given) (head % ETH_TXBUFNB) none := by
      funext i
      by_cases hi : i = eth.dma
      · simp [EthernetOutput.dma_step, hown, hi, ← h.dma_eq, TxDesc.given]
      · simp [EthernetOutput.dma_step, hown, ← h.dma_eq, Function.update_of_ne hi]
    rw [← hslots] at hring
    have hnext : eth.dma_step.dma = (head + 1) % ETH_TXBUFNB := by
      rw [← TxDesc.next_mod, ← h.dma_eq]
      simp [EthernetOutput.dma_step, hown]
    have hdesc : eth.dma_step.TxDesc = (head + 1 + items.length) % ETH_TXBUFNB := by
      have hsame : eth.dma_step.TxDesc = eth.TxDesc := by
        simp [EthernetOutput.dma_step, hown]
      rw [hsame, h.desc_eq, List.length_cons]
      congr 1
      omega
    have hphase : eth.dma_step.Phase (head + 1 + items.length) (ETH_TXBUFNB - items.length) due := by
      have hphase := h.phase.dma_step
      rw [List.length_cons, Nat.add_comm items.length, ← Nat.add_assoc] at hphase
      exact hphase.mono (by omega)
    have hassembles := h.assembles
    rw [List.cons_append, assemble] at hassembles
    by_cases hls : (eth.desc eth.dma).ls = true
    · rw [if_pos hls] at hassembles
      cases hrest : assemble [] (items ++ due) with
      | mk frames last =>
        simp only [hrest] at hassembles
        cases hassembles
        refine ⟨head + 1, frames, hring, hnext, hdesc, ?_, ?_, hphase⟩
        · simpa [EthernetOutput.dma_step, hown, hls] using hrest
        · rw [htaken, h.taken_eq]
          simp [EthernetOutput.dma_step, hown, hls]
    · rw [if_neg hls] at hassembles
      refine ⟨head + 1, pending, hring, hnext, hdesc, ?_, ?_, hphase⟩
      · simpa [EthernetOutput.dma_step, hown, hls] using hassembles
      · rw [htaken, h.taken_eq]
        simp [EthernetOutput.dma_step, hown, hls]

/-- A change to a descriptor that stays with the driver is none for the DMA. -/
theorem given_update {desc : Nat → kfw.net.TxDesc} {j : Nat} {next : kfw.net.TxDesc} (hown : (desc j).own = false)
    (hnext : next.own = false) :
    (fun i => (Function.update desc j next i).given) = fun i => (desc i).given := by
  funext i
  by_cases hi : i = j
  · rw [hi, Function.update_self, TxDesc.given_eq_none_iff.mpr hnext, TxDesc.given_eq_none_iff.mpr hown]
  · rw [Function.update_of_ne hi]

/-- The first descriptor behind the free ones is owned by the DMA, unless all are free. -/
theorem free_of_own_eq_false {desc : Nat → kfw.net.TxDesc}
    (hring : Ring ETH_TXBUFNB (fun i => (desc i).given) head items) (hk : k ≤ ETH_TXBUFNB - items.length)
    (hlt : k < ETH_TXBUFNB) (hown : (desc ((head + items.length + k) % ETH_TXBUFNB)).own = false) :
    k < ETH_TXBUFNB - items.length := by
  have hle := hring.length_le
  by_contra hnot
  have hitems : items ≠ [] := by
    rintro rfl
    exact hnot hlt
  exact hring.slot_around (by omega) hitems (TxDesc.given_eq_none_iff.mpr hown)

theorem own_eq_false_of_free (h : eth.Queued head items due pending) (hk : k < ETH_TXBUFNB - items.length) :
    (eth.desc ((head + items.length + k) % ETH_TXBUFNB)).own = false :=
  TxDesc.given_eq_none_iff.mp (h.ring.slot_behind (by omega))

theorem taken_return_of_skip {errval : Int} (hskip : errval ≠ ERR_OK ∨ eth.frame = []) :
    (eth.return_ errval).taken = eth.accepted := by
  rcases hskip with hskip | hskip <;> simp [return_, taken, accepted, hskip]

theorem taken_return_of_sent (hframe : eth.frame ≠ []) :
    (eth.return_ ERR_OK).taken = eth.accepted ++ [eth.frame] := by
  simp [return_, taken, accepted, hframe]

/-- At the head of the loop over the chain. -/
theorem Queued.task_pbuf (h : eth.Queued head items due pending) {q : List (List UInt8)} (hpc : eth.pc = .pbuf q)
    (p : List (List UInt8)) : ∃ next, eth.task p = ok next ∧ next.Queued head items [] pending := by
  have hphase := h.phase
  have htaken := h.taken_eq
  simp only [Phase, hpc] at hphase
  simp only [taken, hpc] at htaken
  obtain ⟨rfl, hfits, copied, k, hfilling, hk, hframe⟩ := hphase
  cases q with
  | nil =>
    rw [List.flatten_nil, List.append_nil] at hframe
    subst hframe
    simp only [task, hpc]
    refine ⟨_, rfl, h.ring, h.dma_eq, h.desc_eq, h.assembles, htaken, rfl, k, ?_, hk⟩
    exact hfilling.congr rfl rfl rfl fun _ => rfl
  | cons payload q =>
    cases hown : (eth.desc eth.DmaTxDesc).own with
    | true =>
      simp only [task, hpc, hown, if_true]
      exact ⟨_, rfl, h.ring, h.dma_eq, h.desc_eq, h.assembles,
        (taken_return_of_skip (.inl (by decide))).trans htaken, rfl⟩
    | false =>
      simp only [task, hpc, hown, Bool.false_eq_true, if_false]
      rw [hfilling.desc_eq] at hown
      have hlt : k < ETH_TXBUFNB - items.length := by
        rcases hk with hk | rfl
        · exact hk
        · have hzero : k = 0 := hfilling.started.resolve_right (by simp)
          subst hzero
          exact free_of_own_eq_false h.ring (Nat.zero_le _) (by decide) hown
      refine ⟨_, rfl, h.ring, h.dma_eq, h.desc_eq, h.assembles, htaken, rfl, hfits, copied, k, ?_, hlt, ?_⟩
      · exact ⟨hfilling.desc_eq, hfilling.offset_eq, hfilling.offset_le, hfilling.length_eq,
          hfilling.started.imp_right fun hlow => Nat.lt_of_lt_of_le hlow (by omega), hfilling.bytes⟩
      · rw [← List.flatten_cons]
        exact hframe

/-- In the loop of one buffer: the data goes behind what the descriptor has, and the rest of
it in the next descriptor. -/
theorem Queued.task_copy (h : eth.Queued head items due pending) {rest : List UInt8} {q : List (List UInt8)}
    (hpc : eth.pc = .copy rest q) (p : List (List UInt8)) :
    ∃ next, eth.task p = ok next ∧ next.Queued head items [] pending := by
  have hphase := h.phase
  have htaken := h.taken_eq
  simp only [Phase, hpc] at hphase
  simp only [taken, hpc] at htaken
  obtain ⟨rfl, hfits, copied, k, hfilling, hk, hframe⟩ := hphase
  have hown : (eth.desc eth.DmaTxDesc).own = false := by
    rw [hfilling.desc_eq]
    exact own_eq_false_of_free h hk
  have hoffset := hfilling.offset_eq
  have hle := hfilling.offset_le
  by_cases hwrap : rest.length + eth.bufferoffset > ETH_TX_BUF_SIZE
  · have hsize : (rest.take (ETH_TX_BUF_SIZE - eth.bufferoffset)).length = ETH_TX_BUF_SIZE - eth.bufferoffset := by
      rw [List.length_take]
      omega
    have hroom : eth.bufferoffset + (rest.take (ETH_TX_BUF_SIZE - eth.bufferoffset)).length ≤ ETH_TX_BUF_SIZE := by
      omega
    obtain ⟨desc, hmemcpy, hdesc, hbytes⟩ := hfilling.memcpy hown (by omega) hroom
    have hring := h.ring
    rw [← given_update hown hdesc] at hring
    have hnext : TxDesc.next eth.DmaTxDesc = (head + items.length + (k + 1)) % ETH_TXBUFNB := by
      rw [hfilling.desc_eq, TxDesc.next_mod, Nat.add_assoc]
    have hfull : (copied ++ rest.take (ETH_TX_BUF_SIZE - eth.bufferoffset)).length = ETH_TX_BUF_SIZE * (k + 1) := by
      rw [List.length_append, hsize, Nat.mul_succ]
      omega
    cases hother : (Function.update eth.desc eth.DmaTxDesc desc (TxDesc.next eth.DmaTxDesc)).own with
    | true =>
      simp only [task, hpc, if_pos hwrap, hmemcpy, bind_ok, hother, if_true]
      exact ⟨_, rfl, hring, h.dma_eq, h.desc_eq, h.assembles,
        (taken_return_of_skip (.inl (by decide))).trans htaken, rfl⟩
    | false =>
      simp only [task, hpc, if_pos hwrap, hmemcpy, bind_ok, hother, Bool.false_eq_true, if_false]
      refine ⟨_, rfl, hring, h.dma_eq, h.desc_eq, h.assembles, htaken, rfl, hfits,
        copied ++ rest.take (ETH_TX_BUF_SIZE - eth.bufferoffset), k + 1, ?_, ?_, ?_⟩
      · refine ⟨hnext, by rw [hfull, Nat.add_zero], Nat.zero_le _, ?_, .inr ?_, fun j hj => ?_⟩
        · rw [List.length_append, hsize, ← hfilling.length_eq]
        · rw [hfull, List.length_drop]
          omega
        · by_cases hlast : j = k + 1
          · rw [hlast, piece, List.drop_of_length_le (Nat.le_of_eq hfull), List.take_nil]
            exact List.nil_prefix
          · exact hbytes j (by omega)
      · rw [hnext] at hother
        have hlength := congrArg List.length hframe
        simp only [List.length_append] at hlength
        refine free_of_own_eq_false hring hk ?_ hother
        simp only [ETH_TXBUFNB, ETH_TX_BUF_SIZE, ETH_MAX_PACKET_SIZE] at hfits hwrap hoffset ⊢
        omega
      · rw [List.append_assoc, ← List.append_assoc (rest.take _), List.take_append_drop]
        exact hframe
  · obtain ⟨desc, hmemcpy, hdesc, hbytes⟩ := hfilling.memcpy hown (by omega)
      (by omega : eth.bufferoffset + rest.length ≤ ETH_TX_BUF_SIZE)
    have hring := h.ring
    rw [← given_update hown hdesc] at hring
    simp only [task, hpc, if_neg hwrap, hmemcpy, bind_ok]
    refine ⟨_, rfl, hring, h.dma_eq, h.desc_eq, h.assembles, htaken, rfl, hfits, copied ++ rest, k, ?_, .inl hk, ?_⟩
    · refine ⟨hfilling.desc_eq, ?_, by simp only; omega, ?_, ?_, hbytes⟩
      · rw [List.length_append, ← hoffset]
        simp only
        omega
      · rw [List.length_append, ← hfilling.length_eq]
      · rw [List.length_append]
        exact hfilling.started
    · rw [List.append_assoc]
      exact hframe

/-- Before `HAL_ETH_TransmitFrame`: the frame is taken, with a descriptor for every segment. -/
theorem Queued.task_transmit (h : eth.Queued head items due pending) (hpc : eth.pc = .transmit)
    (p : List (List UInt8)) :
    ∃ next, eth.task p = ok next ∧ ∃ due pending, next.Queued head items due pending := by
  have hphase := h.phase
  have htaken := h.taken_eq
  simp only [Phase, hpc] at hphase
  simp only [taken, hpc] at htaken
  obtain ⟨rfl, k, hfilling, hk⟩ := hphase
  by_cases hzero : eth.framelength = 0
  · simp only [task, hpc, if_pos hzero]
    rw [hfilling.length_eq, List.length_eq_zero_iff] at hzero
    exact ⟨_, rfl, [], pending, h.ring, h.dma_eq, h.desc_eq, h.assembles,
      (taken_return_of_skip (.inr hzero)).trans htaken, rfl⟩
  · have hframe : eth.frame ≠ [] := by
      intro hnil
      rw [hfilling.length_eq, hnil] at hzero
      exact hzero rfl
    have hlt := hk.resolve_right hframe
    have hown : (eth.desc eth.TxDesc).own = false := by
      rw [h.desc_eq]
      exact own_eq_false_of_free h (k := 0) (by omega)
    have hoffset := hfilling.offset_eq
    have hle := hfilling.offset_le
    have hcount : bufcount_of eth.frame.length = k + 1 :=
      bufcount_of_eq hfilling.started (by rw [Nat.mul_succ]; omega)
    have hlength : eth.frame.length ≤ ETH_TX_BUF_SIZE * bufcount_of eth.frame.length := by
      rw [hcount, Nat.mul_succ]
      omega
    have hassembles := assemble_append h.assembles (segments_from eth.frame 0 (bufcount_of eth.frame.length))
    have hsegments : assemble [] (segments_from eth.frame 0 (bufcount_of eth.frame.length) ++ []) = _ :=
      assemble_segments (Nat.zero_add _) (by omega) hlength (.inl rfl) []
    rw [List.append_nil] at hsegments hassembles
    rw [hsegments] at hassembles
    simp only [task, hpc, if_neg hzero, hown, Bool.false_eq_true, if_false]
    refine ⟨_, rfl, segments_from eth.frame 0 (bufcount_of eth.frame.length), pending ++ [eth.frame], h.ring, h.dma_eq,
      h.desc_eq, hassembles, ?_, hframe, hfilling.length_eq, by rw [hfilling.length_eq], ?_, ?_, ?_, ?_, ?_⟩
    · simp only [taken]
      rw [← List.append_assoc, ← htaken]
      rfl
    · rw [hfilling.length_eq]
      exact hlength
    · rw [hfilling.length_eq, hcount]
      omega
    · rw [hfilling.length_eq, hcount]
      omega
    · rw [hfilling.length_eq]
      rfl
    · intro j hj
      rw [hfilling.length_eq, hcount] at hj
      rw [Nat.zero_add]
      exact hfilling.bytes j (by omega)

theorem lt_of_lt_bufcount_of {length i : Nat} (hi : i + 1 < bufcount_of length) :
    ETH_TX_BUF_SIZE * (i + 1) < length := by
  have hsize : ETH_TX_BUF_SIZE = 1524 := rfl
  rw [bufcount_of, hsize] at hi
  rw [hsize]
  by_cases hmany : length > 1524
  · rw [if_pos hmany] at hi
    by_cases hrest : length % 1524 ≠ 0
    · rw [if_pos hrest] at hi
      omega
    · rw [if_neg hrest] at hi
      omega
  · rw [if_neg hmany] at hi
    omega

theorem tbs1_of_eq {size : Nat} (hsize : size ≤ ETH_TX_BUF_SIZE) : tbs1_of size = size := by
  have hmod : tbs1_of size = size % 2 ^ 13 := Nat.and_two_pow_sub_one_eq_mod size 13
  rw [hmod]
  simp only [ETH_TX_BUF_SIZE, ETH_MAX_PACKET_SIZE] at hsize
  omega

/-- The descriptor given for a segment has just that segment in it. -/
theorem given_give_desc {desc : kfw.net.TxDesc} {frame : List UInt8} {i : Nat} (hi : i < bufcount_of frame.length)
    (hlength : frame.length ≤ ETH_TX_BUF_SIZE * bufcount_of frame.length)
    (hbytes : piece ETH_TX_BUF_SIZE i frame <+: desc.buffer.bytes) :
    (give_desc desc frame.length i (bufcount_of frame.length)).given = some (segment frame i) := by
  have hpiece := length_piece ETH_TX_BUF_SIZE i frame
  have hdata : ∀ size, size = (piece ETH_TX_BUF_SIZE i frame).length →
      desc.buffer.bytes.take (tbs1_of size) = piece ETH_TX_BUF_SIZE i frame := by
    intro size hsize
    rw [tbs1_of_eq (by omega), hsize]
    exact (List.prefix_iff_eq_take.mp hbytes).symm
  unfold give_desc
  by_cases hone : bufcount_of frame.length = 1
  · rw [if_pos hone, TxDesc.given, if_pos rfl, segment]
    rw [hone, Nat.mul_one] at hlength
    obtain rfl : i = 0 := by omega
    simp only
    rw [hdata _ (by omega)]
    simp [hone]
  · rw [if_neg hone]
    by_cases hlast : i = bufcount_of frame.length - 1
    · rw [if_pos hlast, TxDesc.given, if_pos rfl, segment]
      have hall : i + 1 = bufcount_of frame.length := by omega
      have hrest : frame.length ≤ ETH_TX_BUF_SIZE * i + ETH_TX_BUF_SIZE := by
        rw [← Nat.mul_succ, Nat.succ_eq_add_one, hall]
        exact hlength
      simp only
      rw [hdata _ (by rw [hpiece, ← hlast, Nat.mul_comm]; omega)]
      simp [hall]
    · rw [if_neg hlast, TxDesc.given, if_pos rfl, segment]
      have hmore : i + 1 < bufcount_of frame.length := by omega
      have hfull := lt_of_lt_bufcount_of hmore
      rw [Nat.mul_succ] at hfull
      simp only
      rw [hdata _ (by omega)]
      simp [Nat.ne_of_lt hmore]

theorem give_desc_buffer (desc : kfw.net.TxDesc) (FrameLength i bufcount : Nat) :
    (give_desc desc FrameLength i bufcount).buffer = desc.buffer := by
  unfold give_desc
  split
  · rfl
  · split <;> rfl

/-- In the loop of `HAL_ETH_TransmitFrame`: the next segment that is due goes in the queue. -/
theorem Queued.task_give (h : eth.Queued head items due pending) {i bufcount : Nat} (hpc : eth.pc = .give i bufcount)
    (p : List (List UInt8)) :
    ∃ next, eth.task p = ok next ∧ ∃ items due, next.Queued head items due pending := by
  have hphase := h.phase
  have htaken := h.taken_eq
  simp only [Phase, hpc] at hphase
  simp only [taken, hpc] at htaken
  obtain ⟨hframe, hlength, rfl, hfits, hi, hfree, rfl, hbytes⟩ := hphase
  obtain ⟨left, hleft⟩ : ∃ left, bufcount_of eth.frame.length - i = left + 1 := ⟨_, (Nat.succ_pred (by omega)).symm⟩
  have hfirst := hbytes 0 (by omega)
  rw [Nat.add_zero, Nat.add_zero, ← h.desc_eq] at hfirst
  have hring := h.ring.push (by omega) (segment eth.frame i)
  have hslots : (fun j => (Function.update eth.desc eth.TxDesc
      (give_desc (eth.desc eth.TxDesc) eth.framelength i (bufcount_of eth.frame.length)) j).given) =
      Function.update (fun j => (eth.desc j).given) ((head + items.length) % ETH_TXBUFNB)
        (some (segment eth.frame i)) := by
    funext j
    rw [← h.desc_eq]
    by_cases hj : j = eth.TxDesc
    · rw [hj, Function.update_self, Function.update_self, hlength]
      exact given_give_desc hi hfits hfirst
    · rw [Function.update_of_ne hj, Function.update_of_ne hj]
  rw [← hslots] at hring
  have hdesc : TxDesc.next eth.TxDesc = (head + (items ++ [segment eth.frame i]).length) % ETH_TXBUFNB := by
    rw [h.desc_eq, TxDesc.next_mod, List.length_append, List.length_singleton, Nat.add_assoc]
  have hassembles := h.assembles
  rw [hleft, segments_from, List.append_cons] at hassembles
  by_cases hmore : i + 1 < bufcount_of eth.frame.length
  · simp only [task, hpc, if_pos hmore]
    refine ⟨_, rfl, _, segments_from eth.frame (i + 1) left, hring, h.dma_eq, hdesc, hassembles, htaken, hframe,
      hlength, rfl, hfits, hmore, ?_, ?_, ?_⟩
    · simp only [List.length_append, List.length_singleton]
      omega
    · rw [show bufcount_of eth.frame.length - (i + 1) = left by omega]
    · intro j hj
      have hlater := hbytes (j + 1) (by omega)
      rw [Nat.add_comm j, ← Nat.add_assoc, ← Nat.add_assoc] at hlater
      have hbuffer : ∀ slot, (Function.update eth.desc eth.TxDesc
          (give_desc (eth.desc eth.TxDesc) eth.framelength i (bufcount_of eth.frame.length)) slot).buffer =
          (eth.desc slot).buffer := by
        intro slot
        by_cases hslot : slot = eth.TxDesc
        · rw [hslot, Function.update_self, give_desc_buffer]
        · rw [Function.update_of_ne hslot]
      rw [hbuffer, List.length_append, List.length_singleton, ← Nat.add_assoc]
      exact hlater
  · simp only [task, hpc, if_neg hmore]
    obtain rfl : left = 0 := by omega
    refine ⟨_, rfl, _, [], hring, h.dma_eq, hdesc, hassembles, ?_, rfl⟩
    exact (taken_return_of_sent hframe).trans htaken

/-- Every step keeps the order, if a chain that is started fits in the descriptors. -/
theorem Queued.step (h : eth.Queued head items due pending) {action : OutputAction} (hfits : eth.Fits action) :
    ∃ next, eth.step action = ok next ∧ ∃ head items due pending, next.Queued head items due pending := by
  cases action with
  | dma =>
    obtain ⟨head, pending, hnext⟩ := h.dma
    exact ⟨_, rfl, head, items.tail, due, pending, hnext⟩
  | task p =>
    cases hpc : eth.pc with
    | idle =>
      have hphase := h.phase
      have htaken := h.taken_eq
      simp only [Phase, hpc] at hphase
      simp only [taken, hpc] at htaken
      subst hphase
      simp only [EthernetOutput.step, task, hpc]
      refine ⟨_, rfl, head, items, [], pending, h.ring, h.dma_eq, h.desc_eq, h.assembles, htaken, rfl, hfits hpc,
        [], 0, ⟨h.desc_eq, rfl, Nat.zero_le _, rfl, .inl rfl, fun j hj => ?_⟩, .inr rfl, rfl⟩
      rw [piece, List.drop_nil, List.take_nil]
      exact List.nil_prefix
    | pbuf q =>
      obtain ⟨next, htask, hnext⟩ := h.task_pbuf hpc p
      exact ⟨next, htask, head, items, [], pending, hnext⟩
    | copy rest q =>
      obtain ⟨next, htask, hnext⟩ := h.task_copy hpc p
      exact ⟨next, htask, head, items, [], pending, hnext⟩
    | transmit =>
      obtain ⟨next, htask, due, pending, hnext⟩ := h.task_transmit hpc p
      exact ⟨next, htask, head, items, due, pending, hnext⟩
    | give i bufcount =>
      obtain ⟨next, htask, items, due, hnext⟩ := h.task_give hpc p
      exact ⟨next, htask, head, items, due, pending, hnext⟩

theorem queued_init (Tx_Buff : Nat → DmaBuffer) : (init Tx_Buff).Queued 0 [] [] [] where
  ring := Ring.empty ETH_TXBUFNB
  dma_eq := rfl
  desc_eq := rfl
  assembles := rfl
  taken_eq := rfl
  phase := rfl

/-- Left alone, the DMA empties the queue. -/
theorem Queued.drain (h : eth.Queued head items [] pending) (hpc : eth.pc = .idle) (n : Nat) :
    ∃ last, steps EthernetOutput.step eth (List.replicate n .dma) = ok last ∧ last.pc = .idle ∧
      last.accepted = eth.accepted ∧ ∃ head pending, last.Queued head (items.drop n) [] pending := by
  induction n generalizing eth head items pending with
  | zero => exact ⟨eth, rfl, hpc, rfl, head, pending, h⟩
  | succ n ih =>
    obtain ⟨head, pending, hnext⟩ := h.dma
    have hsame : eth.dma_step.pc = eth.pc ∧ eth.dma_step.accepted = eth.accepted := by
      cases hown : (eth.desc eth.dma).own <;> simp [dma_step, hown, accepted]
    obtain ⟨last, hsteps, hlast, haccepted, hqueued⟩ := ih hnext (hsame.1.trans hpc)
    rw [List.drop_tail] at hqueued
    exact ⟨last, hsteps, hlast, haccepted.trans hsame.2, hqueued⟩

/-- However the steps of the driver and of the DMA follow each other, the driver never writes
to a buffer that the DMA owns, and the frames on the wire are those taken, whole and in the
order of the calls: the rest of them follows when the DMA is left alone. -/
theorem output_in_order {Tx_Buff : Nat → DmaBuffer} {actions : List OutputAction}
    (hfits : Along step Fits (init Tx_Buff) actions) :
    ∃ last, steps step (init Tx_Buff) actions = ok last ∧ last.wire <+: last.taken ∧
      (last.pc = .idle → ∃ drained, steps step last (List.replicate ETH_TXBUFNB .dma) = ok drained ∧
        drained.wire = last.accepted) := by
  obtain ⟨last, hsteps, head, items, due, pending, hlast⟩ :=
    hfits.steps_total (fun eth => ∃ head items due pending, eth.Queued head items due pending)
      (fun eth action ⟨_, _, _, _, heth⟩ haction => heth.step haction) ⟨0, [], [], [], queued_init Tx_Buff⟩
  refine ⟨last, hsteps, ⟨pending, hlast.taken_eq.symm⟩, fun hpc => ?_⟩
  have hphase := hlast.phase
  simp only [Phase, hpc] at hphase
  subst hphase
  obtain ⟨drained, hdrain, hidle, haccepted, head, pending, hqueued⟩ := hlast.drain hpc ETH_TXBUFNB
  rw [List.drop_of_length_le hlast.ring.length_le] at hqueued
  have hassembles := hqueued.assembles
  have htaken := hqueued.taken_eq
  simp only [List.append_nil, assemble, Prod.mk.injEq] at hassembles
  rw [← hassembles.1, List.append_nil] at htaken
  simp only [taken, hidle] at htaken
  exact ⟨drained, hdrain, htaken.symm.trans haccepted⟩

/-- A frame of two buffers and one of a single byte, with the DMA at work in between. -/
def two_calls : List OutputAction :=
  List.replicate 8 (.task [[1], [2, 3]]) ++ .dma :: List.replicate 6 (.task [[4]])

theorem fits_two_calls : Along step Fits (init fun _ => .cleared) two_calls := by
  refine .of_forall fun action haction eth => ?_
  rcases List.mem_append.mp haction with haction | haction
  · rw [List.eq_of_mem_replicate haction]
    exact fun _ => by decide
  · rcases List.mem_cons.mp haction with rfl | haction
    · trivial
    · rw [List.eq_of_mem_replicate haction]
      exact fun _ => by decide

/-- Both frames are taken and come out. -/
theorem output_in_order_two_calls :
    ∃ last drained, steps step (init fun _ => .cleared) two_calls = ok last ∧ last.wire <+: last.taken ∧
      steps step last (List.replicate ETH_TXBUFNB .dma) = ok drained ∧ drained.wire = [[1, 2, 3], [4]] := by
  obtain ⟨last, hsteps, hwire, hdrains⟩ := output_in_order fits_two_calls
  have hrun : (do
      let last ← steps step (init fun _ => .cleared) two_calls
      ok (decide (last.pc = .idle ∧ last.accepted = [[1, 2, 3], [4]])) : Exec _) = ok true := by decide +kernel
  rw [hsteps, bind_ok, ok.injEq, decide_eq_true_eq] at hrun
  obtain ⟨drained, hdrain, hdrained⟩ := hdrains hrun.1
  exact ⟨last, drained, hsteps, hwire, hdrain, hdrained.trans hrun.2⟩

end EthernetOutput

end kfw.net
