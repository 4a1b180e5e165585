import Kfw.Net.Ethernet.Input

open exec Result

namespace kfw.net

/-- A descriptor that the driver holds. -/
def RxDesc.held (desc : RxDesc) : Option RxDesc := if desc.own then none else some desc

theorem RxDesc.held_eq_none_iff {desc : RxDesc} : desc.held = none ↔ desc.own = true := by
  cases hown : desc.own <;> simp [held, hown]

theorem RxDesc.eq_of_held {desc item : RxDesc} (h : desc.held = some item) : desc.own = false ∧ item = desc := by
  cases hown : desc.own with
  | false => simpa [held, hown, eq_comm] using h
  | true => simp [held, hown] at h

theorem RxDesc.next_mod (pos : Nat) : RxDesc.next (pos % ETH_RXBUFNB) = (pos + 1) % ETH_RXBUFNB :=
  next_desc_mod (by decide) pos

/-- The chain has room for just the length asked for, if the pool has as many buffers, and is
no longer than that. -/
theorem pbuf_alloc_eq_some {pool len : Nat} (hlen : 0 < len) (hpool : len ≤ PBUF_POOL_BUFSIZE * pool) :
    ∃ q, pbuf_alloc pool len = some q ∧ q.sum = len ∧ q.length ≤ len := by
  have hbuffer : 0 < PBUF_POOL_BUFSIZE := by decide
  induction pool generalizing len with
  | zero => omega
  | succ pool ih =>
    rw [Nat.mul_succ] at hpool
    rw [pbuf_alloc]
    by_cases hmore : len - min len PBUF_POOL_BUFSIZE > 0
    · obtain ⟨q, hq, hsum, hlength⟩ := ih hmore (by omega)
      refine ⟨min len PBUF_POOL_BUFSIZE :: q, by simp only [if_pos hmore, hq, Option.map_some], ?_, ?_⟩
      · rw [List.sum_cons, hsum]
        omega
      · rw [List.length_cons]
        omega
    · refine ⟨[min len PBUF_POOL_BUFSIZE], by simp only [if_neg hmore], ?_, hlen⟩
      rw [List.sum_singleton]
      omega

theorem pbuf_alloc_eq_none {pool len : Nat} (hpool : PBUF_POOL_BUFSIZE * pool < len) : pbuf_alloc pool len = none := by
  induction pool generalizing len with
  | zero => rfl
  | succ pool ih =>
    rw [Nat.mul_succ] at hpool
    rw [pbuf_alloc]
    simp only [if_pos (by omega : len - min len PBUF_POOL_BUFSIZE > 0),
      ih (by omega : _ < len - min len PBUF_POOL_BUFSIZE), Option.map_none]

namespace EthernetReceive

/-- A frame with its checksum, of a length that the descriptor has room for. -/
def Whole (frame : List UInt8) : Prop := 4 ≤ frame.length ∧ frame.length < 2 ^ 14

/-- The number of descriptors that a frame takes. -/
def segcount (frame : List UInt8) : Nat := (frame.length + (ETH_RX_BUF_SIZE - 1)) / ETH_RX_BUF_SIZE

/-- The segments of a frame, by their numbers. -/
def segments (frame : List UInt8) : List (List UInt8 × Nat) := (List.range (segcount frame)).map fun i => (frame, i)

/-- The segments that are stored of a frame that is not complete. -/
def stored : Option (List UInt8 × Nat) → List (List UInt8 × Nat)
  | none => []
  | some (frame, n) => (List.range n).map fun i => (frame, i)

/-- A descriptor has a segment of a frame. -/
structure Holds (desc : kfw.net.RxDesc) (segment : List UInt8 × Nat) : Prop where
  fs_eq : desc.fs = decide (segment.2 = 0)
  ls_eq : desc.ls = decide (segment.2 + 1 = segcount segment.1)
  fl_eq : segment.2 + 1 = segcount segment.1 → desc.fl = segment.1.length
  bytes : piece ETH_RX_BUF_SIZE segment.2 segment.1 <+: desc.buffer.bytes

/-- What a call returns for a frame: the frame without its checksum, if there was anything
in it and the pool had the buffers. -/
def Answered (frame : List UInt8) (answer : Nat × Option (List (List UInt8))) : Prop :=
  answer.2.map List.flatten =
    if 4 < frame.length ∧ frame.length - 4 ≤ PBUF_POOL_BUFSIZE * answer.1 then some (frame.take (frame.length - 4))
    else none

/-- The frames in the descriptors, whole ones first. -/
def frames (waiting : List (List UInt8)) (storing : Option (List UInt8 × Nat)) : List (List UInt8) :=
  waiting ++ (storing.map Prod.fst).toList

/-- The scan has passed the first segments of the first frame. -/
structure Scanning (eth : EthernetReceive) (head n : Nat) (waiting : List (List UInt8)) : Prop where
  desc_eq : eth.RxDesc = (head + eth.SegCount) % ETH_RXBUFNB
  count_le : eth.SegCount ≤ n
  first : eth.SegCount = 0 ∨ eth.FSRxDesc = head % ETH_RXBUFNB ∧
    ∃ frame, (frames waiting eth.storing).head? = some frame ∧ eth.SegCount < segcount frame

/-- The scan has found the end of the first frame, of which `released` segments are given back. -/
structure Fetching (eth : EthernetReceive) (head released : Nat) (frame : List UInt8) : Prop where
  desc_eq : eth.RxDesc = (head + (segcount frame - released)) % ETH_RXBUFNB
  count_eq : eth.SegCount = segcount frame

/-- The copy is in the segment with number `k`, with `left` bytes to go. -/
structure Copying (eth : EthernetReceive) (head : Nat) (frame : List UInt8) (k : Nat) (copied : List UInt8)
    (left : Nat) : Prop where
  desc_eq : eth.dmarxdesc = (head + k) % ETH_RXBUFNB
  count_lt : k < segcount frame
  offset_le : eth.bufferoffset ≤ ETH_RX_BUF_SIZE
  copied_eq : copied = frame.take (ETH_RX_BUF_SIZE * k + eth.bufferoffset)
  left_eq : ETH_RX_BUF_SIZE * k + eth.bufferoffset + left = frame.length - 4

/-- How far a call is, with `n` descriptors from the position `head` on that the driver holds. -/
def Phase (eth : EthernetReceive) (head released n : Nat) (waiting : List (List UInt8)) : Prop :=
  match eth.pc with
  | .idle => released = 0 ∧ eth.Scanning head n waiting
  | .scan descriptorscancounter =>
    released = 0 ∧ eth.Scanning head n waiting ∧ descriptorscancounter ≤ eth.SegCount
  | .alloc => released = 0 ∧ ∃ frame rest, waiting = frame :: rest ∧ eth.Fetching head 0 frame ∧
    eth.FSRxDesc = head % ETH_RXBUFNB ∧ eth.length = frame.length - 4
  | .pbuf q => released = 0 ∧ ∃ frame rest, waiting = frame :: rest ∧ eth.Fetching head 0 frame ∧
    eth.FSRxDesc = head % ETH_RXBUFNB ∧ 4 < frame.length ∧ frame.length - 4 ≤ PBUF_POOL_BUFSIZE * eth.pool ∧
    ∃ chain k, eth.p = some chain ∧ eth.Copying head frame k chain.flatten q.sum
  | .copy byteslefttocopy q => released = 0 ∧ ∃ frame rest, waiting = frame :: rest ∧ eth.Fetching head 0 frame ∧
    eth.FSRxDesc = head % ETH_RXBUFNB ∧ 4 < frame.length ∧ frame.length - 4 ≤ PBUF_POOL_BUFSIZE * eth.pool ∧
    ∃ chain k, eth.p = some chain ∧
      eth.Copying head frame k (chain.flatten ++ eth.payload) (byteslefttocopy + q.sum)
  | .release i => released = i ∧ ∃ frame rest, waiting = frame :: rest ∧ eth.Fetching head i frame ∧
    i ≤ segcount frame ∧ eth.dmarxdesc = head % ETH_RXBUFNB ∧ Answered frame (eth.pool, eth.p)

/-- The descriptors that the driver holds are a queue of the segments of the frames that were
received and not fetched yet, with those of the frame that the DMA is storing behind them. -/
structure Held (eth : EthernetReceive) (head released : Nat) (items : List kfw.net.RxDesc)
    (done waiting : List (List UInt8)) : Prop where
  ring : Ring ETH_RXBUFNB (fun i => (eth.desc i).held) head items
  dma_eq : eth.dma = (head + items.length) % ETH_RXBUFNB
  holds : List.Forall₂ Holds items ((waiting.flatMap segments).drop released ++ stored eth.storing)
  received_eq : eth.received = done ++ waiting
  answered : List.Forall₂ Answered done eth.fetched
  whole : ∀ frame ∈ waiting, Whole frame
  storing : ∀ frame n, eth.storing = some (frame, n) →
    Whole frame ∧ 0 < n ∧ n < segcount frame ∧ items.length < ETH_RXBUFNB
  phase : eth.Phase head released items.length waiting

/-- The DMA does not have to cut a frame short. -/
def Uncut (eth : EthernetReceive) : ReceiveAction → Prop
  | .task _ _ => True
  | .dma frame _ =>
    Whole (eth.storing.getD (frame, 0)).1 ∧
      ((eth.storing.getD (frame, 0)).1.length ≤ ETH_RX_BUF_SIZE * ((eth.storing.getD (frame, 0)).2 + 1) ∨
        (eth.desc (RxDesc.next eth.dma)).own = true)

instance Uncut.decidable (eth : EthernetReceive) : ∀ action, Decidable (eth.Uncut action)
  | .task _ _ => .isTrue trivial
  | .dma _ _ => inferInstanceAs (Decidable ((_ ∧ _) ∧ _))

/-- As many steps of the driver are enough to fetch a frame of which no segment is scanned. -/
def fetch_steps (frame : List UInt8) : Nat := 2 * segcount frame + 5 * frame.length + 4

/-- As many are enough from where a call is with the frame. -/
def steps_left (eth : EthernetReceive) (frame : List UInt8) : Nat :=
  match eth.pc with
  | .idle => segcount frame - eth.SegCount + (segcount frame + 5 * frame.length + 4)
  | .scan _ => segcount frame - eth.SegCount + (segcount frame + 5 * frame.length + 3)
  | .alloc => segcount frame + 5 * frame.length + 3
  -- a copy that fills a descriptor up to its end needs a step to go on from there
  | .pbuf q => eth.SegCount + 3 * q.length + 2 * q.sum + eth.bufferoffset / ETH_RX_BUF_SIZE + 2
  | .copy byteslefttocopy q =>
    eth.SegCount + 3 * q.length + 2 * (byteslefttocopy + q.sum) + eth.bufferoffset / ETH_RX_BUF_SIZE + 4
  | .release i => eth.SegCount - i + 1

/-- As many steps of the driver are enough to fetch all frames that wait. -/
def work (eth : EthernetReceive) : List (List UInt8) → Nat
  | [] => 0
  | frame :: rest => eth.steps_left frame + (rest.map fetch_steps).sum

variable {eth next : EthernetReceive} {head released n i k left : Nat} {items : List kfw.net.RxDesc}
  {done waiting rest : List (List UInt8)} {frame copied : List UInt8}

theorem segcount_pos (h : Whole frame) : 0 < segcount frame := by
  have hlength := h.1
  simp only [segcount, ETH_RX_BUF_SIZE, ETH_MAX_PACKET_SIZE]
  omega

theorem last_segment_iff (hi : i < segcount frame) :
    frame.length ≤ ETH_RX_BUF_SIZE * (i + 1) ↔ i + 1 = segcount frame := by
  simp only [segcount, ETH_RX_BUF_SIZE, ETH_MAX_PACKET_SIZE] at hi ⊢
  omega

theorem lt_segcount_of_lt (hi : ETH_RX_BUF_SIZE * i < frame.length) : i < segcount frame := by
  simp only [segcount, ETH_RX_BUF_SIZE, ETH_MAX_PACKET_SIZE] at hi ⊢
  omega

theorem length_segments (frame : List UInt8) : (segments frame).length = segcount frame := by
  rw [segments, List.length_map, List.length_range]

/-- The first segments in the queue are those of the first frame. -/
theorem getElem?_segments (hk : k < segcount frame) (more : List (List UInt8 × Nat)) :
    ((frame :: rest).flatMap segments ++ more)[k]? = some (frame, k) := by
  rw [List.flatMap_cons, List.append_assoc, List.getElem?_append_left (by rwa [length_segments]), segments,
    List.getElem?_map, List.getElem?_range hk, Option.map_some]

theorem drop_segments (hi : i < segcount frame) :
    ((frame :: rest).flatMap segments).drop i = (frame, i) :: ((frame :: rest).flatMap segments).drop (i + 1) := by
  have hget : ((frame :: rest).flatMap segments ++ [])[i]? = some (frame, i) := getElem?_segments hi []
  rw [List.append_nil] at hget
  obtain ⟨hlt, hget⟩ := List.getElem?_eq_some_iff.mp hget
  rw [List.drop_eq_getElem_cons hlt, hget]

theorem drop_segcount (frame : List UInt8) (rest : List (List UInt8)) :
    ((frame :: rest).flatMap segments).drop (segcount frame) = rest.flatMap segments := by
  rw [List.flatMap_cons, List.drop_left' (length_segments frame)]

/-- A segment of the queue is in its descriptor, and the driver holds it. -/
theorem Held.desc_holds (h : eth.Held head released items done waiting) {segment : List UInt8 × Nat}
    (hsegment : ((waiting.flatMap segments).drop released ++ stored eth.storing)[i]? = some segment) :
    i < items.length ∧ (eth.desc ((head + i) % ETH_RXBUFNB)).own = false ∧
      Holds (eth.desc ((head + i) % ETH_RXBUFNB)) segment := by
  obtain ⟨hlt, hget⟩ := List.getElem?_eq_some_iff.mp hsegment
  have hi : i < items.length := by rwa [h.holds.length_eq]
  have hholds := h.holds.get hi hlt
  have hslot := h.ring.slot_eq i (Nat.lt_of_lt_of_le hi h.ring.length_le)
  rw [List.getElem?_eq_getElem hi] at hslot
  obtain ⟨hown, hitem⟩ := RxDesc.eq_of_held hslot
  simp only [List.get_eq_getElem, hget, hitem] at hholds
  exact ⟨hi, hown, hholds⟩

theorem Scanning.lt_segcount (h : eth.Scanning head n (frame :: rest)) (hwhole : Whole frame) :
    eth.SegCount < segcount frame := by
  rcases h.first with hzero | ⟨-, other, hother, hlt⟩
  · rw [hzero]
    exact segcount_pos hwhole
  · cases hother
    exact hlt

/-- A frame whose last segment is in a descriptor is there as a whole. -/
theorem Held.waiting_of_last (h : eth.Held head 0 items done waiting)
    (hfirst : (frames waiting eth.storing).head? = some frame) (hk : k < items.length)
    (hlast : k + 1 = segcount frame) : ∃ rest, waiting = frame :: rest := by
  cases waiting with
  | cons other rest =>
    cases hfirst
    exact ⟨rest, rfl⟩
  | nil =>
    have hlength := h.holds.length_eq
    cases hstoring : eth.storing with
    | none =>
      rw [hstoring] at hfirst
      cases hfirst
    | some storing =>
      obtain ⟨other, n⟩ := storing
      obtain ⟨-, -, hn, -⟩ := h.storing other n hstoring
      rw [hstoring] at hfirst hlength
      cases hfirst
      have hitems : items.length = n := by simpa [stored] using hlength
      simp only at hlast
      omega

/-- The descriptor at which the scan is has the next segment of the first frame, if the driver
holds it. -/
theorem Held.scanned (h : eth.Held head 0 items done waiting) (hscan : eth.Scanning head items.length waiting)
    (hown : (eth.desc eth.RxDesc).own = false) :
    eth.SegCount < items.length ∧ ∃ frame, (frames waiting eth.storing).head? = some frame ∧
      eth.SegCount < segcount frame ∧ Holds (eth.desc eth.RxDesc) (frame, eth.SegCount) := by
  rw [hscan.desc_eq] at hown ⊢
  cases hwaiting : waiting with
  | cons frame rest =>
    subst hwaiting
    have hlt := hscan.lt_segcount (h.whole frame List.mem_cons_self)
    obtain ⟨hitem, -, hholds⟩ := h.desc_holds (getElem?_segments hlt _)
    exact ⟨hitem, frame, rfl, hlt, hholds⟩
  | nil =>
    subst hwaiting
    have hlength := h.holds.length_eq
    cases hstoring : eth.storing with
    | none =>
      rw [hstoring] at hlength
      have hnil : items.length = 0 := hlength
      have hzero : eth.SegCount = 0 := Nat.le_zero.mp (hnil ▸ hscan.count_le)
      have hnone := h.ring.slot_behind (i := 0) (by rw [hnil]; decide)
      rw [hnil, Nat.add_zero, RxDesc.held_eq_none_iff] at hnone
      rw [hzero, Nat.add_zero, hnone] at hown
      cases hown
    | some storing =>
      obtain ⟨frame, n⟩ := storing
      obtain ⟨hwhole, hpositive, hn, hroom⟩ := h.storing frame n hstoring
      rw [hstoring] at hlength
      have hitems : items.length = n := by simpa [stored] using hlength
      have hlt : eth.SegCount < n := by
        refine Nat.lt_of_le_of_ne (hitems ▸ hscan.count_le) fun heq => ?_
        have hnone := h.ring.slot_behind (i := 0) hroom
        rw [hitems, Nat.add_zero, RxDesc.held_eq_none_iff] at hnone
        rw [heq, hnone] at hown
        cases hown
      have hget : (stored eth.storing)[eth.SegCount]? = some (frame, eth.SegCount) := by
        rw [hstoring, stored, List.getElem?_map, List.getElem?_range hlt, Option.map_some]
      obtain ⟨hitem, -, hholds⟩ := h.desc_holds hget
      exact ⟨hitem, frame, rfl, Nat.lt_trans hlt hn, hholds⟩

theorem work_of_steps_left (h : next.steps_left frame < eth.steps_left frame) :
    next.work (frame :: rest) ≤ eth.work (frame :: rest) - 1 := by
  simp only [work]
  omega

theorem work_of_scanned (hfirst : (frames waiting eth.storing).head? = some frame)
    (h : next.steps_left frame < eth.steps_left frame) : next.work waiting ≤ eth.work waiting - 1 := by
  cases waiting with
  | nil => exact Nat.zero_le _
  | cons other rest =>
    cases hfirst
    exact work_of_steps_left h

/-- Between two calls, with nothing scanned yet. -/
theorem work_idle (hpc : eth.pc = .idle) (hcount : eth.SegCount = 0) :
    eth.work waiting = (waiting.map fetch_steps).sum := by
  cases waiting with
  | nil => rfl
  | cons frame rest =>
    simp only [work, steps_left, hpc, hcount, List.map_cons, List.sum_cons, fetch_steps]
    omega

theorem waiting_of_work (h : eth.work waiting = 0) : waiting = [] := by
  cases waiting with
  | nil => rfl
  | cons frame rest =>
    have hleft : 0 < eth.steps_left frame := by
      unfold steps_left
      split <;> exact Nat.succ_pos _
    simp only [work] at h
    omega

/-- The scan does not give up while a whole frame is in the descriptors. -/
theorem Held.scan_goes_on (h : eth.Held head 0 items done (frame :: rest))
    (hscan : eth.Scanning head items.length (frame :: rest)) (hcount : k ≤ eth.SegCount) :
    (eth.desc eth.RxDesc).own = false ∧ k < ETH_RXBUFNB := by
  have hlt := hscan.lt_segcount (h.whole frame List.mem_cons_self)
  obtain ⟨hitem, hown, -⟩ := h.desc_holds (getElem?_segments hlt _)
  have hle := h.ring.length_le
  rw [← hscan.desc_eq] at hown
  exact ⟨hown, by omega⟩

/-- In the loop of `HAL_ETH_GetReceivedFrame_IT`. -/
theorem Held.task_scan (h : eth.Held head released items done waiting) (hpc : eth.pc = .scan k) (locked : Bool)
    (pool : Nat) : ∃ next, eth.task locked pool = ok next ∧ next.work waiting ≤ eth.work waiting - 1 ∧
      next.Held head 0 items done waiting ∧ (next.pc = .idle → waiting = []) := by
  have hphase := h.phase
  simp only [Phase, hpc] at hphase
  obtain ⟨rfl, hscan, hcount⟩ := hphase
  by_cases hgo : (eth.desc eth.RxDesc).own = false ∧ k < ETH_RXBUFNB
  · obtain ⟨hitem, frame, hfirst, hlt, hholds⟩ := h.scanned hscan hgo.1
    have hnext : RxDesc.next eth.RxDesc = (head + (eth.SegCount + 1)) % ETH_RXBUFNB := by
      rw [hscan.desc_eq, RxDesc.next_mod, Nat.add_assoc]
    have hfs := hholds.fs_eq
    have hls := hholds.ls_eq
    simp only at hfs hls
    by_cases hlast : eth.SegCount + 1 = segcount frame
    · obtain ⟨rest, rfl⟩ := h.waiting_of_last hfirst hitem hlast
      have hwhole := h.whole frame List.mem_cons_self
      rw [decide_eq_true hlast] at hls
      simp only [task, hpc, if_pos hgo, hls, not_true_eq_false, and_false, false_and, if_false]
      refine ⟨_, rfl, work_of_steps_left ?_, ⟨h.ring, h.dma_eq, h.holds, h.received_eq, h.answered, h.whole, h.storing,
        rfl, frame, rest, rfl, ⟨?_, hlast⟩, ?_, ?_⟩, fun hidle => by cases hidle⟩
      · simp only [steps_left, hpc]
        omega
      · rw [hnext, hlast]
        rfl
      · by_cases hzero : eth.SegCount = 0
        · simp only [hzero, if_true]
          rw [hscan.desc_eq, hzero, Nat.add_zero]
        · simp only [Nat.add_eq_right, if_neg hzero]
          exact (hscan.first.resolve_left hzero).1
      · simp only [hholds.fl_eq hlast]
        have hlength := hwhole.1
        have hfield := hwhole.2
        omega
    · rw [decide_eq_false hlast] at hls
      have hmore : eth.SegCount + 1 < segcount frame := by omega
      by_cases hzero : eth.SegCount = 0
      · rw [decide_eq_true hzero] at hfs
        simp only [task, hpc, if_pos hgo, hls, hfs, Bool.false_eq_true, not_false_eq_true, and_self, if_true]
        rw [hzero] at hnext hmore hitem
        refine ⟨_, rfl, work_of_scanned hfirst ?_, ⟨h.ring, h.dma_eq, h.holds, h.received_eq, h.answered, h.whole,
          h.storing, rfl, ⟨hnext, hitem, .inr ⟨?_, frame, hfirst, hmore⟩⟩, by simp only; omega⟩,
          fun hidle => by cases hidle⟩
        · simp only [steps_left, hpc]
          omega
        · rw [hscan.desc_eq, hzero, Nat.add_zero]
      · rw [decide_eq_false hzero] at hfs
        simp only [task, hpc, if_pos hgo, hls, hfs, Bool.false_eq_true, not_false_eq_true, and_self, false_and, if_true,
          if_false]
        refine ⟨_, rfl, work_of_scanned hfirst ?_, ⟨h.ring, h.dma_eq, h.holds, h.received_eq, h.answered, h.whole,
          h.storing, rfl, ⟨hnext, hitem, .inr ⟨(hscan.first.resolve_left hzero).1, frame, hfirst, hmore⟩⟩,
          Nat.succ_le_succ hcount⟩, fun hidle => by cases hidle⟩
        simp only [steps_left, hpc]
        omega
  · obtain rfl : waiting = [] := by
      cases waiting with
      | nil => rfl
      | cons frame rest => exact absurd (h.scan_goes_on hscan hcount) hgo
    simp only [task, hpc, if_neg hgo]
    exact ⟨_, rfl, Nat.zero_le _, ⟨h.ring, h.dma_eq, h.holds, h.received_eq, h.answered, h.whole, h.storing, rfl,
      hscan.desc_eq, hscan.count_le, hscan.first⟩, fun _ => trivial⟩

/-- Before `pbuf_alloc`. -/
theorem Held.task_alloc (h : eth.Held head released items done waiting) (hpc : eth.pc = .alloc) (locked : Bool)
    (pool : Nat) : ∃ next, eth.task locked pool = ok next ∧ next.pc ≠ .idle ∧
      next.work waiting ≤ eth.work waiting - 1 ∧ next.Held head 0 items done waiting := by
  have hphase := h.phase
  simp only [Phase, hpc] at hphase
  obtain ⟨rfl, frame, rest, rfl, hfetching, hfs, hlength⟩ := hphase
  have hwhole := h.whole frame List.mem_cons_self
  have hlen : eth.length % 2 ^ 16 = frame.length - 4 := by
    have hfield := hwhole.2
    rw [hlength]
    omega
  by_cases henough : 4 < frame.length ∧ frame.length - 4 ≤ PBUF_POOL_BUFSIZE * pool
  · obtain ⟨q, hq, hsum, hchain⟩ := pbuf_alloc_eq_some (by omega) henough.2
    simp only [task, hpc, hlen, if_pos (by omega : frame.length - 4 > 0), hq]
    refine ⟨_, rfl, by simp, work_of_steps_left ?_, h.ring, h.dma_eq, h.holds, h.received_eq, h.answered, h.whole,
      h.storing, rfl, frame, rest, rfl, ⟨hfetching.desc_eq, hfetching.count_eq⟩, hfs, henough.1, henough.2, [], 0, rfl,
      hfs, segcount_pos hwhole, Nat.zero_le _, rfl, ?_⟩
    · simp only [steps_left, hpc, hfetching.count_eq, hsum, Nat.zero_div]
      omega
    · rw [hsum]
      exact Nat.zero_add _
  · have hnone : (if frame.length - 4 > 0 then pbuf_alloc pool (frame.length - 4) else none) = none := by
      split
      · exact pbuf_alloc_eq_none (by omega)
      · rfl
    simp only [task, hpc, hlen, hnone]
    refine ⟨_, rfl, by simp, work_of_steps_left ?_, h.ring, h.dma_eq, h.holds, h.received_eq, h.answered, h.whole,
      h.storing, rfl, frame, rest, rfl, ⟨hfetching.desc_eq, hfetching.count_eq⟩, Nat.zero_le _, hfs, ?_⟩
    · simp only [steps_left, hpc, hfetching.count_eq]
      omega
    · rw [Answered, if_neg henough]
      rfl

/-- At the head of the loop over the chain. -/
theorem Held.task_pbuf (h : eth.Held head released items done waiting) {q : List Nat} (hpc : eth.pc = .pbuf q)
    (locked : Bool) (pool : Nat) :
    ∃ next, eth.task locked pool = ok next ∧ next.pc ≠ .idle ∧ next.work waiting ≤ eth.work waiting - 1 ∧
      next.Held head 0 items done waiting := by
  have hphase := h.phase
  simp only [Phase, hpc] at hphase
  obtain ⟨rfl, frame, rest, rfl, hfetching, hfs, hsome, henough, chain, k, hchain, hcopying⟩ := hphase
  cases q with
  | nil =>
    simp only [task, hpc]
    refine ⟨_, rfl, by simp, work_of_steps_left ?_, h.ring, h.dma_eq, h.holds, h.received_eq, h.answered, h.whole,
      h.storing, rfl, frame, rest, rfl, ⟨hfetching.desc_eq, hfetching.count_eq⟩, Nat.zero_le _, hfs, ?_⟩
    · simp only [steps_left, hpc, ETH_RX_BUF_SIZE, ETH_MAX_PACKET_SIZE]
      omega
    · have hleft := hcopying.left_eq
      rw [List.sum_nil, Nat.add_zero] at hleft
      rw [Answered, if_pos ⟨hsome, henough⟩, ← hleft, ← hcopying.copied_eq, hchain]
      rfl
  | cons len q =>
    simp only [task, hpc]
    refine ⟨_, rfl, by simp, work_of_steps_left ?_, h.ring, h.dma_eq, h.holds, h.received_eq, h.answered, h.whole,
      h.storing, rfl, frame, rest, rfl, ⟨hfetching.desc_eq, hfetching.count_eq⟩, hfs, hsome, henough, chain, k, hchain,
      hcopying.desc_eq, hcopying.count_lt, hcopying.offset_le, ?_, ?_⟩
    · simp only [steps_left, hpc, List.length_cons, List.sum_cons]
      omega
    · rw [List.append_nil]
      exact hcopying.copied_eq
    · rw [← List.sum_cons]
      exact hcopying.left_eq

/-- A copy from the descriptor at which the driver is reads on in the frame. -/
theorem Held.memcpy (h : eth.Held head 0 items done (frame :: rest)) (hcopying : eth.Copying head frame k copied left)
    {size : Nat} (hsize : eth.bufferoffset + size ≤ ETH_RX_BUF_SIZE) (hleft : size ≤ left) :
    ∃ data, (eth.desc eth.dmarxdesc).memcpy eth.bufferoffset size = ok data ∧ 
      copied ++ data = frame.take (ETH_RX_BUF_SIZE * k + (eth.bufferoffset + size)) := by
  obtain ⟨-, hown, hholds⟩ := h.desc_holds (getElem?_segments hcopying.count_lt _)
  rw [← hcopying.desc_eq] at hown hholds
  have hend := hcopying.left_eq
  have hpiece := length_piece ETH_RX_BUF_SIZE k frame
  have hget := DmaBuffer.get_within hholds.bytes
    (by omega : eth.bufferoffset + size ≤ (piece ETH_RX_BUF_SIZE k frame).length)
  refine ⟨_, by rw [RxDesc.memcpy, hown, if_neg Bool.false_ne_true, hget], ?_⟩
  rw [hcopying.copied_eq, ← Nat.add_assoc, List.take_add (i := ETH_RX_BUF_SIZE * k + eth.bufferoffset)]
  congr 1
  rw [piece, List.drop_take, List.drop_drop, List.take_take, Nat.min_eq_left (by omega)]

/-- In the loop of one buffer. -/
theorem Held.task_copy (h : eth.Held head released items done waiting) {q : List Nat} (hpc : eth.pc = .copy left q)
    (locked : Bool) (pool : Nat) :
    ∃ next, eth.task locked pool = ok next ∧ next.pc ≠ .idle ∧ next.work waiting ≤ eth.work waiting - 1 ∧
      next.Held head 0 items done waiting := by
  have hphase := h.phase
  simp only [Phase, hpc] at hphase
  obtain ⟨rfl, frame, rest, rfl, hfetching, hfs, hsome, henough, chain, k, hchain, hcopying⟩ := hphase
  have hle := hcopying.offset_le
  have hend := hcopying.left_eq
  by_cases hwrap : left + eth.bufferoffset > ETH_RX_BUF_SIZE
  · obtain ⟨data, hmemcpy, hdata⟩ := h.memcpy hcopying
      (by omega : eth.bufferoffset + (ETH_RX_BUF_SIZE - eth.bufferoffset) ≤ ETH_RX_BUF_SIZE) (by omega)
    simp only [task, hpc, if_pos hwrap, hmemcpy, bind_ok]
    refine ⟨_, rfl, by simp, work_of_steps_left ?_, h.ring, h.dma_eq, h.holds, h.received_eq, h.answered, h.whole,
      h.storing, rfl, frame, rest, rfl, ⟨hfetching.desc_eq, hfetching.count_eq⟩, hfs, hsome, henough, chain, k + 1,
      hchain, ?_, ?_, Nat.zero_le _, ?_, ?_⟩
    · simp only [steps_left, hpc]
      simp only [ETH_RX_BUF_SIZE, ETH_MAX_PACKET_SIZE] at hwrap hle ⊢
      omega
    · simp only
      rw [hcopying.desc_eq, RxDesc.next_mod, Nat.add_assoc]
    · apply lt_segcount_of_lt
      rw [Nat.mul_succ]
      omega
    · rw [← List.append_assoc, hdata, Nat.add_sub_cancel' hle]
      rfl
    · simp only [Nat.mul_succ]
      omega
  · obtain ⟨data, hmemcpy, hdata⟩ := h.memcpy hcopying
      (by omega : eth.bufferoffset + left ≤ ETH_RX_BUF_SIZE) (by omega)
    simp only [task, hpc, if_neg hwrap, hmemcpy, bind_ok]
    refine ⟨_, rfl, by simp, work_of_steps_left ?_, h.ring, h.dma_eq, h.holds, h.received_eq, h.answered, h.whole,
      h.storing, rfl, frame, rest, rfl, ⟨hfetching.desc_eq, hfetching.count_eq⟩, hfs, hsome, henough,
      chain ++ [eth.payload ++ data], k, ?_, hcopying.desc_eq, hcopying.count_lt, by simp only; omega, ?_,
      by simp only; omega⟩
    · simp only [steps_left, hpc]
      simp only [ETH_RX_BUF_SIZE, ETH_MAX_PACKET_SIZE] at hwrap hle ⊢
      omega
    · simp only [hchain, Option.map_some]
    · rw [List.flatten_append, List.flatten_singleton, ← List.append_assoc, hdata]

/-- In the loop that gives the descriptors back: the first segment leaves the queue, and with
the last one the frame is fetched. -/
theorem Held.task_release (h : eth.Held head released items done waiting) (hpc : eth.pc = .release i)
    (locked : Bool) (pool : Nat) : ∃ next, eth.task locked pool = ok next ∧
      ((next.pc ≠ .idle ∧ next.work waiting ≤ eth.work waiting - 1 ∧
          ∃ head released items, next.Held head released items done waiting) ∨
        ∃ frame rest, waiting = frame :: rest ∧ next.fetched = eth.fetched ++ [(eth.pool, eth.p)] ∧
          Answered frame (eth.pool, eth.p) ∧ next.work rest ≤ eth.work waiting - 1 ∧
          next.Held head 0 items (done ++ [frame]) rest) := by
  have hphase := h.phase
  simp only [Phase, hpc] at hphase
  obtain ⟨rfl, frame, rest, rfl, hfetching, hle, hdesc, hanswered⟩ := hphase
  by_cases hmore : released < eth.SegCount
  · simp only [task, hpc, if_pos hmore]
    rw [hfetching.count_eq] at hmore
    have hholds := h.holds
    rw [drop_segments hmore, List.cons_append] at hholds
    obtain ⟨item, others, -, hothers, rfl⟩ := List.forall₂_cons_right_iff.mp hholds
    have hring := h.ring.pop
    have hslots : (fun j => (Function.update eth.desc eth.dmarxdesc
        { eth.desc eth.dmarxdesc with own := true } j).held) =
        Function.update (fun j => (eth.desc j).held) (head % ETH_RXBUFNB) none := by
      funext j
      rw [← hdesc]
      by_cases hj : j = eth.dmarxdesc
      · rw [hj, Function.update_self, Function.update_self]
        rfl
      · rw [Function.update_of_ne hj, Function.update_of_ne hj]
    rw [← hslots] at hring
    refine ⟨_, rfl, .inl ⟨by simp, work_of_steps_left ?_, head + 1, released + 1, others, hring, ?_, hothers,
      h.received_eq, h.answered, h.whole, ?_, rfl, frame, rest, rfl, ⟨?_, hfetching.count_eq⟩, hmore, ?_, hanswered⟩⟩
    · simp only [steps_left, hpc, hfetching.count_eq]
      omega
    · simp only
      rw [h.dma_eq, List.length_cons, Nat.add_comm others.length, Nat.add_assoc]
    · intro other n hstoring
      obtain ⟨hwhole, hpositive, hn, hroom⟩ := h.storing other n hstoring
      rw [List.length_cons] at hroom
      exact ⟨hwhole, hpositive, hn, by omega⟩
    · simp only
      rw [hfetching.desc_eq, show head + 1 + (segcount frame - (released + 1)) = head + (segcount frame - released) by
        omega]
    · simp only
      rw [hdesc, RxDesc.next_mod]
  · simp only [task, hpc, if_neg hmore]
    rw [hfetching.count_eq] at hmore
    obtain rfl : released = segcount frame := by omega
    have hholds := h.holds
    rw [drop_segcount] at hholds
    have hsegment := hfetching.desc_eq
    rw [Nat.sub_self] at hsegment
    refine ⟨_, rfl, .inr ⟨frame, rest, rfl, rfl, hanswered, ?_, h.ring, h.dma_eq, hholds, ?_, ?_, ?_, h.storing, rfl,
      hsegment, Nat.zero_le _, .inl rfl⟩⟩
    · have hleft : 0 < eth.steps_left frame := by
        simp only [steps_left, hpc]
        omega
      rw [work_idle rfl rfl, work]
      omega
    · rw [List.append_assoc]
      exact h.received_eq
    · exact List.rel_append h.answered (.cons hanswered .nil)
    · intro other hother
      exact h.whole other (List.mem_cons_of_mem _ hother)

theorem Scanning.grow (h : eth.Scanning head n waiting) {other : EthernetReceive} {more : List (List UInt8)} {m : Nat}
    (hdesc : other.RxDesc = eth.RxDesc) (hfs : other.FSRxDesc = eth.FSRxDesc) (hcount : other.SegCount = eth.SegCount)
    (hm : n ≤ m) (hframes : frames waiting eth.storing <+: frames (waiting ++ more) other.storing) :
    other.Scanning head m (waiting ++ more) where
  desc_eq := by rw [hdesc, hcount, h.desc_eq]
  count_le := by
    rw [hcount]
    exact Nat.le_trans h.count_le hm
  first := by
    rw [hcount, hfs]
    refine h.first.imp_right fun ⟨hfirst, frame, hhead, hlt⟩ => ⟨hfirst, frame, ?_, hlt⟩
    obtain ⟨behind, hbehind⟩ := hframes
    rw [← hbehind, List.head?_append, hhead]
    rfl

/-- What the DMA stores behind leaves a call where it is. -/
theorem Phase.grow (h : eth.Phase head released n waiting) {desc : Nat → kfw.net.RxDesc} {dma m : Nat}
    {storing : Option (List UInt8 × Nat)} {received more : List (List UInt8)} (hm : n ≤ m)
    (hframes : frames waiting eth.storing <+: frames (waiting ++ more) storing) :
    Phase { eth with desc, dma, storing, received } head released m (waiting ++ more) := by
  unfold Phase at h ⊢
  simp only
  split at h
  · exact ⟨h.1, h.2.grow rfl rfl rfl hm hframes⟩
  · exact ⟨h.1, h.2.1.grow rfl rfl rfl hm hframes, h.2.2⟩
  · obtain ⟨hzero, frame, rest, rfl, hfetching, hrest⟩ := h
    exact ⟨hzero, frame, rest ++ more, rfl, ⟨hfetching.desc_eq, hfetching.count_eq⟩, hrest⟩
  · obtain ⟨hzero, frame, rest, rfl, hfetching, hfs, hsome, henough, chain, k, hchain, hcopying⟩ := h
    exact ⟨hzero, frame, rest ++ more, rfl, ⟨hfetching.desc_eq, hfetching.count_eq⟩, hfs, hsome, henough, chain, k,
      hchain, hcopying.desc_eq, hcopying.count_lt, hcopying.offset_le, hcopying.copied_eq, hcopying.left_eq⟩
  · obtain ⟨hzero, frame, rest, rfl, hfetching, hfs, hsome, henough, chain, k, hchain, hcopying⟩ := h
    exact ⟨hzero, frame, rest ++ more, rfl, ⟨hfetching.desc_eq, hfetching.count_eq⟩, hfs, hsome, henough, chain, k,
      hchain, hcopying.desc_eq, hcopying.count_lt, hcopying.offset_le, hcopying.copied_eq, hcopying.left_eq⟩
  · obtain ⟨hreleased, frame, rest, rfl, hfetching, hrest⟩ := h
    exact ⟨hreleased, frame, rest ++ more, rfl, ⟨hfetching.desc_eq, hfetching.count_eq⟩, hrest⟩

/-- No more segments are given back than the first frame has. -/
theorem Phase.released_le (h : eth.Phase head released n waiting) : released ≤ (waiting.flatMap segments).length := by
  unfold Phase at h
  split at h
  all_goals try
    rw [h.1]
    exact Nat.zero_le _
  obtain ⟨rfl, frame, rest, rfl, -, hle, -⟩ := h
  rw [List.flatMap_cons, List.length_append, length_segments]
  exact Nat.le_trans hle (Nat.le_add_right _ _)

/-- The segment that the DMA stores next, behind those it has stored of the frame. -/
theorem Held.next_segment (h : eth.Held head released items done waiting) {frame : List UInt8}
    (hwhole : Whole (eth.storing.getD (frame, 0)).1) :
    (eth.storing.getD (frame, 0)).2 < segcount (eth.storing.getD (frame, 0)).1 ∧
      stored eth.storing = (List.range (eth.storing.getD (frame, 0)).2).map
        (fun i => ((eth.storing.getD (frame, 0)).1, i)) ∧
      frames waiting eth.storing <+: waiting ++ [(eth.storing.getD (frame, 0)).1] := by
  cases hstoring : eth.storing with
  | none =>
    rw [hstoring] at hwhole
    exact ⟨segcount_pos hwhole, rfl, by simp [frames]⟩
  | some storing =>
    obtain ⟨other, n⟩ := storing
    exact ⟨(h.storing other n hstoring).2.2.1, rfl, by simp [frames]⟩

theorem holds_store_desc {desc : kfw.net.RxDesc} {ls : Bool} {fl : Nat} (hwhole : Whole frame)
    (hls : ls = decide (i + 1 = segcount frame)) (hfl : i + 1 = segcount frame → fl = frame.length) :
    Holds (store_desc desc frame i ls fl) (frame, i) where
  fs_eq := rfl
  ls_eq := hls
  fl_eq := fun hlast => by
    rw [store_desc, hfl hlast]
    exact Nat.mod_eq_of_lt hwhole.2
  bytes := List.prefix_append _ _

/-- The DMA puts a segment behind the queue, if it owns a descriptor. -/
theorem Held.dma (h : eth.Held head released items done waiting) {frame : List UInt8} {fl : Nat}
    (huncut : eth.Uncut (.dma frame fl)) :
    ∃ items more, more.length ≤ 1 ∧ (eth.dma_step frame fl).Held head released items done (waiting ++ more) := by
  obtain ⟨hwhole, hroom⟩ := huncut
  obtain ⟨hlt, hstored, hframes⟩ := h.next_segment hwhole
  obtain ⟨⟨current, i⟩, hcurrent⟩ : ∃ segment, eth.storing.getD (frame, 0) = segment := ⟨_, rfl⟩
  simp only [hcurrent] at hwhole hroom hlt hstored hframes
  cases hown : (eth.desc eth.dma).own with
  | false =>
    have hsame : eth.dma_step frame fl = eth := by
      simp [dma_step, hown]
    rw [hsame]
    refine ⟨items, [], Nat.zero_le _, ?_⟩
    rwa [List.append_nil]
  | true =>
    have hspace : items.length < ETH_RXBUFNB := by
      refine Nat.lt_of_le_of_ne h.ring.length_le fun hfull => ?_
      have hitems : items ≠ [] := by
        rintro rfl
        cases hfull
      refine h.ring.slot_around (i := 0) hfull hitems (RxDesc.held_eq_none_iff.mpr ?_)
      rw [Nat.add_zero, ← h.dma_eq]
      exact hown
    have hnext : RxDesc.next eth.dma = (head + (items.length + 1)) % ETH_RXBUFNB := by
      rw [h.dma_eq, RxDesc.next_mod, Nat.add_assoc]
    have hslots : ∀ desc : kfw.net.RxDesc, desc.own = false →
        (fun j => (Function.update eth.desc eth.dma desc j).held) =
          Function.update (fun j => (eth.desc j).held) ((head + items.length) % ETH_RXBUFNB) (some desc) := by
      intro desc hdesc
      funext j
      rw [← h.dma_eq]
      by_cases hj : j = eth.dma
      · rw [hj, Function.update_self, Function.update_self, RxDesc.held, hdesc, if_neg Bool.false_ne_true]
      · rw [Function.update_of_ne hj, Function.update_of_ne hj]
    by_cases hlast : current.length ≤ ETH_RX_BUF_SIZE * (i + 1)
    · have hend := (last_segment_iff hlt).mp hlast
      have hstep : eth.dma_step frame fl = { eth with
          desc := Function.update eth.desc eth.dma (store_desc (eth.desc eth.dma) current i true current.length)
          dma := RxDesc.next eth.dma
          storing := none
          received := eth.received ++ [current] } := by
        simp [dma_step, hcurrent, hown, hlast]
      have hholds : Holds (store_desc (eth.desc eth.dma) current i true current.length) (current, i) :=
        holds_store_desc hwhole (decide_eq_true hend).symm fun _ => rfl
      have hring := h.ring.push hspace (store_desc (eth.desc eth.dma) current i true current.length)
      rw [← hslots _ rfl] at hring
      rw [hstep]
      refine ⟨_, [current], Nat.le_refl _, hring, ?_, ?_, ?_, h.answered, ?_, (fun _ _ hstoring => by cases hstoring),
        h.phase.grow ?_ ?_⟩
      · rw [List.length_append, List.length_singleton]
        exact hnext
      · rw [List.flatMap_append, List.drop_append_of_le_length h.phase.released_le, List.flatMap_singleton, segments,
          ← hend, List.range_succ, List.map_append, stored, List.append_nil, ← hstored, ← List.append_assoc]
        exact List.rel_append h.holds (.cons hholds .nil)
      · rw [← List.append_assoc, h.received_eq]
      · intro other hother
        rcases List.mem_append.mp hother with hother | hother
        · exact h.whole other hother
        · rw [List.mem_singleton.mp hother]
          exact hwhole
      · rw [List.length_append]
        exact Nat.le_add_right _ _
      · rw [frames, frames]
        simpa [frames] using hframes
    · have hmore : i + 1 ≠ segcount current := fun hend => hlast ((last_segment_iff hlt).mpr hend)
      have hfree := hroom.resolve_left hlast
      have hstep : eth.dma_step frame fl = { eth with
          desc := Function.update eth.desc eth.dma (store_desc (eth.desc eth.dma) current i false fl)
          dma := RxDesc.next eth.dma
          storing := some (current, i + 1) } := by
        simp [dma_step, hcurrent, hown, hlast, hfree]
      have hholds : Holds (store_desc (eth.desc eth.dma) current i false fl) (current, i) :=
        holds_store_desc hwhole (decide_eq_false hmore).symm fun hend => absurd hend hmore
      have hring := h.ring.push hspace (store_desc (eth.desc eth.dma) current i false fl)
      rw [← hslots _ rfl] at hring
      rw [hstep]
      refine ⟨_, [], Nat.zero_le _, hring, ?_, ?_, ?_, h.answered, ?_, ?_, h.phase.grow ?_ ?_⟩
      · rw [List.length_append, List.length_singleton]
        exact hnext
      · rw [List.append_nil, stored, List.range_succ, List.map_append, ← hstored, ← List.append_assoc]
        exact List.rel_append h.holds (.cons hholds .nil)
      · rw [List.append_nil]
        exact h.received_eq
      · rw [List.append_nil]
        exact h.whole
      · intro other n hstoring
        cases hstoring
        refine ⟨hwhole, Nat.succ_pos i, by omega, ?_⟩
        rw [List.length_append, List.length_singleton]
        refine Nat.lt_of_le_of_ne hspace fun hfull => ?_
        have hitems : items ≠ [] := by
          rintro rfl
          cases hfull
        refine h.ring.slot_around (i := 1) hfull hitems (RxDesc.held_eq_none_iff.mpr ?_)
        rw [Nat.add_assoc, ← hnext]
        exact hfree
      · rw [List.length_append]
        exact Nat.le_add_right _ _
      · rw [List.append_nil]
        simpa [frames] using hframes

theorem Held.same_received (h : eth.Held head released items done waiting) {head' released' : Nat}
    {items' : List kfw.net.RxDesc} (hnext : next.Held head' released' items' done waiting) :
    next.received = eth.received :=
  hnext.received_eq.trans h.received_eq.symm

/-- A step of the task leaves the received frames as they are; unless another task is in the
HAL it brings the task nearer to having them all fetched. -/
theorem Held.task_step (h : eth.Held head released items done waiting) (locked : Bool) (pool : Nat) :
    ∃ next, eth.task locked pool = ok next ∧ next.received = eth.received ∧
      ∃ head released items done' waiting', next.Held head released items done' waiting' ∧
        (locked = false → next.work waiting' ≤ eth.work waiting - 1) := by
  cases hpc : eth.pc with
  | idle =>
    have hphase := h.phase
    simp only [Phase, hpc] at hphase
    cases locked with
    | true =>
      exact ⟨eth, by simp only [task, hpc, if_true], rfl, head, released, items, done, waiting, h, nofun⟩
    | false =>
      simp only [task, hpc, Bool.false_eq_true, if_false]
      refine ⟨_, rfl, rfl, head, released, items, done, waiting, ⟨h.ring, h.dma_eq, h.holds, h.received_eq, h.answered,
        h.whole, h.storing, hphase.1, ⟨hphase.2.desc_eq, hphase.2.count_le, hphase.2.first⟩, Nat.zero_le _⟩,
        fun _ => ?_⟩
      cases waiting with
      | nil => exact Nat.zero_le _
      | cons frame rest =>
        refine work_of_steps_left ?_
        simp only [steps_left, hpc]
        omega
  | scan k =>
    obtain ⟨next, htask, hwork, hnext, -⟩ := h.task_scan hpc locked pool
    exact ⟨next, htask, h.same_received hnext, head, 0, items, done, waiting, hnext,
      fun _ => hwork⟩
  | alloc =>
    obtain ⟨next, htask, -, hwork, hnext⟩ := h.task_alloc hpc locked pool
    exact ⟨next, htask, h.same_received hnext, head, 0, items, done, waiting, hnext,
      fun _ => hwork⟩
  | pbuf q =>
    obtain ⟨next, htask, -, hwork, hnext⟩ := h.task_pbuf hpc locked pool
    exact ⟨next, htask, h.same_received hnext, head, 0, items, done, waiting, hnext,
      fun _ => hwork⟩
  | copy left q =>
    obtain ⟨next, htask, -, hwork, hnext⟩ := h.task_copy hpc locked pool
    exact ⟨next, htask, h.same_received hnext, head, 0, items, done, waiting, hnext,
      fun _ => hwork⟩
  | release i =>
    obtain ⟨next, htask, ⟨-, hwork, head, released, items, hnext⟩ | ⟨frame, rest, rfl, -, -, hwork, hnext⟩⟩ :=
      h.task_release hpc locked pool
    · exact ⟨next, htask, h.same_received hnext, head, released, items, done, waiting, hnext,
        fun _ => hwork⟩
    · refine ⟨next, htask, ?_, head, 0, items, done ++ [frame], rest, hnext, fun _ => hwork⟩
      rw [hnext.received_eq, h.received_eq, List.append_assoc]
      rfl

theorem Held.step (h : eth.Held head released items done waiting) {action : ReceiveAction} (huncut : eth.Uncut action) :
    ∃ next, eth.step action = ok next ∧
      ∃ head released items done waiting, next.Held head released items done waiting := by
  cases action with
  | dma frame fl =>
    obtain ⟨items, more, -, hnext⟩ := h.dma huncut
    exact ⟨_, rfl, head, released, items, done, waiting ++ more, hnext⟩
  | task locked pool =>
    obtain ⟨next, htask, -, head, released, items, done, waiting, hnext, -⟩ := h.task_step locked pool
    exact ⟨next, htask, head, released, items, done, waiting, hnext⟩

/-- The task, left to run, fetches all that waits, whatever the pool has at each of its steps. -/
theorem Held.drains (h : eth.Held head released items done waiting) {pools : List Nat}
    (hpools : eth.work waiting ≤ pools.length) :
    ∃ drained, steps EthernetReceive.step eth (pools.map (ReceiveAction.task false)) = ok drained ∧
      drained.received = eth.received ∧ List.Forall₂ Answered eth.received drained.fetched := by
  induction pools generalizing eth head released items done waiting with
  | nil =>
    obtain rfl := waiting_of_work (Nat.le_zero.mp hpools)
    refine ⟨eth, rfl, rfl, ?_⟩
    rw [h.received_eq, List.append_nil]
    exact h.answered
  | cons pool pools ih =>
    obtain ⟨next, htask, hsame, _, _, _, _, _, hnext, hwork⟩ := h.task_step false pool
    have hless := hwork rfl
    rw [List.length_cons] at hpools
    obtain ⟨drained, hsteps, hreceived, hanswered⟩ := ih hnext (by omega)
    rw [hsame] at hreceived hanswered
    exact ⟨drained, bind_eq_ok_iff.mpr ⟨next, htask, hsteps⟩, hreceived, hanswered⟩

theorem held_init (Rx_Buff : Nat → DmaBuffer) : (init Rx_Buff).Held 0 0 [] [] [] where
  ring := Ring.empty ETH_RXBUFNB
  dma_eq := rfl
  holds := .nil
  received_eq := rfl
  answered := .nil
  whole := fun _ hframe => absurd hframe List.not_mem_nil
  storing := fun _ _ hstoring => by cases hstoring
  phase := ⟨rfl, rfl, Nat.le_refl 0, .inl rfl⟩

/-- A run without a frame cut short comes back, in a state where the descriptors are a queue. -/
theorem run_held {Rx_Buff : Nat → DmaBuffer} {actions : List ReceiveAction}
    (huncut : Along step Uncut (init Rx_Buff) actions) :
    ∃ last, steps step (init Rx_Buff) actions = ok last ∧
      ∃ head released items done waiting, last.Held head released items done waiting :=
  huncut.steps_total (fun eth => ∃ head released items done waiting, eth.Held head released items done waiting)
    (fun _ _ ⟨_, _, _, _, _, heth⟩ haction => heth.step haction) ⟨0, 0, [], [], [], held_init Rx_Buff⟩

/-- However the steps of the driver and of the DMA follow each other, the driver never reads
from a buffer that the DMA owns, and it fetches the frames in the order in which they were
received, each one once: a fetch returns the whole frame without its checksum, or nothing if
the pool has not enough buffers for it. Wherever the run ends, enough further steps of the
task fetch all that were received. -/
theorem input_in_order {Rx_Buff : Nat → DmaBuffer} {actions : List ReceiveAction}
    (huncut : Along step Uncut (init Rx_Buff) actions) :
    ∃ last, steps step (init Rx_Buff) actions = ok last ∧
      (∃ done waiting, last.received = done ++ waiting ∧ List.Forall₂ Answered done last.fetched) ∧
      ∃ n, ∀ pools : List Nat, n ≤ pools.length →
        ∃ drained, steps step last (pools.map (.task false)) = ok drained ∧ drained.received = last.received ∧
          List.Forall₂ Answered last.received drained.fetched := by
  obtain ⟨last, hsteps, _, _, _, done, waiting, hheld⟩ := run_held huncut
  exact ⟨last, hsteps, ⟨done, waiting, hheld.received_eq, hheld.answered⟩, last.work waiting,
    fun pools hpools => hheld.drains hpools⟩

/-- Two frames come, and `n` steps of the task follow; eight of them are a call of
`low_level_input` that fetches one of the frames. -/
def two_frames (n : Nat) : List ReceiveAction :=
  .dma [1, 2, 3, 4, 5] 0 :: .dma [6, 7, 8, 9, 10, 11] 0 :: List.replicate n (.task false 1)

theorem uncut_two_frames (n : Nat) : Along step Uncut (init fun _ => .cleared) (two_frames n) := by
  refine ⟨⟨⟨by decide, by decide⟩, .inl (by decide)⟩, ?_⟩
  rintro next hnext
  cases hnext
  refine ⟨⟨⟨by decide, by decide⟩, .inl (by decide)⟩, fun next _ => .of_forall fun action haction _ => ?_⟩
  rw [List.eq_of_mem_replicate haction]
  trivial

/-- Both frames are fetched. -/
theorem input_in_order_two_frames :
    ∃ last, steps step (init fun _ => .cleared) (two_frames 16) = ok last ∧
      last.fetched = [(1, some [[1]]), (1, some [[6, 7]])] ∧
      (∃ done waiting, last.received = done ++ waiting ∧ List.Forall₂ Answered done last.fetched) ∧
      ∃ n, ∀ pools : List Nat, n ≤ pools.length →
        ∃ drained, steps step last (pools.map (.task false)) = ok drained ∧ drained.received = last.received ∧
          List.Forall₂ Answered last.received drained.fetched := by
  obtain ⟨last, hsteps, hdone, hdrains⟩ := input_in_order (uncut_two_frames 16)
  have hfetched : (do let last ← steps step (init fun _ => .cleared) (two_frames 16); ok last.fetched : Exec _) =
      ok [(1, some [[1]]), (1, some [[6, 7]])] := by decide +kernel
  rw [hsteps, bind_ok, ok.injEq] at hfetched
  exact ⟨last, hsteps, hfetched, hdone, hdrains⟩

/-- `low_level_input` finds no frame only when all that were received are fetched, and then
no descriptor is left with the driver but those of a frame that is still coming. -/
theorem nothing_found {Rx_Buff : Nat → DmaBuffer} {actions : List ReceiveAction}
    (huncut : Along step Uncut (init Rx_Buff) actions) {last next : EthernetReceive} {k pool : Nat} {locked : Bool}
    (hlast : steps step (init Rx_Buff) actions = ok last) (hpc : last.pc = .scan k)
    (hnext : last.step (.task locked pool) = ok next) (hidle : next.pc = .idle) :
    next.fetched.length = next.received.length ∧
      (next.storing = none → ∀ i < ETH_RXBUFNB, (next.desc i).own = true) := by
  obtain ⟨state, hsteps, head, released, items, done, waiting, hheld⟩ := run_held huncut
  obtain rfl : state = last := by
    rw [hsteps] at hlast
    cases hlast
    rfl
  obtain ⟨other, htask, -, hother, hnone⟩ := hheld.task_scan hpc locked pool
  obtain rfl : other = next := by
    rw [EthernetReceive.step, htask] at hnext
    cases hnext
    rfl
  obtain rfl := hnone hidle
  refine ⟨?_, fun hstoring i hi => ?_⟩
  · rw [hother.received_eq, List.append_nil, hother.answered.length_eq]
  · have hholds := hother.holds
    rw [hstoring, List.flatMap_nil, List.drop_nil, stored, List.append_nil, List.forall₂_nil_right_iff] at hholds
    subst hholds
    exact RxDesc.held_eq_none_iff.mp (hother.ring.slot_of_nil hi)

/-- When both frames are fetched, a third call finds nothing. -/
theorem nothing_found_after_two_frames :
    ∃ last next, steps step (init fun _ => .cleared) (two_frames 17) = ok last ∧
      last.step (.task false 1) = ok next ∧ next.fetched.length = 2 ∧
      ∀ i < ETH_RXBUFNB, (next.desc i).own = true := by
  have hrun : (do
      let last ← steps step (init fun _ => .cleared) (two_frames 17)
      let next ← last.step (.task false 1)
      ok (decide (last.pc = .scan 0 ∧ next.pc = .idle ∧ next.storing = none ∧ next.received.length = 2)) : Exec _) =
        ok true := by decide +kernel
  obtain ⟨last, hlast, hrest⟩ := bind_eq_ok_iff.mp hrun
  obtain ⟨next, hnext, hseen⟩ := bind_eq_ok_iff.mp hrest
  rw [ok.injEq, decide_eq_true_eq] at hseen
  obtain ⟨hpc, hidle, hstoring, hreceived⟩ := hseen
  obtain ⟨hfetched, hback⟩ := nothing_found (uncut_two_frames 17) hlast hpc hnext hidle
  exact ⟨last, next, hlast, hnext, hfetched.trans hreceived, hback hstoring⟩

end EthernetReceive

end kfw.net
