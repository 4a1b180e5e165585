import Kfw.Web.ChunkBuffer
import Kfw.Lib.Overwrite
import Kfw.Lib.Segment

open exec Result

namespace kfw.web.ChunkBuffer

/-- A block in use that has a link and room for `chunk_size` bytes. -/
def IsChunk (heap : Heap) (chunk_size : UInt32) (addr : Addr) : Prop :=
  ∃ block, heap.live addr = some block ∧ block.size.toNat = chunk_size.toNat + 4 ∧
    block.bytes.length = chunk_size.toNat

/-- What a chunk buffer holds: the chunks `full`, each linked to the next and
the last to the current chunk, and what the current chunk has up to the write
position. The link of the current chunk is another matter. -/
structure Holds (cb : ChunkBuffer) (heap : Heap) (full : List Addr) (data : List UInt8) : Prop where
  size_pos : 0 < cb.m_chunk_size.toNat
  size_fits : cb.m_chunk_size.toNat + 4 < 2 ^ 32
  chain : Segment heap.word cb.m_first_chunk full cb.m_current_chunk
  current_notMem : cb.m_current_chunk ∉ full
  full_chunk : ∀ chunk ∈ full, IsChunk heap cb.m_chunk_size chunk
  current_chunk : IsChunk heap cb.m_chunk_size cb.m_current_chunk
  pos_le : cb.m_current_chunk_pos.toNat ≤ cb.m_chunk_size.toNat
  contents : data = full.flatMap heap.bytes ++
    (heap.bytes cb.m_current_chunk).take cb.m_current_chunk_pos.toNat
  total : cb.m_total_size = data.length.toUInt32

/-- The link that ends the chain: null in the first chunk, and as the allocator
left it in a later one. -/
def EndsWith (heap : Heap) (cb : ChunkBuffer) (full : List Addr) (P : Addr → Addr → Prop) : Prop :=
  full = [] ∧ heap.word cb.m_current_chunk = nullptr ∨
    full ≠ [] ∧ P cb.m_current_chunk (heap.word cb.m_current_chunk)

variable {allocator : Allocator} {heap : Heap} {cb : ChunkBuffer} {full : List Addr}
  {data remain : List UInt8}

/-- The full chunks are the same in two heaps that agree on them. -/
theorem full_congr {nextHeap : Heap} {chunk_size : UInt32} {head tail : Addr}
    (hsame : ∀ chunk ∈ full, nextHeap.live chunk = heap.live chunk)
    (hchain : Segment heap.word head full tail)
    (hchunks : ∀ chunk ∈ full, IsChunk heap chunk_size chunk) :
    Segment nextHeap.word head full tail ∧ (∀ chunk ∈ full, IsChunk nextHeap chunk_size chunk) ∧
      full.flatMap nextHeap.bytes = full.flatMap heap.bytes := by
  refine ⟨hchain.congr ?_, ?_, ?_⟩
  · intro chunk hchunk
    rw [Heap.word, hsame chunk hchunk, Heap.word]
  · intro chunk hchunk
    rw [IsChunk, hsame chunk hchunk]
    exact hchunks chunk hchunk
  · apply List.flatMap_congr
    intro chunk hchunk
    rw [Heap.bytes, hsame chunk hchunk, Heap.bytes]

theorem IsChunk.length_bytes {chunk_size : UInt32} {addr : Addr} (h : IsChunk heap chunk_size addr) :
    (heap.bytes addr).length = chunk_size.toNat := by
  obtain ⟨block, hlive, _, hbytes⟩ := h
  rw [Heap.bytes_of_live hlive, hbytes]

/-- A granted request for a chunk gives one, which was not in use. -/
theorem alloc_isChunk {chunk_size : UInt32} (hfits : chunk_size.toNat + 4 < 2 ^ 32) {addr : Addr}
    {block : Block}
    (halloc : allocator.alloc heap (chunk_size + offsetof_m_buffer) = some (addr, block)) :
    block.size.toNat = chunk_size.toNat + 4 ∧ block.bytes.length = chunk_size.toNat := by
  have hsize : (chunk_size + offsetof_m_buffer).toNat = chunk_size.toNat + 4 := by
    rw [UInt32.toNat_add]
    exact Nat.mod_eq_of_lt hfits
  obtain ⟨hblock, hbytes⟩ := allocator.extent _ _ _ _ halloc
  rw [hsize] at hbytes
  exact ⟨by rw [hblock, hsize], by omega⟩

/-- A granted `init` gives an empty buffer whose only link is null. -/
theorem init_holds (hfirst : cb.m_first_chunk = nullptr) {chunk_size : UInt32}
    (hpos : 0 < chunk_size.toNat) (hfits : chunk_size.toNat + 4 < 2 ^ 32) {addr : Addr} {block : Block}
    (halloc : allocator.alloc heap (chunk_size + offsetof_m_buffer) = some (addr, block)) :
    ∃ next nextHeap, cb.init allocator heap chunk_size = ok (kOk, next, nextHeap) ∧
      next.Holds nextHeap [] [] ∧ nextHeap.word next.m_current_chunk = nullptr ∧
      next.m_chunk_size = chunk_size := by
  obtain ⟨haddr, _⟩ := allocator.fresh _ _ _ _ halloc
  obtain ⟨hsize, hbytes⟩ := alloc_isChunk hfits halloc
  have hlive : (heap.asked.put addr (some block)).live addr = some block := Heap.put_live_self haddr _
  have hstored : ((heap.asked.put addr (some block)).put addr (some { block with word := nullptr })).live addr =
      some { block with word := nullptr } := Heap.put_live_self haddr _
  refine ⟨{ m_first_chunk := addr, m_current_chunk := addr, m_chunk_size := chunk_size },
    (heap.asked.put addr (some block)).put addr (some { block with word := nullptr }), ?_, ?_, ?_, rfl⟩
  · simp [init, hfirst, Heap.operator_new_of_some halloc, haddr,
      Heap.store_word_of_live hlive (by omega)]
  · exact {
      size_pos := hpos
      size_fits := hfits
      chain := rfl
      current_notMem := by simp
      full_chunk := by simp
      current_chunk := ⟨_, hstored, hsize, hbytes⟩
      pos_le := Nat.zero_le _
      contents := by simp
      total := rfl }
  · rw [Heap.word_of_live hstored]

/-- A full current chunk: a new one is linked to it and nothing is lost. -/
theorem Holds.write_new (h : cb.Holds heap full data) (hremain : remain ≠ [])
    (hfull : cb.m_current_chunk_pos = cb.m_chunk_size) {addr : Addr} {block : Block}
    (halloc : allocator.alloc heap (cb.m_chunk_size + offsetof_m_buffer) = some (addr, block)) :
    ∃ nextHeap, write_pass allocator (cb, heap, remain) =
        ok (.cont ({ cb with m_current_chunk := addr, m_current_chunk_pos := 0 }, nextHeap, remain)) ∧
      Holds { cb with m_current_chunk := addr, m_current_chunk_pos := 0 } nextHeap
        (full ++ [cb.m_current_chunk]) data ∧ nextHeap.word addr = block.word := by
  obtain ⟨haddr, hfresh⟩ := allocator.fresh _ _ _ _ halloc
  obtain ⟨hsize, hbytes⟩ := alloc_isChunk h.size_fits halloc
  obtain ⟨current, hcurrent, hcurrentSize, hcurrentBytes⟩ := h.current_chunk
  have hne : ∀ chunk, IsChunk heap cb.m_chunk_size chunk → chunk ≠ addr := by
    rintro chunk ⟨found, hlive, _⟩ rfl
    rw [hfresh] at hlive
    cases hlive
  have hcurrentNe := hne _ h.current_chunk
  have hlive : (heap.asked.put addr (some block)).live cb.m_current_chunk = some current := by
    rw [Heap.put_live_of_ne hcurrentNe, Heap.asked_live, hcurrent]
  have hstore := Heap.store_word_of_live hlive (by omega) addr
  obtain ⟨nextHeap, hnextHeap⟩ : ∃ nextHeap, nextHeap =
      (heap.asked.put addr (some block)).put cb.m_current_chunk (some { current with word := addr }) :=
    ⟨_, rfl⟩
  rw [← hnextHeap] at hstore
  have hlinked : nextHeap.live cb.m_current_chunk = some { current with word := addr } := by
    rw [hnextHeap, Heap.put_live_self (Heap.live_ne_nullptr hcurrent)]
  have hnew : nextHeap.live addr = some block := by
    rw [hnextHeap, Heap.put_live_of_ne hcurrentNe.symm, Heap.put_live_self haddr]
  have hsame : ∀ chunk ∈ full, nextHeap.live chunk = heap.live chunk := by
    intro chunk hchunk
    have hother : chunk ≠ cb.m_current_chunk := fun heq => h.current_notMem (heq ▸ hchunk)
    rw [hnextHeap, Heap.put_live_of_ne hother, Heap.put_live_of_ne (hne _ (h.full_chunk chunk hchunk)),
      Heap.asked_live]
  obtain ⟨hchain, hchunks, hflat⟩ := full_congr hsame h.chain h.full_chunk
  have hcurrentBytes' : nextHeap.bytes cb.m_current_chunk = heap.bytes cb.m_current_chunk := by
    rw [Heap.bytes_of_live hlinked, Heap.bytes_of_live hcurrent]
  refine ⟨nextHeap, ?_, ?_, Heap.word_of_live hnew⟩
  · cases remain with
    | nil => exact absurd rfl hremain
    | cons byte remain =>
      simp [write_pass, hfull, Heap.operator_new_of_some halloc, haddr, hstore]
  · exact {
      size_pos := h.size_pos
      size_fits := h.size_fits
      chain := by
        have hlast := hchain.concat
        rwa [Heap.word_of_live hlinked] at hlast
      current_notMem := by
        intro hmem
        rcases List.mem_append.mp hmem with hmem | hmem
        · exact hne _ (h.full_chunk _ hmem) rfl
        · exact hcurrentNe (List.mem_singleton.mp hmem).symm
      full_chunk := by
        intro chunk hmem
        rcases List.mem_append.mp hmem with hmem | hmem
        · exact hchunks chunk hmem
        · obtain rfl := List.mem_singleton.mp hmem
          exact ⟨_, hlinked, hcurrentSize, hcurrentBytes⟩
      current_chunk := ⟨block, hnew, hsize, hbytes⟩
      pos_le := Nat.zero_le _
      contents := by
        -- the whole of the current chunk is data, as the position stands at its end
        have htake : (heap.bytes cb.m_current_chunk).take cb.m_current_chunk_pos.toNat =
            heap.bytes cb.m_current_chunk := by
          rw [hfull, ← h.current_chunk.length_bytes, List.take_length]
        rw [h.contents, htake, List.flatMap_append, hflat]
        simp [hcurrentBytes']
      total := h.total }

/-- What a pass copies when the current chunk has room: `copied` bytes, as many
as fit and remain. -/
theorem Holds.copy_size_spec (h : cb.Holds heap full data) (hremain : remain ≠ [])
    (hlength : remain.length < 2 ^ 32) (hroom : cb.m_current_chunk_pos ≠ cb.m_chunk_size) :
    ∃ copied : UInt32, (if remain.length > (cb.m_chunk_size - cb.m_current_chunk_pos).toNat then
        cb.m_chunk_size - cb.m_current_chunk_pos else remain.length.toUInt32) = copied ∧
      cb.m_chunk_size - cb.m_current_chunk_pos ≠ 0 ∧ 0 < copied.toNat ∧ copied.toNat ≤ remain.length ∧
      cb.m_current_chunk_pos.toNat + copied.toNat ≤ cb.m_chunk_size.toNat := by
  have hpos := h.pos_le
  have hne : cb.m_current_chunk_pos.toNat ≠ cb.m_chunk_size.toNat :=
    fun heq => hroom (UInt32.toNat_inj.mp heq)
  have hsub : (cb.m_chunk_size - cb.m_current_chunk_pos).toNat =
      cb.m_chunk_size.toNat - cb.m_current_chunk_pos.toNat :=
    UInt32.toNat_sub_of_le _ _ (UInt32.le_iff_toNat_le.mpr hpos)
  have hnonzero : cb.m_chunk_size - cb.m_current_chunk_pos ≠ 0 := by
    intro hzero
    rw [hzero] at hsub
    have : (0 : UInt32).toNat = 0 := rfl
    omega
  have hcount : 0 < remain.length := List.length_pos_iff.mpr hremain
  have hlen : remain.length.toUInt32.toNat = remain.length := Nat.mod_eq_of_lt hlength
  refine ⟨_, rfl, hnonzero, ?_⟩
  split <;> omega

/-- Room in the current chunk: the next bytes are copied behind the data. -/
theorem Holds.write_copy (h : cb.Holds heap full data) (allocator : Allocator) (hremain : remain ≠ [])
    (hlength : remain.length < 2 ^ 32) (hroom : cb.m_current_chunk_pos ≠ cb.m_chunk_size) :
    ∃ next nextHeap copied, 0 < copied ∧ copied ≤ remain.length ∧
      write_pass allocator (cb, heap, remain) = ok (.cont (next, nextHeap, remain.drop copied)) ∧
      next.Holds nextHeap full (data ++ remain.take copied) ∧
      next.m_current_chunk = cb.m_current_chunk ∧
      nextHeap.word cb.m_current_chunk = heap.word cb.m_current_chunk ∧
      next.m_chunk_size = cb.m_chunk_size := by
  obtain ⟨copied, hcopied, hnonzero, hsome, hle, hfits⟩ := h.copy_size_spec hremain hlength hroom
  obtain ⟨current, hcurrent, hcurrentSize, hcurrentBytes⟩ := h.current_chunk
  have hcopy : (remain.take copied.toNat).length = copied.toNat := by
    rw [List.length_take, Nat.min_eq_left hle]
  have hinside : cb.m_current_chunk_pos.toNat + (remain.take copied.toNat).length ≤ current.bytes.length := by
    omega
  have hstore := Heap.store_bytes_of_live hcurrent cb.m_current_chunk_pos (remain.take copied.toNat) hinside
  obtain ⟨bytes, hbytes⟩ : ∃ bytes, bytes = current.bytes.take cb.m_current_chunk_pos.toNat ++
      (remain.take copied.toNat ++
        current.bytes.drop (cb.m_current_chunk_pos.toNat + (remain.take copied.toNat).length)) := ⟨_, rfl⟩
  rw [← hbytes] at hstore
  obtain ⟨nextHeap, hnextHeap⟩ : ∃ nextHeap, nextHeap =
      heap.put cb.m_current_chunk (some { current with bytes }) := ⟨_, rfl⟩
  rw [← hnextHeap] at hstore
  have hlive : nextHeap.live cb.m_current_chunk = some { current with bytes } := by
    rw [hnextHeap, Heap.put_live_self (Heap.live_ne_nullptr hcurrent)]
  have hsame : ∀ chunk ∈ full, nextHeap.live chunk = heap.live chunk := by
    intro chunk hchunk
    have hother : chunk ≠ cb.m_current_chunk := fun heq => h.current_notMem (heq ▸ hchunk)
    rw [hnextHeap, Heap.put_live_of_ne hother]
  obtain ⟨hchain, hchunks, hflat⟩ := full_congr hsame h.chain h.full_chunk
  have hbytesLength : bytes.length = cb.m_chunk_size.toNat := by
    rw [hbytes, length_overwrite hinside, hcurrentBytes]
  have hnextPos : (cb.m_current_chunk_pos + copied).toNat =
      cb.m_current_chunk_pos.toNat + copied.toNat := by
    have hsizeFits := h.size_fits
    rw [UInt32.toNat_add]
    exact Nat.mod_eq_of_lt (by omega)
  have hwritten : bytes.take (cb.m_current_chunk_pos.toNat + copied.toNat) =
      current.bytes.take cb.m_current_chunk_pos.toNat ++ remain.take copied.toNat := by
    have htake := take_overwrite hinside
    rwa [← hbytes, hcopy] at htake
  refine ⟨{ cb with
    m_current_chunk_pos := cb.m_current_chunk_pos + copied
    m_total_size := cb.m_total_size + copied }, nextHeap, copied.toNat, hsome, hle, ?_, ?_, rfl, ?_, rfl⟩
  · cases remain with
    | nil => exact absurd rfl hremain
    | cons byte remain => simp only [write_pass, hnonzero, if_false, hcopied, hstore, bind_ok]
  · exact {
      size_pos := h.size_pos
      size_fits := h.size_fits
      chain := hchain
      current_notMem := h.current_notMem
      full_chunk := hchunks
      current_chunk := ⟨_, hlive, hcurrentSize, hbytesLength⟩
      pos_le := by
        simp only [hnextPos]
        exact hfits
      contents := by
        rw [h.contents, hflat, Heap.bytes_of_live hlive, Heap.bytes_of_live hcurrent, hnextPos, hwritten,
          List.append_assoc]
      total := by
        simp only [h.total, List.length_append, hcopy]
        change UInt32.ofNat data.length + copied = UInt32.ofNat (data.length + copied.toNat)
        rw [UInt32.ofNat_add, UInt32.ofNat_toNat] }
  · rw [Heap.word_of_live hlive, Heap.word_of_live hcurrent]

/-- Only the blocks of the heap matter. -/
theorem Holds.of_live (h : cb.Holds heap full data) {other : Heap} (hlive : other.live = heap.live) :
    cb.Holds other full data := by
  have hword : other.word = heap.word := by
    funext addr
    rw [Heap.word, hlive, Heap.word]
  have hbytes : other.bytes = heap.bytes := by
    funext addr
    rw [Heap.bytes, hlive, Heap.bytes]
  exact {
    size_pos := h.size_pos
    size_fits := h.size_fits
    chain := hword ▸ h.chain
    current_notMem := h.current_notMem
    full_chunk := by simpa only [IsChunk, hlive] using h.full_chunk
    current_chunk := by simpa only [IsChunk, hlive] using h.current_chunk
    pos_le := h.pos_le
    contents := by rw [hbytes, h.contents]
    total := h.total }

theorem IsChunk.ne_nullptr {chunk_size : UInt32} {chunk : Addr} (h : IsChunk heap chunk_size chunk) :
    chunk ≠ nullptr := by
  obtain ⟨block, hlive, _⟩ := h
  exact Heap.live_ne_nullptr hlive

theorem Holds.isChunk (h : cb.Holds heap full data) :
    ∀ chunk ∈ full ++ [cb.m_current_chunk], IsChunk heap cb.m_chunk_size chunk := by
  intro chunk hmem
  rcases List.mem_append.mp hmem with hfull | hcurrent
  · exact h.full_chunk chunk hfull
  · rw [List.mem_singleton.mp hcurrent]
    exact h.current_chunk

theorem Holds.first_ne_nullptr (h : cb.Holds heap full data) : cb.m_first_chunk ≠ nullptr := by
  apply (h.isChunk cb.m_first_chunk _).ne_nullptr
  have hsegment := h.chain
  cases full with
  | nil => simpa using hsegment
  | cons chunk rest => simp [hsegment.1]

/-- The full chunks and the current one up to the position make up the data. -/
theorem Holds.length_eq (h : cb.Holds heap full data) :
    data.length = full.length * cb.m_chunk_size.toNat + cb.m_current_chunk_pos.toNat := by
  have hsum : ∀ chunks : List Addr, (∀ chunk ∈ chunks, IsChunk heap cb.m_chunk_size chunk) →
      (chunks.flatMap heap.bytes).length = chunks.length * cb.m_chunk_size.toNat := by
    intro chunks hchunks
    induction chunks with
    | nil => simp
    | cons chunk chunks ih =>
      have hrest := ih fun other hother => hchunks other (by simp [hother])
      rw [List.flatMap_cons, List.length_append, hrest, (hchunks chunk (by simp)).length_bytes, List.length_cons,
        Nat.succ_mul, Nat.add_comm]
  have hpos := h.pos_le
  rw [h.contents, List.length_append, hsum full h.full_chunk, List.length_take, h.current_chunk.length_bytes,
    Nat.min_eq_left hpos]

theorem Holds.length_full_le (h : cb.Holds heap full data) : full.length ≤ data.length := by
  have hlength := h.length_eq
  have hle := Nat.le_mul_of_pos_right full.length h.size_pos
  omega

/-- A request for a chunk that is refused ends the write. -/
theorem write_refused (hremain : remain ≠ []) (hfull : cb.m_current_chunk_pos = cb.m_chunk_size)
    (halloc : allocator.alloc heap (cb.m_chunk_size + offsetof_m_buffer) = none) :
    write_pass allocator (cb, heap, remain) = ok (.done (kEOutOfMemory, cb, heap.asked)) := by
  cases remain with
  | nil => exact absurd rfl hremain
  | cons byte remain => simp [write_pass, hfull, Heap.operator_new_of_none halloc]

/-- A buffer in use, between writes: a chunk is full only if there is more data
than it and those before it can take. -/
structure Stored (P : Addr → Addr → Prop) (chunk_size : UInt32) (cb : ChunkBuffer) (heap : Heap)
    (full : List Addr) (data : List UInt8) : Prop where
  holds : cb.Holds heap full data
  ends : EndsWith heap cb full P
  size : cb.m_chunk_size = chunk_size
  needed : full = [] ∨ full.length * chunk_size.toNat < data.length

theorem Stored.of_live {P : Addr → Addr → Prop} {chunk_size : UInt32}
    (h : Stored P chunk_size cb heap full data) {other : Heap} (hlive : other.live = heap.live) :
    Stored P chunk_size cb other full data := by
  refine ⟨h.holds.of_live hlive, ?_, h.size, h.needed⟩
  have hends := h.ends
  simpa only [EndsWith, Heap.word, hlive] using hends

/-- A buffer without chunks. -/
structure Vacant (cb : ChunkBuffer) : Prop where
  first_eq : cb.m_first_chunk = nullptr
  current_eq : cb.m_current_chunk = nullptr

/-- The state of a write of `bytes` behind `data`: some of them are in the
buffer and the others remain. -/
structure Writing (P : Addr → Addr → Prop) (chunk_size : UInt32) (data bytes : List UInt8)
    (full : List Addr) (written : List UInt8) (state : ChunkBuffer × Heap × List UInt8) : Prop where
  split : bytes = written ++ state.2.2
  holds : state.1.Holds state.2.1 full (data ++ written)
  ends : EndsWith state.2.1 state.1 full P
  size : state.1.m_chunk_size = chunk_size
  needed : full = [] ∨ full.length * chunk_size.toNat < data.length + bytes.length

/-- What a write leaves: all of `bytes` behind `data`, or after a refused
request some of them. -/
def Written (allocator : Allocator) (P : Addr → Addr → Prop) (chunk_size : UInt32) (data bytes : List UInt8)
    (result : ret_t × ChunkBuffer × Heap) : Prop :=
  ∃ full written rest, bytes = written ++ rest ∧
    Stored P chunk_size result.2.1 result.2.2 full (data ++ written) ∧
    (result.1 = kOk ∧ rest = [] ∨ result.1 = kEOutOfMemory ∧ ¬ allocator.Grants)

theorem Writing.pass {P : Addr → Addr → Prop} (hwords : allocator.GivesWord P) {chunk_size : UInt32}
    {bytes written : List UInt8} (hbytes : bytes.length < 2 ^ 32)
    {state : ChunkBuffer × Heap × List UInt8} (h : Writing P chunk_size data bytes full written state) :
    (∃ result, write_pass allocator state = ok (.done result) ∧
      Written allocator P chunk_size data bytes result) ∨
    ∃ next, write_pass allocator state = ok (.cont next) ∧
      (∃ full written, Writing P chunk_size data bytes full written next) ∧
      2 * next.2.2.length + (if next.1.m_current_chunk_pos = chunk_size then 1 else 0) <
        2 * state.2.2.length + (if state.1.m_current_chunk_pos = chunk_size then 1 else 0) := by
  obtain ⟨cb, heap, remain⟩ := state
  obtain ⟨hsplit, hholds, hends, hsize, hneeded⟩ := h
  simp only at hsplit hholds hends hsize
  subst chunk_size
  by_cases hremain : remain = []
  · left
    subst remain
    rw [List.append_nil] at hsplit
    subst bytes
    refine ⟨_, rfl, full, written, [], (List.append_nil _).symm, ⟨hholds, hends, rfl, ?_⟩, .inl ⟨rfl, rfl⟩⟩
    rwa [List.length_append]
  · have hlength : written.length + remain.length = bytes.length := by rw [hsplit, List.length_append]
    have hcount : 0 < remain.length := List.length_pos_iff.mpr hremain
    have hstored := hholds.length_eq
    have hsizePos := hholds.size_pos
    rw [List.length_append] at hstored
    by_cases hfull : cb.m_current_chunk_pos = cb.m_chunk_size
    · rw [hfull] at hstored
      cases halloc : allocator.alloc heap (cb.m_chunk_size + offsetof_m_buffer) with
      | none =>
        left
        refine ⟨_, write_refused hremain hfull halloc, full, written, remain, hsplit,
          ⟨hholds.of_live rfl, hends, rfl, .inr ?_⟩, .inr ⟨rfl, ?_⟩⟩
        · rw [List.length_append]
          omega
        · intro hgrants
          have hgranted := hgrants heap (cb.m_chunk_size + offsetof_m_buffer)
          rw [halloc] at hgranted
          cases hgranted
      | some answer =>
        right
        obtain ⟨addr, block⟩ := answer
        obtain ⟨nextHeap, hpass, hnext, hword⟩ := hholds.write_new hremain hfull halloc
        refine ⟨_, hpass, ⟨full ++ [cb.m_current_chunk], written, ⟨hsplit, hnext, ?_, rfl, .inr ?_⟩⟩, ?_⟩
        · refine .inr ⟨by simp, ?_⟩
          simp only [hword]
          exact hwords _ _ _ _ halloc
        · rw [List.length_append, List.length_singleton, Nat.succ_mul]
          omega
        · have hzero : (0 : UInt32) ≠ cb.m_chunk_size := by
            intro heq
            rw [← heq] at hsizePos
            exact absurd hsizePos (by decide)
          simp only [hfull, if_neg hzero, if_true]
          omega
    · right
      obtain ⟨next, nextHeap, copied, hsome, hle, hpass, hnext, hcurrent, hword, hnextSize⟩ :=
        hholds.write_copy allocator hremain (by omega) hfull
      rw [List.append_assoc] at hnext
      refine ⟨_, hpass, ⟨full, written ++ remain.take copied, ⟨?_, hnext, ?_, hnextSize, hneeded⟩⟩, ?_⟩
      · rw [List.append_assoc, List.take_append_drop, hsplit]
      · simpa only [EndsWith, hcurrent, hword] using hends
      · simp only [List.length_drop, if_neg hfull]
        split <;> omega

/-- A write stores all its bytes, unless a request for a chunk is refused. -/
theorem Stored.write_spec {P : Addr → Addr → Prop} {chunk_size : UInt32}
    (h : Stored P chunk_size cb heap full data) (hwords : allocator.GivesWord P) {bytes : List UInt8}
    (hbytes : bytes.length < 2 ^ 32) (fuel : Nat) (hfuel : 2 * bytes.length + 1 < fuel) :
    ∃ result, cb.write allocator heap bytes fuel = ok result ∧
      Written allocator P chunk_size data bytes result := by
  apply loop_total (write_pass allocator)
    (fun state => ∃ full written, Writing P chunk_size data bytes full written state)
    (fun state => 2 * state.2.2.length + if state.1.m_current_chunk_pos = chunk_size then 1 else 0)
  · rintro state ⟨full, written, hwriting⟩
    exact hwriting.pass hwords hbytes
  · exact ⟨full, [], ⟨rfl, by simpa using h.holds, h.ends, h.size, h.needed.imp_right (by omega)⟩⟩
  · simp only
    split <;> omega

/-- A write that comes back has stored all its bytes, when every request is
granted. -/
theorem Stored.write_ok {P : Addr → Addr → Prop} {chunk_size : UInt32}
    (h : Stored P chunk_size cb heap full data) (hgrants : allocator.Grants)
    (hwords : allocator.GivesWord P) {bytes : List UInt8} (hbytes : bytes.length < 2 ^ 32) {fuel : Nat}
    {r : ret_t} {next : ChunkBuffer} {nextHeap : Heap}
    (hwrite : cb.write allocator heap bytes fuel = ok (r, next, nextHeap)) :
    r = kOk ∧ ∃ nextFull, Stored P chunk_size next nextHeap nextFull (data ++ bytes) := by
  obtain ⟨result, hresult, nextFull, written, rest, hsplit, hstored, hkind⟩ :=
    h.write_spec hwords hbytes (fuel + (2 * bytes.length + 2)) (by omega)
  have hmore : cb.write allocator heap bytes (fuel + (2 * bytes.length + 2)) = ok (r, next, nextHeap) :=
    loop_mono (Nat.le_add_right _ _) hwrite
  rw [hresult] at hmore
  cases hmore
  rcases hkind with ⟨hok, rfl⟩ | ⟨_, hrefused⟩
  · rw [List.append_nil] at hsplit
    subst hsplit
    exact ⟨hok, nextFull, hstored⟩
  · exact absurd hgrants hrefused

/-- A buffer that was disposed has no chunks. -/
theorem vacant_of_dispose (hfirst : cb.m_first_chunk = nullptr → cb.Vacant) {fuel : Nat} {next : ChunkBuffer}
    {nextHeap : Heap} (hdispose : cb.dispose heap fuel = ok (next, nextHeap)) : next.Vacant := by
  unfold ChunkBuffer.dispose at hdispose
  split at hdispose
  · cases hdispose
    exact hfirst ‹_›
  · obtain ⟨last, _, hresult⟩ := bind_eq_ok_iff.mp hdispose
    cases hresult
    exact ⟨rfl, rfl⟩

/-- In memory that is zero the last link is null. -/
theorem Stored.end_eq {chunk_size : UInt32}
    (h : Stored (fun _ link => link = nullptr) chunk_size cb heap full data) :
    heap.word cb.m_current_chunk = nullptr :=
  h.ends.elim And.right And.right

/-- What fits in one chunk is in one chunk. -/
theorem Stored.full_eq_nil {P : Addr → Addr → Prop} {chunk_size : UInt32}
    (h : Stored P chunk_size cb heap full data) (hlength : data.length ≤ chunk_size.toNat) :
    full = [] := by
  rcases h.needed with hnil | hneeded
  · exact hnil
  · cases full with
    | nil => rfl
    | cons chunk rest =>
      rw [List.length_cons, Nat.succ_mul] at hneeded
      omega

/-- What a buffer keeps, with chunks or without. -/
def Keeps (P : Addr → Addr → Prop) (chunk_size : UInt32) (cb : ChunkBuffer) (heap : Heap)
    (data : List UInt8) : Prop :=
  cb.Vacant ∧ data = [] ∨ ∃ full, Stored P chunk_size cb heap full data

theorem Keeps.of_live {P : Addr → Addr → Prop} {chunk_size : UInt32}
    (h : Keeps P chunk_size cb heap data) {other : Heap} (hlive : other.live = heap.live) :
    Keeps P chunk_size cb other data :=
  h.imp_right fun ⟨full, hstored⟩ => ⟨full, hstored.of_live hlive⟩

theorem Keeps.vacant {P : Addr → Addr → Prop} {chunk_size : UInt32} (h : Keeps P chunk_size cb heap data)
    (hfirst : cb.m_first_chunk = nullptr) : cb.Vacant := by
  rcases h with ⟨hvacant, _⟩ | ⟨full, hstored⟩
  · exact hvacant
  · exact absurd hfirst hstored.holds.first_ne_nullptr

/-- A buffer without chunks, or at the beginning of its first chunk. -/
def IsEmpty (cb : ChunkBuffer) : Prop :=
  cb.m_first_chunk = nullptr ∨ cb.m_current_chunk = cb.m_first_chunk ∧ cb.m_current_chunk_pos = 0

instance (cb : ChunkBuffer) : Decidable cb.IsEmpty := inferInstanceAs (Decidable (_ ∨ _ ∧ _))

/-- In the first chunk nothing is in the others. -/
theorem Holds.full_eq_nil_iff (h : cb.Holds heap full data) :
    full = [] ↔ cb.m_current_chunk = cb.m_first_chunk := by
  have hchain := h.chain
  cases full with
  | nil => exact ⟨fun _ => Eq.symm hchain, fun _ => rfl⟩
  | cons chunk rest =>
    obtain ⟨rfl, _⟩ := hchain
    refine ⟨fun hnil => absurd hnil (List.cons_ne_nil _ _), fun hcurrent => ?_⟩
    exact absurd h.current_notMem (by simp [hcurrent])

theorem Keeps.isEmpty_iff {P : Addr → Addr → Prop} {chunk_size : UInt32}
    (h : Keeps P chunk_size cb heap data) :
    cb.IsEmpty ↔ data = [] := by
  rcases h with ⟨hvacant, hdata⟩ | ⟨full, hstored⟩
  · exact ⟨fun _ => hdata, fun _ => .inl hvacant.first_eq⟩
  · have hholds := hstored.holds
    have hlength := hholds.length_eq
    constructor
    · rintro (hfirst | ⟨hcurrent, hpos⟩)
      · exact absurd hfirst hholds.first_ne_nullptr
      · rw [hholds.full_eq_nil_iff.mpr hcurrent, hpos] at hlength
        simpa using hlength
    · rintro rfl
      have hsize := hholds.size_pos
      have hfull : full.length * cb.m_chunk_size.toNat = 0 := by
        rw [List.length_nil] at hlength
        omega
      have hnil : full = [] := by
        rcases Nat.mul_eq_zero.mp hfull with hzero | hzero
        · exact List.eq_nil_of_length_eq_zero hzero
        · omega
      refine .inr ⟨hholds.full_eq_nil_iff.mp hnil, UInt32.toNat_inj.mp ?_⟩
      rw [hfull, List.length_nil, Nat.zero_add] at hlength
      exact hlength.symm

end kfw.web.ChunkBuffer
