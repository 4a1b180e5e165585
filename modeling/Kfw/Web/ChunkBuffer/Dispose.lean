import Kfw.Web.ChunkBuffer.Contents

open exec Result

namespace kfw.web.ChunkBuffer

variable {heap : Heap} {chunk_size : UInt32}

/-- A block in use that has room for a link. -/
def HasLink (heap : Heap) (addr : Addr) : Prop :=
  ∃ block, heap.live addr = some block ∧ 4 ≤ block.size.toNat

theorem IsChunk.hasLink {chunk : Addr} (h : IsChunk heap chunk_size chunk) : HasLink heap chunk := by
  obtain ⟨block, hlive, hsize, _⟩ := h
  exact ⟨block, hlive, by omega⟩

/-- A pass of the loop of `dispose` frees the chunk and goes on at its link. -/
theorem dispose_chunks_cons {chunk : Addr} (hchunk : HasLink heap chunk) (fuel : Nat) :
    dispose_chunks heap chunk (fuel + 1) = dispose_chunks (heap.put chunk none) (heap.word chunk) fuel := by
  obtain ⟨block, hlive, hsize⟩ := hchunk
  rw [dispose_chunks, loop_cont fuel]
  · rfl
  · simp only [Heap.live_ne_nullptr hlive, if_false, Heap.load_word_of_live hlive hsize,
      Heap.operator_delete_of_live hlive, bind_ok, Heap.word_of_live hlive]

/-- A chain of chunks that ends in null is freed in as many passes as it has
chunks and one more; the induction is on the chunks still ahead. -/
theorem dispose_chunks_chain {chunks : List Addr} {head : Addr}
    (hchain : Segment heap.word head chunks nullptr) (hnodup : chunks.Nodup)
    (hchunks : ∀ chunk ∈ chunks, HasLink heap chunk) (fuel : Nat) :
    ∃ nextHeap, dispose_chunks heap head fuel = if fuel ≤ chunks.length then div else ok nextHeap := by
  induction chunks generalizing heap head fuel with
  | nil =>
    obtain rfl : head = nullptr := hchain
    cases fuel with
    | zero => exact ⟨heap, rfl⟩
    | succ fuel => exact ⟨heap, by simp [dispose_chunks, loop]⟩
  | cons chunk chunks ih =>
    obtain ⟨rfl, hchain⟩ := hchain
    obtain ⟨hnotMem, hnodup⟩ := List.nodup_cons.mp hnodup
    cases fuel with
    | zero => exact ⟨heap, rfl⟩
    | succ fuel =>
      have hother : ∀ chunk ∈ chunks, chunk ≠ head := by
        rintro chunk hmem rfl
        exact hnotMem hmem
      have hrest : Segment (heap.put head none).word (heap.word head) chunks nullptr :=
        hchain.congr fun chunk hmem => Heap.put_word_of_ne (hother chunk hmem) none
      have hlive : ∀ chunk ∈ chunks, HasLink (heap.put head none) chunk := by
        intro chunk hmem
        obtain ⟨block, hblock, hsize⟩ := hchunks chunk (by simp [hmem])
        exact ⟨block, by rw [Heap.put_live_of_ne (hother chunk hmem), hblock], hsize⟩
      obtain ⟨nextHeap, hdispose⟩ := ih hrest hnodup hlive fuel
      refine ⟨nextHeap, ?_⟩
      rw [dispose_chunks_cons (hchunks head (by simp)), hdispose, List.length_cons]
      simp only [Nat.add_le_add_iff_right]

/-- A buffer whose last link is null is disposed, given the fuel for its chunks. -/
theorem Holds.dispose_eq {cb : ChunkBuffer} {full : List Addr} {data : List UInt8}
    (h : cb.Holds heap full data) (hend : heap.word cb.m_current_chunk = nullptr) (fuel : Nat) :
    ∃ nextHeap, cb.dispose heap fuel = if fuel ≤ full.length + 1 then div
      else ok ({ cb with m_first_chunk := nullptr, m_current_chunk := nullptr }, nextHeap) := by
  have hchain : Segment heap.word cb.m_first_chunk (full ++ [cb.m_current_chunk]) nullptr := by
    rw [← hend]
    exact h.chain.concat
  have hnull : nullptr ∉ full ++ [cb.m_current_chunk] := fun hmem => (h.isChunk nullptr hmem).ne_nullptr rfl
  obtain ⟨nextHeap, hdispose⟩ := dispose_chunks_chain hchain (hchain.nodup hnull)
    (fun chunk hmem => (h.isChunk chunk hmem).hasLink) fuel
  refine ⟨nextHeap, ?_⟩
  rw [dispose, if_neg h.first_ne_nullptr, hdispose, List.length_append, List.length_singleton]
  split
  · rfl
  · rfl

end kfw.web.ChunkBuffer
