import Kfw.Web.ChunkBuffer.Dispose
import Kfw.Web.ChunkBuffer.FailedWrite

open exec Result

namespace kfw

variable {heap next : Heap} {addr other : Addr}

theorem Heap.live_of_store_word {word : Addr} (h : heap.store_word addr word = ok next) (hother : other ≠ addr) :
    next.live other = heap.live other := by
  unfold store_word at h
  split at h
  · cases h
  · split at h
    · cases h
    · cases h
      exact put_live_of_ne hother _

theorem Heap.live_of_store_bytes {pos : UInt32} {data : List UInt8} (h : heap.store_bytes addr pos data = ok next)
    (hother : other ≠ addr) : next.live other = heap.live other := by
  unfold store_bytes at h
  split at h
  · cases h
  · split at h
    · cases h
    · cases h
      exact put_live_of_ne hother _

namespace web.ChunkBuffer

/-- A heap with the blocks of `before` and with those of `chunks`, which are not in use there. -/
structure Adds (before heap : Heap) (chunks : List Addr) : Prop where
  free : ∀ chunk ∈ chunks, before.live chunk = none
  same : ∀ addr, addr ∉ chunks → heap.live addr = before.live addr

/-- The chunks of a buffer are what the heap has more than `before`. -/
def Owns (P : Addr → Addr → Prop) (before : Heap) (cb : ChunkBuffer) (heap : Heap) : Prop :=
  cb.Vacant ∧ heap.live = before.live ∨
    ∃ full data, cb.Holds heap full data ∧ EndsWith heap cb full P ∧ Adds before heap (full ++ [cb.m_current_chunk])

variable {allocator : Allocator} {before heap nextHeap : Heap} {cb next : ChunkBuffer} {full : List Addr}
  {data bytes remain rest : List UInt8} {P : Addr → Addr → Prop} {fuel : Nat}

/-- A pass of `write` changes the current chunk, and the one that it makes current. -/
theorem write_pass_live (hpass : write_pass allocator (cb, heap, remain) = ok (.cont (next, nextHeap, rest))) :
    (∀ addr, addr ≠ cb.m_current_chunk → addr ≠ next.m_current_chunk → nextHeap.live addr = heap.live addr) ∧
      (next.m_current_chunk ≠ cb.m_current_chunk → heap.live next.m_current_chunk = none) := by
  cases remain with
  | nil => cases hpass
  | cons byte remain =>
    simp only [write_pass] at hpass
    split at hpass
    · cases halloc : allocator.alloc heap (cb.m_chunk_size + offsetof_m_buffer) with
      | none =>
        simp only [Heap.operator_new_of_none halloc, if_true] at hpass
        cases hpass
      | some answer =>
        obtain ⟨new_chunk, block⟩ := answer
        obtain ⟨hnull, hfree⟩ := allocator.fresh _ _ _ _ halloc
        simp only [Heap.operator_new_of_some halloc, if_neg hnull] at hpass
        obtain ⟨stored, hstore, hresult⟩ := bind_eq_ok_iff.mp hpass
        cases hresult
        refine ⟨fun addr hcurrent hnew => ?_, fun _ => hfree⟩
        rw [Heap.live_of_store_word hstore hcurrent, Heap.put_live_of_ne hnew, Heap.asked_live]
    · obtain ⟨stored, hstore, hresult⟩ := bind_eq_ok_iff.mp hpass
      cases hresult
      exact ⟨fun addr hcurrent _ => Heap.live_of_store_bytes hstore hcurrent, fun hne => absurd rfl hne⟩

/-- A pass adds the chunk that it makes current, and no other block. -/
theorem Adds.write_pass (h : Adds before heap (full ++ [cb.m_current_chunk]))
    (hpass : write_pass allocator (cb, heap, remain) = ok (.cont (next, nextHeap, rest))) {chunks : List Addr}
    (hchunks : chunks = full ∧ next.m_current_chunk = cb.m_current_chunk ∨
      chunks = full ++ [cb.m_current_chunk] ∧ next.m_current_chunk ∉ chunks) :
    Adds before nextHeap (chunks ++ [next.m_current_chunk]) := by
  obtain ⟨hsame, hnew⟩ := write_pass_live hpass
  rcases hchunks with ⟨rfl, hcurrent⟩ | ⟨rfl, hcurrent⟩
  · rw [hcurrent] at hsame ⊢
    refine ⟨h.free, fun addr haddr => ?_⟩
    have hne : addr ≠ cb.m_current_chunk := fun heq => haddr (by simp [heq])
    rw [hsame addr hne hne, h.same addr haddr]
  · have hne : next.m_current_chunk ≠ cb.m_current_chunk := fun heq => hcurrent (by simp [heq])
    constructor
    · intro chunk hchunk
      rcases List.mem_append.mp hchunk with hchunk | hchunk
      · exact h.free chunk hchunk
      · rw [List.mem_singleton.mp hchunk, ← h.same _ hcurrent]
        exact hnew hne
    · intro addr haddr
      rw [List.mem_append, not_or, List.mem_singleton] at haddr
      have hold : addr ≠ cb.m_current_chunk := fun heq => haddr.1 (by simp [heq])
      rw [hsame addr hold haddr.2, h.same addr haddr.1]

theorem Owns.of_live (h : cb.Owns P before heap) {other : Heap} (hlive : other.live = heap.live) :
    cb.Owns P before other := by
  refine h.imp (fun ⟨hvacant, hsame⟩ => ⟨hvacant, hlive.trans hsame⟩) fun ⟨full, data, hholds, hends, hadds⟩ => ?_
  refine ⟨full, data, hholds.of_live hlive, ?_, hadds.free, fun addr haddr => by rw [hlive, hadds.same addr haddr]⟩
  simpa only [EndsWith, Heap.word, hlive] using hends

/-- A write keeps to the chunks of the buffer and adds what it allocates to them, also when it
fails. -/
theorem Owns.write (h : cb.Owns P before heap) (hwords : allocator.GivesWord P) (hbytes : bytes.length < 2 ^ 32)
    {r : ret_t} (hwrite : cb.write allocator heap bytes fuel = ok (r, next, nextHeap)) :
    next.Owns P before nextHeap := by
  rcases h with ⟨hvacant, hsame⟩ | hchunks
  · obtain ⟨rfl, hlive, -⟩ := write_without_chunk_ok hvacant.current_eq hwrite
    exact .inl ⟨hvacant, hlive.trans hsame⟩
  · refine loop_invariant (write_pass allocator)
      (fun state => state.2.2.length < 2 ^ 32 ∧ ∃ full data, state.1.Holds state.2.1 full data ∧
        EndsWith state.2.1 state.1 full P ∧ Adds before state.2.1 (full ++ [state.1.m_current_chunk]))
      (fun result => result.2.1.Owns P before result.2.2) ?_ ⟨hbytes, hchunks⟩ hwrite
    rintro ⟨cb, heap, remain⟩ flow ⟨hlength, full, data, hholds, hends, hadds⟩ hpass
    simp only at hlength hholds hends hadds
    by_cases hremain : remain = []
    · subst hremain
      cases hpass
      exact .inr ⟨full, data, hholds, hends, hadds⟩
    by_cases hfull : cb.m_current_chunk_pos = cb.m_chunk_size
    · cases halloc : allocator.alloc heap (cb.m_chunk_size + offsetof_m_buffer) with
      | none =>
        rw [write_refused hremain hfull halloc] at hpass
        cases hpass
        exact .inr ⟨full, data, hholds.of_live rfl, hends, hadds.free, hadds.same⟩
      | some answer =>
        obtain ⟨addr, block⟩ := answer
        obtain ⟨linked, hnew, hnext, hword⟩ := hholds.write_new hremain hfull halloc
        cases hnew.symm.trans hpass
        refine ⟨hlength, full ++ [cb.m_current_chunk], data, hnext, .inr ⟨by simp, ?_⟩,
          hadds.write_pass hnew (.inr ⟨rfl, hnext.current_notMem⟩)⟩
        simp only [hword]
        exact hwords _ _ _ _ halloc
    · obtain ⟨copy, copyHeap, copied, -, -, hcopy, hnext, hcurrent, hword, -⟩ :=
        hholds.write_copy allocator hremain hlength hfull
      cases hcopy.symm.trans hpass
      refine ⟨?_, full, _, hnext, ?_, hadds.write_pass hcopy (.inl ⟨rfl, hcurrent⟩)⟩
      · rw [List.length_drop]
        omega
      · simpa only [EndsWith, hcurrent, hword] using hends

theorem Owns.init (h : cb.Owns P before heap) {chunk_size : UInt32} (hpos : 0 < chunk_size.toNat)
    (hfits : chunk_size.toNat + 4 < 2 ^ 32) {r : ret_t}
    (hinit : cb.init allocator heap chunk_size = ok (r, next, nextHeap)) : next.Owns P before nextHeap := by
  rcases h with ⟨hvacant, hsame⟩ | ⟨full, data, hholds, hrest⟩
  · cases halloc : allocator.alloc heap (chunk_size + offsetof_m_buffer) with
    | none =>
      simp only [ChunkBuffer.init, hvacant.first_eq, ne_eq, not_true_eq_false, if_false,
        Heap.operator_new_of_none halloc, if_true] at hinit
      cases hinit
      exact .inl ⟨⟨rfl, hvacant.current_eq⟩, hsame⟩
    | some answer =>
      obtain ⟨addr, block⟩ := answer
      obtain ⟨hnull, hfree⟩ := allocator.fresh _ _ _ _ halloc
      obtain ⟨granted, grantedHeap, hgranted, hholds, hword, -⟩ := init_holds hvacant.first_eq hpos hfits halloc
      cases hgranted.symm.trans hinit
      simp only [ChunkBuffer.init, hvacant.first_eq, ne_eq, not_true_eq_false, if_false,
        Heap.operator_new_of_some halloc, if_neg hnull] at hinit
      obtain ⟨stored, hstore, hresult⟩ := bind_eq_ok_iff.mp hinit
      cases hresult
      refine .inr ⟨[], [], hholds, .inl ⟨rfl, hword⟩, ?_, fun other hother => ?_⟩
      · intro chunk hchunk
        rw [List.mem_singleton.mp hchunk, ← hsame]
        exact hfree
      · have hne : other ≠ addr := fun heq => hother (by simp [heq])
        rw [Heap.live_of_store_word hstore hne, Heap.put_live_of_ne hne, Heap.asked_live, hsame]
  · rw [ChunkBuffer.init, if_pos hholds.first_ne_nullptr] at hinit
    cases hinit
    exact .inr ⟨full, data, hholds, hrest⟩

/-- The loop of `dispose` frees the chunks of the chain, and nothing else. -/
theorem dispose_chunks_live {chunks : List Addr} {head : Addr} (hchain : Segment heap.word head chunks nullptr)
    (hnodup : chunks.Nodup) (hchunks : ∀ chunk ∈ chunks, HasLink heap chunk)
    (hdispose : dispose_chunks heap head fuel = ok nextHeap) (addr : Addr) :
    nextHeap.live addr = if addr ∈ chunks then none else heap.live addr := by
  induction chunks generalizing heap head fuel with
  | nil =>
    obtain rfl : head = nullptr := hchain
    cases fuel with
    | zero => cases hdispose
    | succ fuel =>
      simp only [dispose_chunks, loop, if_true, bind_ok] at hdispose
      cases hdispose
      simp
  | cons chunk chunks ih =>
    obtain ⟨rfl, hchain⟩ := hchain
    obtain ⟨hnotMem, hnodup⟩ := List.nodup_cons.mp hnodup
    cases fuel with
    | zero => cases hdispose
    | succ fuel =>
      rw [dispose_chunks_cons (hchunks head List.mem_cons_self)] at hdispose
      have hother : ∀ chunk ∈ chunks, chunk ≠ head := by
        rintro chunk hmem rfl
        exact hnotMem hmem
      have hrest : Segment (heap.put head none).word (heap.word head) chunks nullptr :=
        hchain.congr fun chunk hmem => Heap.put_word_of_ne (hother chunk hmem) none
      have hlinks : ∀ chunk ∈ chunks, HasLink (heap.put head none) chunk := by
        intro chunk hmem
        obtain ⟨block, hblock, hsize⟩ := hchunks chunk (List.mem_cons_of_mem _ hmem)
        exact ⟨block, by rw [Heap.put_live_of_ne (hother chunk hmem), hblock], hsize⟩
      rw [ih hrest hnodup hlinks hdispose]
      by_cases hhead : addr = head
      · obtain ⟨block, hlive, -⟩ := hchunks head List.mem_cons_self
        rw [hhead, if_neg hnotMem, if_pos List.mem_cons_self, Heap.put_live_self (Heap.live_ne_nullptr hlive)]
      · simp only [List.mem_cons, hhead, false_or]
        rw [Heap.put_live_of_ne hhead]

/-- In memory that is zero the last link of a buffer with chunks is null. -/
theorem Owns.end_eq (h : cb.Owns (fun _ link => link = nullptr) before heap) (hfirst : cb.m_first_chunk ≠ nullptr) :
    heap.word cb.m_current_chunk = nullptr := by
  rcases h with ⟨hvacant, -⟩ | ⟨full, data, -, hends, -⟩
  · exact absurd hvacant.first_eq hfirst
  · exact hends.elim And.right And.right

/-- Once the buffer is disposed, the heap has the blocks it had before, if the last link of
the chain is null. -/
theorem Owns.dispose (h : cb.Owns P before heap)
    (hend : cb.m_first_chunk ≠ nullptr → heap.word cb.m_current_chunk = nullptr)
    (hdispose : cb.dispose heap fuel = ok (next, nextHeap)) : nextHeap.live = before.live ∧ next.Vacant := by
  rcases h with ⟨hvacant, hsame⟩ | ⟨full, data, hholds, -, hadds⟩
  · rw [ChunkBuffer.dispose, if_pos hvacant.first_eq] at hdispose
    cases hdispose
    exact ⟨hsame, hvacant⟩
  · rw [ChunkBuffer.dispose, if_neg hholds.first_ne_nullptr] at hdispose
    obtain ⟨freed, hfreed, hresult⟩ := bind_eq_ok_iff.mp hdispose
    cases hresult
    have hchain : Segment heap.word cb.m_first_chunk (full ++ [cb.m_current_chunk]) nullptr := by
      rw [← hend hholds.first_ne_nullptr]
      exact hholds.chain.concat
    have hnull : nullptr ∉ full ++ [cb.m_current_chunk] := fun hmem => (hholds.isChunk nullptr hmem).ne_nullptr rfl
    have hlive := dispose_chunks_live hchain (hchain.nodup hnull)
      (fun chunk hmem => (hholds.isChunk chunk hmem).hasLink) hfreed
    refine ⟨funext fun addr => ?_, rfl, rfl⟩
    rw [hlive]
    by_cases hmem : addr ∈ full ++ [cb.m_current_chunk]
    · rw [if_pos hmem, hadds.free addr hmem]
    · rw [if_neg hmem, hadds.same addr hmem]

/-- A buffer whose last link is null can be disposed. -/
theorem Owns.dispose_total (h : cb.Owns P before heap)
    (hend : cb.m_first_chunk ≠ nullptr → heap.word cb.m_current_chunk = nullptr) :
    ∃ enough, ∀ fuel, enough ≤ fuel → ∃ next nextHeap, cb.dispose heap fuel = ok (next, nextHeap) := by
  rcases h with ⟨hvacant, -⟩ | ⟨full, data, hholds, -⟩
  · exact ⟨0, fun fuel _ => ⟨cb, heap, by rw [ChunkBuffer.dispose, if_pos hvacant.first_eq]⟩⟩
  · refine ⟨full.length + 2, fun fuel hfuel => ?_⟩
    obtain ⟨nextHeap, hdispose⟩ := hholds.dispose_eq (hend hholds.first_ne_nullptr) fuel
    rw [if_neg (by omega)] at hdispose
    exact ⟨_, nextHeap, hdispose⟩

end web.ChunkBuffer

end kfw
