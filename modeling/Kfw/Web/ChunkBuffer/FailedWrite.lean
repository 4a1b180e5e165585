import Kfw.Web.Context

open exec Result

namespace kfw.web

namespace ChunkBuffer

/-- What a buffer has stored, which is nothing without a chunk. -/
def Contains (cb : ChunkBuffer) (heap : Heap) (data : List UInt8) : Prop :=
  cb.Vacant ∧ data = [] ∨ ∃ full, cb.Holds heap full data

/-- A write needs a chunk at once, and is refused one. -/
def RefusedAtOnce (allocator : Allocator) (cb : ChunkBuffer) (heap : Heap) : Prop :=
  cb.m_current_chunk_pos = cb.m_chunk_size ∧
    allocator.alloc heap (cb.m_chunk_size + offsetof_m_buffer) = none

/-- A write of `bytes` behind `data` that has `remain` to go, and has stored `least` of them or
more. -/
def Stores (data bytes : List UInt8) (least : Nat) (cb : ChunkBuffer) (heap : Heap) (remain : List UInt8) : Prop :=
  ∃ full written, bytes = written ++ remain ∧ least ≤ written.length ∧ cb.Holds heap full (data ++ written)

variable {allocator : Allocator} {heap nextHeap : Heap} {cb next : ChunkBuffer} {full : List Addr}
  {data bytes remain : List UInt8} {least fuel : Nat}

/-- A pass from a buffer with a chunk comes back, and loses nothing that was stored. -/
theorem Stores.pass (h : Stores data bytes least cb heap remain) (hbytes : bytes.length < 2 ^ 32)
    (allocator : Allocator) :
    ∃ flow, write_pass allocator (cb, heap, remain) = ok flow ∧
      flow.Meets (fun state => Stores data bytes least state.1 state.2.1 state.2.2)
        fun result => ∃ rest, Stores data bytes least result.2.1 result.2.2 rest := by
  obtain ⟨full, written, hsplit, hleast, hholds⟩ := h
  by_cases hremain : remain = []
  · subst remain
    exact ⟨_, rfl, [], full, written, hsplit, hleast, hholds⟩
  by_cases hfull : cb.m_current_chunk_pos = cb.m_chunk_size
  · cases halloc : allocator.alloc heap (cb.m_chunk_size + offsetof_m_buffer) with
    | none =>
      exact ⟨_, write_refused hremain hfull halloc, remain, full, written, hsplit, hleast, hholds.of_live rfl⟩
    | some answer =>
      obtain ⟨addr, block⟩ := answer
      obtain ⟨nextHeap, hpass, hnext, _⟩ := hholds.write_new hremain hfull halloc
      exact ⟨_, hpass, _, written, hsplit, hleast, hnext⟩
  · have hlength : remain.length < 2 ^ 32 := by
      rw [hsplit, List.length_append] at hbytes
      omega
    obtain ⟨next, nextHeap, copied, _, _, hpass, hnext, _⟩ := hholds.write_copy allocator hremain hlength hfull
    refine ⟨_, hpass, full, written ++ remain.take copied, ?_, ?_, ?_⟩
    · rw [List.append_assoc, List.take_append_drop, hsplit]
    · rw [List.length_append]
      omega
    · rwa [← List.append_assoc]

/-- The same of a whole write. -/
theorem Stores.loop (h : Stores data bytes least cb heap remain) (hbytes : bytes.length < 2 ^ 32) {r : ret_t}
    (hwrite : loop (write_pass allocator) fuel (cb, heap, remain) = ok (r, next, nextHeap)) :
    ∃ rest, Stores data bytes least next nextHeap rest := by
  refine loop_invariant (write_pass allocator)
    (fun state => Stores data bytes least state.1 state.2.1 state.2.2)
    (fun result => ∃ rest, Stores data bytes least result.2.1 result.2.2 rest) ?_ h hwrite
  rintro ⟨cb, heap, remain⟩ flow hstores hpass
  obtain ⟨flow', hflow, hmeets⟩ := hstores.pass hbytes allocator
  cases hflow.symm.trans hpass
  exact hmeets

/-- With a chunk a write faults at no point. -/
theorem Holds.write_ne_fail (h : cb.Holds heap full data) (hbytes : bytes.length < 2 ^ 32) (error : Fault) :
    cb.write allocator heap bytes fuel ≠ fail error := by
  refine loop_ne_fail (write_pass allocator) (fun state => Stores data bytes 0 state.1 state.2.1 state.2.2)
    (fun result => ∃ rest, Stores data bytes 0 result.2.1 result.2.2 rest) ?_ fuel ?_ error
  · rintro ⟨cb, heap, remain⟩ hstores
    exact hstores.pass hbytes allocator
  · exact ⟨full, [], rfl, Nat.le_refl 0, by rwa [List.append_nil]⟩

theorem Holds.write_holds (h : cb.Holds heap full data) (hbytes : bytes.length < 2 ^ 32) {r : ret_t}
    (hwrite : cb.write allocator heap bytes fuel = ok (r, next, nextHeap)) :
    ∃ full written rest, bytes = written ++ rest ∧ next.Holds nextHeap full (data ++ written) := by
  have hstart : Stores data bytes 0 cb heap bytes := ⟨full, [], rfl, Nat.le_refl 0, by rwa [List.append_nil]⟩
  obtain ⟨rest, full, written, hsplit, _, hnext⟩ := hstart.loop hbytes hwrite
  exact ⟨full, written, rest, hsplit, hnext⟩

/-- A write with room in the current chunk stores some bytes. -/
theorem Holds.write_room (h : cb.Holds heap full data) (hne : bytes ≠ []) (hbytes : bytes.length < 2 ^ 32)
    (hroom : cb.m_current_chunk_pos ≠ cb.m_chunk_size) {r : ret_t}
    (hwrite : cb.write allocator heap bytes fuel = ok (r, next, nextHeap)) :
    ∃ rest, Stores data bytes 1 next nextHeap rest := by
  obtain ⟨mid, midHeap, copied, hsome, hle, hpass, hmid, _⟩ := h.write_copy allocator hne hbytes hroom
  cases fuel with
  | zero => cases hwrite
  | succ fuel =>
    rw [write, loop_cont fuel hpass] at hwrite
    have hstores : Stores data bytes 1 mid midHeap (bytes.drop copied) := by
      refine ⟨full, bytes.take copied, (List.take_append_drop _ _).symm, ?_, hmid⟩
      rw [List.length_take]
      omega
    exact hstores.loop hbytes hwrite

/-- So does one that gets a chunk at once. -/
theorem Holds.write_some (h : cb.Holds heap full data) (hne : bytes ≠ []) (hbytes : bytes.length < 2 ^ 32)
    (hgoes : ¬ RefusedAtOnce allocator cb heap) {r : ret_t}
    (hwrite : cb.write allocator heap bytes fuel = ok (r, next, nextHeap)) :
    ∃ rest, Stores data bytes 1 next nextHeap rest := by
  by_cases hfull : cb.m_current_chunk_pos = cb.m_chunk_size
  · obtain ⟨⟨addr, block⟩, halloc⟩ := Option.ne_none_iff_exists'.mp fun hnone => hgoes ⟨hfull, hnone⟩
    obtain ⟨midHeap, hpass, hmid, _⟩ := h.write_new hne hfull halloc
    cases fuel with
    | zero => cases hwrite
    | succ fuel =>
      rw [write, loop_cont fuel hpass] at hwrite
      have hroom : (0 : UInt32) ≠ cb.m_chunk_size := by
        intro hzero
        have hpos := h.size_pos
        rw [← hzero] at hpos
        exact absurd hpos (by decide)
      exact hmid.write_room hne hbytes hroom hwrite
  · exact h.write_room hne hbytes hfull hwrite

theorem write_nil (allocator : Allocator) (cb : ChunkBuffer) (heap : Heap) (fuel : Nat) :
    cb.write allocator heap [] (fuel + 1) = ok (kOk, cb, heap) := rfl

/-- A write that is refused at once changes nothing that is stored. -/
theorem RefusedAtOnce.write (h : RefusedAtOnce allocator cb heap) (hne : bytes ≠ []) (fuel : Nat) :
    cb.write allocator heap bytes (fuel + 1) = ok (kEOutOfMemory, cb, heap.asked) :=
  loop_done fuel (write_refused hne h.1 h.2)

/-- Without a chunk every other write follows the null pointer. -/
theorem write_without_chunk (hcurrent : cb.m_current_chunk = nullptr) (hne : bytes ≠ [])
    (hgoes : ¬ RefusedAtOnce allocator cb heap) (fuel : Nat) :
    cb.write allocator heap bytes (fuel + 1) = fail .invalid_access := by
  have hpass : write_pass allocator (cb, heap, bytes) = fail .invalid_access := by
    obtain ⟨byte, rest, rfl⟩ := List.exists_cons_of_ne_nil hne
    by_cases hfull : cb.m_current_chunk_pos = cb.m_chunk_size
    · obtain ⟨⟨addr, block⟩, halloc⟩ := Option.ne_none_iff_exists'.mp fun hnone => hgoes ⟨hfull, hnone⟩
      obtain ⟨haddr, _⟩ := allocator.fresh _ _ _ _ halloc
      simp [write_pass, hfull, Heap.operator_new_of_some halloc, haddr, hcurrent, Heap.store_word, Heap.null]
    · have hremain : cb.m_chunk_size - cb.m_current_chunk_pos ≠ 0 := by
        rw [ne_eq, UInt32.sub_eq_iff_eq_add, UInt32.zero_add]
        exact Ne.symm hfull
      simp [write_pass, hremain, hcurrent, Heap.store_bytes, Heap.null]
  rw [write, exec.loop, hpass, bind_fail]

/-- A write that comes back without a chunk had nothing to write, or was refused at once. -/
theorem write_without_chunk_ok (hcurrent : cb.m_current_chunk = nullptr) {r : ret_t}
    (hwrite : cb.write allocator heap bytes fuel = ok (r, next, nextHeap)) :
    next = cb ∧ nextHeap.live = heap.live ∧ (is_failed r = true → RefusedAtOnce allocator cb heap) := by
  cases fuel with
  | zero => cases hwrite
  | succ fuel =>
    by_cases hne : bytes = []
    · rw [hne, write_nil] at hwrite
      cases hwrite
      exact ⟨rfl, rfl, fun hfailed => absurd hfailed (by decide)⟩
    · by_cases hrefused : RefusedAtOnce allocator cb heap
      · rw [hrefused.write hne fuel] at hwrite
        cases hwrite
        exact ⟨rfl, rfl, fun _ => hrefused⟩
      · rw [write_without_chunk hcurrent hne hrefused fuel] at hwrite
        cases hwrite

/-- The total tells that bytes were stored. -/
theorem Stores.total_ne {rest : List UInt8} (h : Stores data bytes 1 next nextHeap rest)
    (hbytes : bytes.length < 2 ^ 32) : next.m_total_size ≠ data.length.toUInt32 := by
  obtain ⟨full, written, hsplit, hleast, hholds⟩ := h
  rw [hsplit, List.length_append] at hbytes
  rw [hholds.total, List.length_append, ne_eq, ← UInt32.toNat_inj]
  change ¬ (data.length + written.length) % 2 ^ 32 = data.length % 2 ^ 32
  omega

end ChunkBuffer

namespace HttpListenerResponseStream

variable {allocator : Allocator} {stream next : HttpListenerResponseStream} {heap nextHeap : Heap}
  {data bytes : List UInt8} {fuel : Nat} {answer : RetVal UInt32}

/-- The answer of a failed write. -/
theorem write_failed (hwrite : stream.write allocator heap bytes fuel = ok (answer, next, nextHeap))
    (hfailed : is_failed answer.ret = true) :
    answer.val = 0 ∧ ∃ r, is_failed r = true ∧
      stream.m_chunk_buffer.write allocator heap bytes fuel = ok (r, next.m_chunk_buffer, nextHeap) := by
  obtain ⟨⟨r, cb, cbHeap⟩, hcb, hresult⟩ := bind_eq_ok_iff.mp hwrite
  simp only at hresult
  split at hresult
  · cases hresult
    exact ⟨rfl, r, hfailed, hcb⟩
  · cases hresult
    exact absurd hfailed (by simp)

/-- A write faults where the write to its chunks does. -/
theorem write_eq_fail_iff {error : Fault} :
    stream.write allocator heap bytes fuel = fail error ↔
      stream.m_chunk_buffer.write allocator heap bytes fuel = fail error := by
  rw [write]
  cases stream.m_chunk_buffer.write allocator heap bytes fuel with
  | ok result =>
    obtain ⟨r, m_chunk_buffer, nextHeap⟩ := result
    simp only [bind_ok]
    split <;> simp
  | fail other => simp
  | div => simp

theorem write_refused (h : stream.m_chunk_buffer.RefusedAtOnce allocator heap) (hne : bytes ≠ []) (fuel : Nat) :
    stream.write allocator heap bytes (fuel + 1) = ok (⟨kEOutOfMemory, 0⟩, stream, heap.asked) := by
  rw [write, h.write hne fuel, bind_ok]
  rfl

/-- The response as it was: no count, and what is stored and its size are the same. -/
structure Unchanged (stream : HttpListenerResponseStream) (data : List UInt8) (answer : RetVal UInt32)
    (next : HttpListenerResponseStream) (nextHeap : Heap) : Prop where
  count : answer.val = 0
  contents : next.m_chunk_buffer.Contains nextHeap data
  total : next.m_chunk_buffer.get_total_size = stream.m_chunk_buffer.get_total_size

/-- A failed write leaves the response unchanged if and only if it fails with the first chunk
it needs, and needs it at once. -/
theorem failed_write_unchanged_iff (hcontains : stream.m_chunk_buffer.Contains heap data)
    (hbytes : bytes.length < 2 ^ 32)
    (hwrite : stream.write allocator heap bytes fuel = ok (answer, next, nextHeap))
    (hfailed : is_failed answer.ret = true) :
    stream.Unchanged data answer next nextHeap ↔ stream.m_chunk_buffer.RefusedAtOnce allocator heap := by
  obtain ⟨hcount, r, hr, hcb⟩ := write_failed hwrite hfailed
  cases fuel with
  | zero => cases hcb
  | succ fuel =>
    have hne : bytes ≠ [] := by
      rintro rfl
      rw [ChunkBuffer.write_nil, ok.injEq, Prod.mk.injEq] at hcb
      rw [← hcb.1] at hr
      exact absurd hr (by decide)
    constructor
    · intro hunchanged
      rcases hcontains with ⟨hvacant, _⟩ | ⟨full, hholds⟩
      · exact (ChunkBuffer.write_without_chunk_ok hvacant.current_eq hcb).2.2 hr
      · by_contra hgoes
        obtain ⟨rest, hstores⟩ := hholds.write_some hne hbytes hgoes hcb
        apply hstores.total_ne hbytes
        rw [← hholds.total]
        exact hunchanged.total
    · intro hrefused
      rw [hrefused.write hne fuel, ok.injEq, Prod.mk.injEq, Prod.mk.injEq] at hcb
      obtain ⟨_, hsame, rfl⟩ := hcb
      refine ⟨hcount, ?_, by rw [← hsame]⟩
      rw [← hsame]
      exact hcontains.imp_right fun ⟨full, hholds⟩ => ⟨full, hholds.of_live rfl⟩

/-- A chunk of one byte that is full, and no memory for another. -/
theorem failed_write_unchanged_full :
    Unchanged ⟨⟨1, 1, 1, 1, 1⟩⟩ [7] ⟨kEOutOfMemory, 0⟩ ⟨⟨1, 1, 1, 1, 1⟩⟩
      (Heap.empty.put 1 (some ⟨5, nullptr, [7]⟩)).asked := by
  have hholds : ChunkBuffer.Holds ⟨1, 1, 1, 1, 1⟩ (Heap.empty.put 1 (some ⟨5, nullptr, [7]⟩)) [] [7] := {
    size_pos := by decide
    size_fits := by decide
    chain := rfl
    current_notMem := by simp
    full_chunk := by simp
    current_chunk := ⟨_, rfl, rfl, rfl⟩
    pos_le := by decide
    contents := rfl
    total := rfl }
  exact (failed_write_unchanged_iff (.inr ⟨[], hholds⟩) (by decide : [(8 : UInt8)].length < 2 ^ 32)
    (rfl : write (.limited 0) _ _ [8] 1 = _) rfl).mpr ⟨rfl, rfl⟩

/-- A body of 513 bytes with memory for one chunk: the write fails, and 512 bytes are stored. -/
theorem failed_write_stores_part :
    (create (.limited 1) {} .empty >>= fun (_, stream, heap) =>
      stream.write (.limited 1) heap (List.replicate 513 7) 8 >>= fun (answer, next, _) =>
      ok (answer, stream.m_chunk_buffer.get_total_size, next.m_chunk_buffer.get_total_size)) =
        ok (⟨kEOutOfMemory, 0⟩, 0, 512) := by
  decide +kernel

end HttpListenerResponseStream

end kfw.web
