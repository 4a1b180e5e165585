import Kfw.Web.ChunkBuffer.Contents

open exec Result

namespace kfw.web

open ChunkBufferEnumerator

variable {τ ρ : Type} {heap : Heap} {cb : ChunkBuffer} {full : List Addr} {data : List UInt8}

/-- Visiting pieces of data one after the other, each for one unit of fuel, and
then going on with `after` unless a visit ended the loop. -/
def visit_all (visit : τ → List UInt8 → Exec (Flow τ ρ)) (after : Nat → τ → Exec ρ) :
    Nat → τ → List (List UInt8) → Exec ρ
  | fuel, acc, [] => after fuel acc
  | fuel, acc, piece :: pieces =>
    match fuel with
    | 0 => div
    | fuel + 1 => (visit acc piece).proceed fun acc => visit_all visit after fuel acc pieces

namespace ChunkBuffer

/-- The data of the chunks of a buffer, in their order. -/
def pieces (cb : ChunkBuffer) (heap : Heap) (full : List Addr) : List (List UInt8) :=
  full.map heap.bytes ++ [(heap.bytes cb.m_current_chunk).take cb.m_current_chunk_pos.toNat]

theorem length_pieces (cb : ChunkBuffer) (heap : Heap) (full : List Addr) :
    (cb.pieces heap full).length = full.length + 1 := by
  simp [pieces]

theorem Holds.flatten_pieces (h : cb.Holds heap full data) : (cb.pieces heap full).flatten = data := by
  rw [h.contents]
  simp [pieces, List.flatMap_def]

theorem Holds.map_length_pieces (h : cb.Holds heap full data) : (cb.pieces heap full).map List.length =
    List.replicate full.length cb.m_chunk_size.toNat ++ [cb.m_current_chunk_pos.toNat] := by
  have hfull : full.map (List.length ∘ heap.bytes) = List.replicate full.length cb.m_chunk_size.toNat := by
    apply List.eq_replicate_iff.mpr
    refine ⟨List.length_map _, fun length hlength => ?_⟩
    obtain ⟨chunk, hchunk, rfl⟩ := List.mem_map.mp hlength
    exact (h.full_chunk chunk hchunk).length_bytes
  rw [pieces, List.map_append, List.map_map, hfull, List.map_singleton, List.length_take,
    h.current_chunk.length_bytes, Nat.min_eq_left h.pos_le]

section Same

variable {P : Addr → Addr → Prop} {chunk_size : UInt32} {cb' : ChunkBuffer} {heap' : Heap} {full' : List Addr}

/-- No chunk is begun before the one in front of it is full. -/
theorem Stored.length_full_le_of_same (h : Stored P chunk_size cb heap full data)
    (h' : Stored P chunk_size cb' heap' full' data) : full.length ≤ full'.length := by
  rcases h.needed with rfl | hneeded
  · exact Nat.zero_le _
  · by_contra hlt
    have hmul := Nat.mul_le_mul_right chunk_size.toNat (Nat.succ_le_of_lt (Nat.lt_of_not_le hlt))
    have hlength := h'.holds.length_eq
    have hpos := h'.holds.pos_le
    rw [h'.size] at hlength hpos
    rw [Nat.succ_mul] at hmul
    omega

/-- How data is split into chunks depends only on the data. -/
theorem Stored.pieces_eq (h : Stored P chunk_size cb heap full data)
    (h' : Stored P chunk_size cb' heap' full' data) :
    full.length = full'.length ∧ cb.pieces heap full = cb'.pieces heap' full' := by
  have hfull : full.length = full'.length :=
    Nat.le_antisymm (h.length_full_le_of_same h') (h'.length_full_le_of_same h)
  have hpos : cb.m_current_chunk_pos.toNat = cb'.m_current_chunk_pos.toNat := by
    have hlength := h.holds.length_eq
    have hlength' := h'.holds.length_eq
    rw [h.size, hfull] at hlength
    rw [h'.size] at hlength'
    omega
  refine ⟨hfull, List.eq_iff_flatten_eq.mpr ⟨?_, ?_⟩⟩
  · rw [h.holds.flatten_pieces, h'.holds.flatten_pieces]
  · rw [h.holds.map_length_pieces, h'.holds.map_length_pieces, h.size, h'.size, hfull, hpos]

end Same

variable (visit : τ → List UInt8 → Exec (Flow τ ρ)) (finish : τ → ρ)

/-- A pass at a chunk visits its data and goes on at its link. -/
theorem walk_chunk {chunk : Addr} (hchunk : IsChunk heap cb.m_chunk_size chunk) {piece : List UInt8}
    (hdata : get_data { m_chunk_buffer := cb, m_current_chunk := chunk } heap = ok piece) (fuel : Nat)
    (acc : τ) :
    walk heap visit finish (fuel + 1) { m_chunk_buffer := cb, m_current_chunk := chunk } acc =
      (visit acc piece).proceed fun acc =>
        walk heap visit finish fuel { m_chunk_buffer := cb, m_current_chunk := heap.word chunk } acc := by
  obtain ⟨block, hlive, hsize, _⟩ := hchunk
  have hnull := Heap.live_ne_nullptr hlive
  have hnext : ChunkBufferEnumerator.next { m_chunk_buffer := cb, m_current_chunk := chunk } heap =
      ok { m_chunk_buffer := cb, m_current_chunk := heap.word chunk } := by
    simp only [ChunkBufferEnumerator.next, hnull, if_false, Heap.load_word_of_live hlive (by omega),
      Heap.word_of_live hlive, bind_ok]
  simp only [walk, loop, walk_pass, is_end, hnull, decide_false, Bool.false_eq_true, if_false, hdata,
    bind_ok, hnext]
  cases visit acc piece with
  | ok flow => cases flow <;> rfl
  | fail error => rfl
  | div => rfl

/-- At the end of a chain nothing is visited any more. -/
theorem walk_end (heap : Heap) (cb : ChunkBuffer) (fuel : Nat) (acc : τ) :
    walk heap visit finish (fuel + 1) { m_chunk_buffer := cb, m_current_chunk := nullptr } acc =
      ok (finish acc) := by
  simp only [walk, loop, walk_pass, is_end, decide_true, if_true, bind_ok]

/-- The data of a full chunk is all of it. -/
theorem Holds.get_data_full (h : cb.Holds heap full data) {chunk : Addr} (hmem : chunk ∈ full) :
    get_data { m_chunk_buffer := cb, m_current_chunk := chunk } heap = ok (heap.bytes chunk) := by
  have hne : chunk ≠ cb.m_current_chunk := fun heq => h.current_notMem (heq ▸ hmem)
  obtain ⟨block, hlive, _, hbytes⟩ := h.full_chunk chunk hmem
  have hload := Heap.load_bytes_of_live hlive cb.m_chunk_size (by omega)
  rw [← hbytes, List.take_length] at hload
  rw [Heap.bytes_of_live hlive, get_data, get_data_size, if_neg hne, hload]

theorem Holds.get_data_current (h : cb.Holds heap full data) :
    get_data { m_chunk_buffer := cb, m_current_chunk := cb.m_current_chunk } heap =
      ok ((heap.bytes cb.m_current_chunk).take cb.m_current_chunk_pos.toNat) := by
  obtain ⟨block, hlive, _, hbytes⟩ := h.current_chunk
  have hpos := h.pos_le
  have hload := Heap.load_bytes_of_live hlive cb.m_current_chunk_pos (by omega)
  rw [Heap.bytes_of_live hlive, get_data, get_data_size, if_pos rfl, hload]

/-- Walking the chain visits the pieces, and then stands at the link of the
current chunk. -/
theorem Holds.walk_chain (h : cb.Holds heap full data) (fuel : Nat) (acc : τ) :
    walk heap visit finish fuel (mk_of cb) acc =
      visit_all visit (fun fuel acc => walk heap visit finish fuel
        { m_chunk_buffer := cb, m_current_chunk := heap.word cb.m_current_chunk } acc) fuel acc
        (cb.pieces heap full) := by
  -- the induction is on the part of the chain that is still ahead
  have hfrom : ∀ ahead head fuel acc, (∀ chunk ∈ ahead, chunk ∈ full) →
      Segment heap.word head ahead cb.m_current_chunk →
      walk heap visit finish fuel { m_chunk_buffer := cb, m_current_chunk := head } acc =
        visit_all visit (fun fuel acc => walk heap visit finish fuel
          { m_chunk_buffer := cb, m_current_chunk := heap.word cb.m_current_chunk } acc) fuel acc
          (cb.pieces heap ahead) := by
    intro ahead
    induction ahead with
    | nil =>
      intro head fuel acc _ hchain
      obtain rfl : head = cb.m_current_chunk := hchain
      cases fuel with
      | zero => rfl
      | succ fuel =>
        rw [walk_chunk visit finish h.current_chunk h.get_data_current]
        simp only [pieces, List.map_nil, List.nil_append, visit_all]
    | cons chunk ahead ih =>
      intro head fuel acc hahead hchain
      obtain ⟨rfl, hchain⟩ := hchain
      have hmem := hahead head (by simp)
      cases fuel with
      | zero => rfl
      | succ fuel =>
        refine (walk_chunk visit finish (h.full_chunk head hmem) (h.get_data_full hmem) fuel acc).trans ?_
        simp only [pieces, List.map_cons, List.cons_append, visit_all]
        congr 1
        funext acc
        exact ih _ fuel acc (fun chunk hchunk => hahead chunk (by simp [hchunk])) hchain
  exact hfrom full cb.m_first_chunk fuel acc (fun _ hchunk => hchunk) h.chain

/-- Writing one byte string after the other, up to the first that fails. -/
def write_all (allocator : Allocator) (fuel : Nat) : ChunkBuffer → Heap → List (List UInt8) →
    Exec (ret_t × ChunkBuffer × Heap)
  | cb, heap, [] => ok (kOk, cb, heap)
  | cb, heap, bytes :: writes => do
    let (r, cb, heap) ← cb.write allocator heap bytes fuel
    if is_failed r then ok (r, cb, heap) else write_all allocator fuel cb heap writes

/-- An `init` on an unused buffer, followed by writes. -/
def store (allocator : Allocator) (chunk_size : UInt32) (writes : List (List UInt8)) (heap : Heap) (fuel : Nat) :
    Exec (ret_t × ChunkBuffer × Heap) := do
  let (r, cb, heap) ← init allocator {} heap chunk_size
  if is_failed r then ok (r, cb, heap) else write_all allocator fuel cb heap writes

/-- The concatenation of the data over a walk from the first chunk to the end. -/
def replay (cb : ChunkBuffer) (heap : Heap) (fuel : Nat) : Exec (List UInt8) :=
  walk heap (fun acc data => ok (.cont (acc ++ data))) id fuel (mk_of cb) []

theorem visit_all_append (after : Nat → List UInt8 → Exec ρ) (fuel : Nat) (acc : List UInt8)
    (pieces : List (List UInt8)) :
    visit_all (fun acc data => ok (.cont (acc ++ data))) after (fuel + pieces.length) acc pieces =
      after fuel (acc ++ pieces.flatten) := by
  induction pieces generalizing acc with
  | nil => simp [visit_all]
  | cons piece pieces ih =>
    rw [List.length_cons, ← Nat.add_assoc]
    simp [visit_all, ih]

variable {allocator : Allocator} {P : Addr → Addr → Prop}

/-- All writes are stored behind the data, unless a request is refused. -/
theorem Stored.write_all_spec {chunk_size : UInt32} (h : Stored P chunk_size cb heap full data)
    (hwords : allocator.GivesWord P) {writes : List (List UInt8)}
    (hwrites : ∀ bytes ∈ writes, bytes.length < 2 ^ 32) (fuel : Nat)
    (hfuel : 2 * writes.flatten.length + 1 < fuel) :
    ∃ r next nextHeap, write_all allocator fuel cb heap writes = ok (r, next, nextHeap) ∧
      (r = kOk ∧ (∃ nextFull, Stored P chunk_size next nextHeap nextFull (data ++ writes.flatten)) ∨
        r = kEOutOfMemory ∧ ¬ allocator.Grants) := by
  induction writes generalizing cb heap full data with
  | nil => exact ⟨kOk, cb, heap, rfl, .inl ⟨rfl, full, by simpa using h⟩⟩
  | cons bytes writes ih =>
    rw [List.flatten_cons, List.length_append] at hfuel
    obtain ⟨⟨r, next, nextHeap⟩, hwrite, nextFull, written, rest, hsplit, hstored, hresult⟩ :=
      h.write_spec hwords (hwrites bytes (by simp)) fuel (by omega)
    simp only at hresult hstored
    rcases hresult with ⟨rfl, rfl⟩ | ⟨rfl, hrefused⟩
    · rw [List.append_nil] at hsplit
      subst hsplit
      obtain ⟨r, last, lastHeap, hrest, hlast⟩ := ih hstored
        (fun bytes hbytes => hwrites bytes (by simp [hbytes])) (by omega)
      refine ⟨r, last, lastHeap, by simp [write_all, hwrite, hrest], ?_⟩
      simpa only [List.flatten_cons, List.append_assoc] using hlast
    · refine ⟨kEOutOfMemory, next, nextHeap, ?_, .inr ⟨rfl, hrefused⟩⟩
      have hfailed : is_failed kEOutOfMemory = true := by decide
      simp [write_all, hwrite, hfailed]

/-- A chain that ends in null is replayed as the data in it. -/
theorem Holds.replay_eq (h : cb.Holds heap full data) (hend : heap.word cb.m_current_chunk = nullptr)
    {fuel : Nat} (hfuel : full.length + 1 < fuel) : cb.replay heap fuel = ok data := by
  obtain ⟨more, rfl⟩ : ∃ more, fuel = more + 1 + (full.length + 1) := ⟨fuel - full.length - 2, by omega⟩
  rw [replay, h.walk_chain, ← cb.length_pieces heap, visit_all_append, h.flatten_pieces, hend, walk_end,
    List.nil_append, id_eq]

/-- A chain whose last chunk is linked to itself is walked for ever. -/
theorem Holds.replay_div (h : cb.Holds heap full data)
    (hend : heap.word cb.m_current_chunk = cb.m_current_chunk) (fuel : Nat) :
    cb.replay heap (fuel + (full.length + 1)) = div := by
  rw [replay, h.walk_chain, ← cb.length_pieces heap, visit_all_append, hend]
  generalize [] ++ (cb.pieces heap full).flatten = acc
  induction fuel generalizing acc with
  | zero => rfl
  | succ fuel ih =>
    rw [walk_chunk _ _ h.current_chunk h.get_data_current, proceed_cont, hend, ih]

/-- What holds after a store that a bump allocator serves: the data is in the
buffer, and the last link is as the allocator left it once there is more than
one chunk. -/
theorem store_bump (word : Addr → Addr) {chunk_size : UInt32} (hpos : 0 < chunk_size.toNat)
    (hfits : chunk_size.toNat + 4 < 2 ^ 32) {writes : List (List UInt8)}
    (hwrites : ∀ bytes ∈ writes, bytes.length < 2 ^ 32) (heap : Heap) (fuel : Nat)
    (hfuel : 2 * writes.flatten.length + 1 < fuel) :
    ∃ cb nextHeap full, store (.bump word) chunk_size writes heap fuel = ok (kOk, cb, nextHeap) ∧
      Stored (fun addr link => link = word addr) chunk_size cb nextHeap full writes.flatten := by
  have hunused : ({} : ChunkBuffer).m_first_chunk = nullptr := rfl
  obtain ⟨first, firstHeap, hinit, hholds, hword, hsize⟩ :=
    init_holds hunused hpos hfits (rfl : (Allocator.bump word).alloc heap _ = some (_, _))
  have hgives : (Allocator.bump word).GivesWord (fun addr link => link = word addr) :=
    Allocator.bump_givesWord fun _ => rfl
  have hstored : Stored (fun addr link => link = word addr) chunk_size first firstHeap [] [] :=
    ⟨hholds, .inl ⟨rfl, hword⟩, hsize, .inl rfl⟩
  obtain ⟨r, cb, nextHeap, hrest, hresult⟩ := hstored.write_all_spec hgives hwrites fuel hfuel
  rcases hresult with ⟨rfl, full, hnext⟩ | ⟨rfl, hrefused⟩
  · exact ⟨cb, nextHeap, full, by simp [store, hinit, hrest], by simpa using hnext⟩
  · exact absurd (Allocator.bump_grants word) hrefused

/-- A chunk size so large that the size of a chunk wraps: the first link lies
outside the block that is given. -/
theorem store_fault (word : Addr → Addr) {chunk_size : UInt32} (hfits : ¬ chunk_size.toNat + 4 < 2 ^ 32)
    (writes : List (List UInt8)) (heap : Heap) (fuel : Nat) :
    store (.bump word) chunk_size writes heap fuel = fail .invalid_access := by
  have hlt := chunk_size.toNat_lt
  have hsize : (chunk_size + offsetof_m_buffer).toNat = chunk_size.toNat + 4 - 2 ^ 32 := by
    rw [UInt32.toNat_add]
    change (chunk_size.toNat + 4) % 2 ^ 32 = _
    omega
  have hsmall : chunk_size + offsetof_m_buffer < 4 := by
    rw [UInt32.lt_iff_toNat_lt, hsize]
    change _ < 4
    omega
  have hnull : heap.limit + 1 ≠ nullptr := Nat.succ_ne_zero _
  have hstore : ∀ block : Block, block.size < 4 →
      (heap.asked.put (heap.limit + 1) (some block)).store_word (heap.limit + 1) nullptr =
        fail .invalid_access := by
    intro block hblock
    simp only [Heap.store_word, Heap.put_live_self hnull, if_pos hblock]
  simp [store, init, Heap.operator_new, Allocator.bump, hnull, hstore, hsmall]

/-- One chunk holds no more than its size. -/
theorem Holds.full_ne_nil (h : cb.Holds heap full data) (hlength : cb.m_chunk_size.toNat < data.length) :
    full ≠ [] := by
  rintro rfl
  have hpos := h.pos_le
  have hdata := h.length_eq
  rw [List.length_nil, Nat.zero_mul] at hdata
  omega

theorem Holds.total_eq (h : cb.Holds heap full data) (hlength : data.length < 2 ^ 32) :
    cb.get_total_size.toNat = data.length := by
  rw [get_total_size, h.total]
  exact Nat.mod_eq_of_lt hlength

/-- `ChunkBuffer` stores and replays what is written: whatever the allocator
leaves in the memory it gives, storing a sequence of writes comes back, and when
it succeeds the walk ends with exactly the bytes written and the total size is
their number, if and only if a chunk with its link has a size below 2^32 and
all the bytes fit in one chunk. -/
theorem replay_iff (chunk_size : UInt32) (hpos : 0 < chunk_size.toNat) (writes : List (List UInt8))
    (hwrites : ∀ bytes ∈ writes, bytes.length < 2 ^ 32) :
    (∀ (allocator : Allocator) (heap : Heap), ∃ enough, ∀ fuel, enough ≤ fuel →
      ∃ r cb nextHeap, store allocator chunk_size writes heap fuel = ok (r, cb, nextHeap) ∧
        (r = kOk → cb.replay nextHeap fuel = ok writes.flatten ∧
          cb.get_total_size.toNat = writes.flatten.length)) ↔
    chunk_size.toNat + 4 < 2 ^ 32 ∧ writes.flatten.length ≤ chunk_size.toNat := by
  constructor
  · intro hreplay
    obtain ⟨enough, hreplay⟩ := hreplay (.bump id) .empty
    have hfits : chunk_size.toNat + 4 < 2 ^ 32 := by
      by_contra hfits
      obtain ⟨r, cb, nextHeap, hstore, _⟩ := hreplay enough (Nat.le_refl _)
      rw [store_fault id hfits] at hstore
      cases hstore
    refine ⟨hfits, ?_⟩
    by_contra hlong
    -- the last of several chunks is linked to itself
    obtain ⟨r, cb, nextHeap, hstore, hresult⟩ :=
      hreplay (enough + (2 * writes.flatten.length + 2)) (Nat.le_add_right _ _)
    obtain ⟨stored, storedHeap, full, hbump, hstored⟩ :=
      store_bump id hpos hfits hwrites .empty (enough + (2 * writes.flatten.length + 2)) (by omega)
    rw [hstore] at hbump
    cases hbump
    have hfull : full ≠ [] := hstored.holds.full_ne_nil (by rw [hstored.size]; omega)
    have hlink : nextHeap.word cb.m_current_chunk = cb.m_current_chunk :=
      (hstored.ends.resolve_left fun hend => hfull hend.1).2
    have hlength := hstored.holds.length_full_le
    have hdiv := hstored.holds.replay_div hlink (enough + (2 * writes.flatten.length + 2) - (full.length + 1))
    rw [Nat.sub_add_cancel (by omega), (hresult rfl).1] at hdiv
    cases hdiv
  · rintro ⟨hfits, hlength⟩ allocator heap
    refine ⟨2 * writes.flatten.length + 3, fun fuel hfuel => ?_⟩
    cases halloc : allocator.alloc heap (chunk_size + offsetof_m_buffer) with
    | none =>
      have hfailed : is_failed kEOutOfMemory = true := by decide
      refine ⟨kEOutOfMemory, { m_chunk_size := chunk_size }, heap.asked, ?_, fun hok => absurd hok (by decide)⟩
      simp [store, init, Heap.operator_new_of_none halloc, hfailed]
    | some answer =>
      obtain ⟨addr, block⟩ := answer
      have hunused : ({} : ChunkBuffer).m_first_chunk = nullptr := rfl
      obtain ⟨first, firstHeap, hinit, hholds, hword, hsize⟩ := init_holds hunused hpos hfits halloc
      have hgives : allocator.GivesWord (fun _ _ => True) := fun _ _ _ _ _ => trivial
      have hstored : Stored (fun _ _ => True) chunk_size first firstHeap [] [] :=
        ⟨hholds, .inl ⟨rfl, hword⟩, hsize, .inl rfl⟩
      obtain ⟨r, cb, nextHeap, hrest, hresult⟩ := hstored.write_all_spec hgives hwrites fuel (by omega)
      refine ⟨r, cb, nextHeap, by simp [store, hinit, hrest], ?_⟩
      rintro rfl
      rcases hresult with ⟨_, full, hnext⟩ | ⟨hcontra, _⟩
      · obtain rfl := hnext.full_eq_nil (by rw [List.nil_append]; exact hlength)
        have hend := (hnext.ends.resolve_right fun hend => hend.1 rfl).2
        exact ⟨hnext.holds.replay_eq hend (by simp only [List.length_nil]; omega),
          hnext.holds.total_eq (by rw [List.nil_append]; omega)⟩
      · exact absurd hcontra (by decide)

/-- Two writes that fill a chunk of two bytes. -/
theorem replay_one_chunk :
    ∃ enough, ∀ fuel, enough ≤ fuel →
      ∃ r cb nextHeap, store (.bump fun _ => 4096) 2 [[7], [8]] .empty fuel = ok (r, cb, nextHeap) ∧
        (r = kOk → cb.replay nextHeap fuel = ok [7, 8] ∧ cb.get_total_size.toNat = 2) :=
  (replay_iff 2 (by decide) [[7], [8]] (by simp)).mpr ⟨by decide, by decide⟩ _ _

/-- Two bytes in chunks of one, with an old pointer in the memory given: the
walk goes on through it from the last chunk. -/
theorem replay_follows_stale_link :
    ∃ cb heap, store (.bump fun _ => 4096) 1 [[7, 8]] .empty 8 = ok (kOk, cb, heap) ∧
      cb.replay heap 3 = fail .invalid_access ∧ ∀ fuel data, cb.replay heap fuel ≠ ok data := by
  refine ⟨_, _, rfl, rfl, ?_⟩
  intro fuel data
  rcases fuel with _ | _ | _ | fuel <;> intro hok <;> cases hok

end ChunkBuffer

end kfw.web
