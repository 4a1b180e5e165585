import Kfw.Web.ChunkBuffer.Dispose
import Kfw.Web.ChunkBuffer.Replay

open exec Result

namespace kfw.web

open ChunkBufferEnumerator

/-- The data of one chunk after the other, as a walk from the first chunk to the
end of the chain gives it. -/
def ChunkBuffer.chunks (cb : ChunkBuffer) (heap : Heap) (fuel : Nat) : Exec (List (List UInt8)) :=
  walk heap (fun acc data => ok (.cont (acc ++ [data]))) id fuel (mk_of cb) []

/-- A chain that can be walked to its end: any walk of it visits `pieces`, and
its blocks are linked up to a null link. -/
structure Walked (heap : Heap) (fuel : Nat) (cursor : ChunkBufferEnumerator) (pieces : List (List UInt8)) :
    Prop where
  walk_eq : ∀ {τ ρ : Type} (visit : τ → List UInt8 → Exec (Flow τ ρ)) (finish : τ → ρ) (acc : τ),
    walk heap visit finish fuel cursor acc =
      visit_all visit (fun _ acc => ok (finish acc)) pieces.length acc pieces
  linked : ∃ nodes, Segment heap.word cursor.m_current_chunk nodes nullptr ∧ nodes.length < fuel ∧
    ∀ node ∈ nodes, ChunkBuffer.HasLink heap node

variable {heap : Heap} {cursor : ChunkBufferEnumerator}

/-- A pass at the end of the chain. -/
theorem Walked.at_end (hend : cursor.is_end = true) (fuel : Nat) : Walked heap (fuel + 1) cursor [] where
  walk_eq visit finish acc := by
    simp only [walk, loop, walk_pass, hend, if_true, bind_ok, visit_all]
  linked := ⟨[], (of_decide_eq_true hend : cursor.m_current_chunk = nullptr), Nat.succ_pos _, by simp⟩

/-- A pass at a chunk. -/
theorem Walked.cons {piece : List UInt8} (hdata : cursor.get_data heap = ok piece)
    {next : ChunkBufferEnumerator} (hnext : cursor.next heap = ok next) (hend : cursor.is_end = false)
    {fuel : Nat} {pieces : List (List UInt8)} (h : Walked heap fuel next pieces) :
    Walked heap (fuel + 1) cursor (piece :: pieces) where
  walk_eq visit finish acc := by
    simp only [List.length_cons, visit_all, walk, loop, walk_pass, hend, Bool.false_eq_true, if_false, hdata,
      bind_ok, hnext]
    cases visit acc piece with
    | fail error => rfl
    | div => rfl
    | ok flow =>
      cases flow with
      | done result => rfl
      | cont acc =>
        simp only [bind_ok, proceed_cont]
        exact h.walk_eq visit finish acc
  linked := by
    obtain ⟨nodes, hchain, hlength, hlinks⟩ := h.linked
    have hnull : cursor.m_current_chunk ≠ nullptr := of_decide_eq_false hend
    rw [ChunkBufferEnumerator.next, if_neg hnull] at hnext
    obtain ⟨link, hload, hresult⟩ := bind_eq_ok_iff.mp hnext
    cases hresult
    -- a link that was read is that of a block in use
    unfold Heap.load_word at hload
    cases hlive : heap.live cursor.m_current_chunk with
    | none => simp [hlive] at hload
    | some block =>
      simp only [hlive] at hload
      split at hload
      · cases hload
      · rename_i hsize
        cases hload
        have hlink : ChunkBuffer.HasLink heap cursor.m_current_chunk :=
          ⟨block, hlive, Nat.not_lt.mp fun hlt => hsize (UInt32.lt_iff_toNat_lt.mpr hlt)⟩
        refine ⟨cursor.m_current_chunk :: nodes, ⟨rfl, ?_⟩, Nat.succ_lt_succ hlength, ?_⟩
        · rw [Heap.word_of_live hlive]
          exact hchain
        · intro node hnode
          rcases List.mem_cons.mp hnode with rfl | hnode
          · exact hlink
          · exact hlinks node hnode

/-- Collecting the data shows how any other walk goes; the induction is on the
fuel, as the chain is not known beforehand. -/
theorem walked_of_collected {fuel : Nat} {acc all : List (List UInt8)}
    (hwalk : walk heap (fun acc data => ok (.cont (acc ++ [data]))) id fuel cursor acc = ok all) :
    ∃ pieces, all = acc ++ pieces ∧ Walked heap fuel cursor pieces := by
  induction fuel generalizing cursor acc with
  | zero => cases hwalk
  | succ fuel ih =>
    cases hend : cursor.is_end with
    | true =>
      simp only [walk, loop, walk_pass, hend, if_true, bind_ok, id_eq] at hwalk
      cases hwalk
      exact ⟨[], (List.append_nil _).symm, .at_end hend fuel⟩
    | false =>
      simp only [walk, loop, walk_pass, hend, Bool.false_eq_true, if_false, bind_ok] at hwalk
      obtain ⟨flow, hpass, hrest⟩ := bind_eq_ok_iff.mp hwalk
      obtain ⟨piece, hdata, hpass⟩ := bind_eq_ok_iff.mp hpass
      obtain ⟨next, hnext, hpass⟩ := bind_eq_ok_iff.mp hpass
      cases hpass
      obtain ⟨pieces, rfl, hwalked⟩ := ih hrest
      exact ⟨piece :: pieces, by simp, .cons hdata hnext hend hwalked⟩

namespace ChunkBuffer

variable {cb : ChunkBuffer} {fuel : Nat} {pieces : List (List UInt8)}

theorem walked_of_chunks (hchunks : cb.chunks heap fuel = ok pieces) : Walked heap fuel (mk_of cb) pieces := by
  obtain ⟨_, rfl, hwalked⟩ := walked_of_collected hchunks
  exact hwalked

/-- A buffer whose chunks can be walked to the end is disposed. -/
theorem dispose_of_chunks (hchunks : cb.chunks heap fuel = ok pieces) :
    ∃ next nextHeap, cb.dispose heap fuel = ok (next, nextHeap) := by
  obtain ⟨nodes, hchain, hlength, hlinks⟩ := (walked_of_chunks hchunks).linked
  unfold dispose
  split
  · exact ⟨_, _, rfl⟩
  · have hnull : nullptr ∉ nodes := by
      intro hmem
      obtain ⟨block, hlive, _⟩ := hlinks nullptr hmem
      exact Heap.live_ne_nullptr hlive rfl
    obtain ⟨nextHeap, hdispose⟩ := dispose_chunks_chain hchain (hchain.nodup hnull) hlinks fuel
    rw [if_neg (Nat.not_le.mpr hlength)] at hdispose
    have hfreed : dispose_chunks heap cb.m_first_chunk fuel = ok nextHeap := hdispose
    rw [hfreed]
    exact ⟨_, _, rfl⟩

end ChunkBuffer

end kfw.web
