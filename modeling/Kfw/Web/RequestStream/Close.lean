import Kfw.Web.RequestStream

open exec Result kfw.io

namespace kfw.io

variable {σ : Type}

/-- Every read that asks for bytes succeeds with some of them. -/
def Stream.AlwaysGives (stream : Stream σ) : Prop :=
  ∀ state size, 0 < size.toNat → ∃ data next,
    stream.read state size = ok (⟨kOk, data.length.toUInt32⟩, data, next) ∧
      1 ≤ data.length ∧ data.length ≤ size.toNat

end kfw.io

namespace kfw.web

variable {σ : Type}

theorem BodyReads.endless_alwaysGives : BodyReads.endless.AlwaysGives := by
  intro state size hsize
  refine ⟨List.replicate size.toNat 0, (), ?_, ?_, ?_⟩
  · simp [BodyReads.endless]
  · rw [List.length_replicate]
    exact hsize
  · simp

namespace HttpListenerRequestStream

/-- What a read of `close` asks for: the rest of the body, as far as it fits in the
buffer. -/
def drain_size (self : HttpListenerRequestStream) : UInt32 :=
  let rem := self.m_content_length - self.m_read_pos
  if rem > 64 then 64 else rem

/-- A pass of the loop of `close`. -/
def close_pass (base : Stream σ) (state : BodyReads σ) : Exec (Flow (BodyReads σ) (BodyReads σ)) :=
  if ¬ state.stream.m_read_pos < state.stream.m_content_length then ok (.done state)
  else if ¬ state.stream.m_base_stream then fail .invalid_access
  else do
    let (r, data, base_state) ← base.read state.base_state state.stream.drain_size
    -- the read position stays where it was
    let state := { state with base_state, taken := state.taken + data.length }
    if is_failed r.ret then ok (.done state)
    else ok (.cont state)

def close (base : Stream σ) (state : BodyReads σ) (fuel : Nat) : Exec (BodyReads σ) :=
  loop (close_pass base) fuel state

theorem drain_size_bounds {self : HttpListenerRequestStream} (hlt : self.m_read_pos < self.m_content_length) :
    0 < self.drain_size.toNat ∧
      self.drain_size.toNat ≤ self.m_content_length.toNat - self.m_read_pos.toNat := by
  have hpos := UInt32.lt_iff_toNat_lt.mp hlt
  have hrem : (self.m_content_length - self.m_read_pos).toNat =
      self.m_content_length.toNat - self.m_read_pos.toNat :=
    UInt32.toNat_sub_of_le _ _ (UInt32.le_iff_toNat_le.mpr (by omega))
  rw [drain_size]
  split
  · next hlarge =>
    rw [gt_iff_lt, UInt32.lt_iff_toNat_lt, hrem] at hlarge
    change 64 < _ at hlarge
    exact ⟨by decide, by change 64 ≤ _; omega⟩
  · omega

/-- With the whole body read there is nothing to do. -/
theorem close_of_read {base : Stream σ} {state : BodyReads σ} {fuel : Nat}
    (hread : state.stream.m_read_pos = state.stream.m_content_length) :
    close base state (fuel + 1) = ok state := by
  have hend : ¬ state.stream.m_read_pos < state.stream.m_content_length := by
    rw [hread]
    exact UInt32.lt_irrefl _
  exact loop_done fuel (by rw [close_pass, if_pos hend])

/-- A pass that reads some bytes comes back with the same body to read. -/
theorem close_pass_again {base : Stream σ} (hbase : base.AlwaysGives) {state : BodyReads σ}
    (hattached : state.stream.m_base_stream = true)
    (hlt : state.stream.m_read_pos < state.stream.m_content_length) :
    ∃ next, close_pass base state = ok (.cont next) ∧ next.stream = state.stream ∧ state.taken < next.taken := by
  obtain ⟨data, base_state, hread, hsome, _⟩ := hbase state.base_state _ (drain_size_bounds hlt).1
  refine ⟨{ state with base_state, taken := state.taken + data.length }, ?_, rfl, ?_⟩
  · rw [close_pass, if_neg (not_not_intro hlt), if_neg (by simp [hattached]), hread]
    rfl
  · exact Nat.lt_add_of_pos_right hsome

/-- A rest of the body is read again and again. -/
theorem close_div {base : Stream σ} (hbase : base.AlwaysGives) {state : BodyReads σ}
    (hattached : state.stream.m_base_stream = true)
    (hlt : state.stream.m_read_pos < state.stream.m_content_length) (fuel : Nat) :
    close base state fuel = div := by
  refine loop_div _ (fun reached : BodyReads σ => reached.stream = state.stream) ?_ fuel rfl
  intro reached hsame
  rw [← hsame] at hattached hlt
  obtain ⟨next, hpass, hnext, _⟩ := close_pass_again hbase hattached hlt
  exact ⟨next, hpass, hnext.trans hsame⟩

/-- Closing the stream takes the rest of the body from the base stream and leaves the
position at the end of it. -/
def DrainsRest (base : Stream σ) (base_state : σ) (content_length read_pos : UInt32) : Prop :=
  ∃ fuel last, close base
      { stream := { m_base_stream := true, m_content_length := content_length, m_read_pos := read_pos }
        base_state } fuel = ok last ∧
    last.taken = content_length.toNat - read_pos.toNat ∧ last.stream.m_read_pos = content_length

/-- From a base stream that gives bytes the rest of the body is drained if and only if
there is none. -/
theorem drainsRest_iff {base : Stream σ} (hbase : base.AlwaysGives) (base_state : σ)
    {content_length read_pos : UInt32} (hpos : read_pos.toNat ≤ content_length.toNat) :
    DrainsRest base base_state content_length read_pos ↔ read_pos = content_length := by
  constructor
  · rintro ⟨fuel, last, hclose, -⟩
    by_contra hne
    have hlt : read_pos < content_length := by
      rw [UInt32.lt_iff_toNat_lt]
      exact Nat.lt_of_le_of_ne hpos fun hsame => hne (UInt32.toNat_inj.mp hsame)
    rw [close_div hbase rfl hlt] at hclose
    cases hclose
  · rintro rfl
    exact ⟨1, _, close_of_read rfl, by simp, rfl⟩

theorem drainsRest_read : DrainsRest BodyReads.endless () 3 3 :=
  (drainsRest_iff BodyReads.endless_alwaysGives () (by decide)).mpr rfl

/-- A body of one byte that was not read: closing the stream does not return. -/
theorem close_unread_byte :
    BodyReads.endless.AlwaysGives ∧
      ∀ fuel, close BodyReads.endless { stream := .attach 1, base_state := () } fuel = div :=
  ⟨BodyReads.endless_alwaysGives, close_div BodyReads.endless_alwaysGives rfl (by decide)⟩

end HttpListenerRequestStream

end kfw.web
