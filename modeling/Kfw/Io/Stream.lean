import Kfw.Common.Base

open exec Result

namespace kfw.io

/-- A `Stream` whose state is a `σ`. A read is asked for a number of bytes and
answers with those it put in the buffer; a write is given the bytes. -/
structure Stream (σ : Type) where
  read : σ → UInt32 → Exec (RetVal UInt32 × List UInt8 × σ)
  write : σ → List UInt8 → Exec (RetVal UInt32 × σ)
  flush : σ → Exec σ

variable {σ : Type}

/-- A read that comes back says how many bytes it put in the buffer, which are
no more than it was asked for. -/
def Stream.ReturnsAtMost (stream : Stream σ) : Prop :=
  ∀ state size r data next, stream.read state size = ok (r, data, next) →
    r.val.toNat = data.length ∧ data.length ≤ size.toNat

/-- `pending state bytes` says that the stream has `bytes` still to give: as long
as there are any, a read succeeds with some of them, in their order. How many a
read gives is up to the stream. -/
def Stream.Delivers (stream : Stream σ) (pending : σ → List UInt8 → Prop) : Prop :=
  ∀ state bytes size, pending state bytes → bytes ≠ [] → 0 < size.toNat →
    ∃ data rest next, stream.read state size = ok (⟨kOk, data.length.toUInt32⟩, data, next) ∧
      data ≠ [] ∧ data.length ≤ size.toNat ∧ bytes = data ++ rest ∧ pending next rest

/-- A connection that breaks off: when the stream has given everything, each of its reads
fails, and stays so. -/
structure Stream.BreaksOff (stream : Stream σ) (pending : σ → List UInt8 → Prop) : Prop where
  delivers : stream.Delivers pending
  fails : ∀ state size, pending state [] → 0 < size.toNat →
    ∃ r data next, stream.read state size = ok (r, data, next) ∧ is_failed r.ret = true ∧
      data.length ≤ size.toNat ∧ pending next []

/-- A connection that is cut off: when the stream has given everything, each of its reads
comes back with the value 0, and stays so. -/
structure Stream.CutOff (stream : Stream σ) (pending : σ → List UInt8 → Prop) : Prop where
  delivers : stream.Delivers pending
  ends : ∀ state size, pending state [] → 0 < size.toNat →
    ∃ ret next, stream.read state size = ok (⟨ret, 0⟩, [], next) ∧ pending next []

/-- `sent state bytes` says that the stream has taken `bytes` so far: it takes
every write whole. -/
structure Stream.Accepts (stream : Stream σ) (sent : σ → List UInt8 → Prop) : Prop where
  write : ∀ state bytes data, sent state bytes →
    ∃ next, stream.write state data = ok (⟨kOk, data.length.toUInt32⟩, next) ∧ sent next (bytes ++ data)
  flush : ∀ state bytes, sent state bytes → ∃ next, stream.flush state = ok next ∧ sent next bytes

/-- `sent` is what the stream has taken so far: it takes a write whole, or fails
and takes nothing of it. -/
structure Stream.AllOrNothing (stream : Stream σ) (sent : σ → List UInt8) : Prop where
  write : ∀ state data, ∃ r next, stream.write state data = ok (r, next) ∧
    (r.ret = kOk ∧ sent next = sent state ++ data ∨ is_failed r.ret = true ∧ sent next = sent state)
  flush : ∀ state, ∃ next, stream.flush state = ok next ∧ sent next = sent state

/-- A write of some bytes succeeds with a part of them, one at least, or fails with the
value 0 and takes none; `accepted` is what the stream has taken so far. -/
def Stream.SendsPartly (stream : Stream σ) (accepted : σ → List UInt8) : Prop :=
  ∀ state data, data ≠ [] → ∃ r next, stream.write state data = ok (r, next) ∧
    (is_failed r.ret = false ∧ 1 ≤ r.val.toNat ∧ r.val.toNat ≤ data.length ∧
        accepted next = accepted state ++ data.take r.val.toNat ∨
      is_failed r.ret = true ∧ r.val = 0 ∧ accepted next = accepted state)

theorem Stream.SendsPartly.answer {stream : Stream σ} {accepted : σ → List UInt8}
    (h : stream.SendsPartly accepted) {state next : σ} {data : List UInt8} {r : RetVal UInt32} (hdata : data ≠ [])
    (hwrite : stream.write state data = ok (r, next)) :
    is_failed r.ret = false ∧ 1 ≤ r.val.toNat ∧ r.val.toNat ≤ data.length ∧
        accepted next = accepted state ++ data.take r.val.toNat ∨
      is_failed r.ret = true ∧ r.val = 0 ∧ accepted next = accepted state := by
  obtain ⟨r', next', hwrite', hanswer⟩ := h state data hdata
  obtain ⟨rfl, rfl⟩ : r' = r ∧ next' = next := by simpa [hwrite] using hwrite'.symm
  exact hanswer

end kfw.io
