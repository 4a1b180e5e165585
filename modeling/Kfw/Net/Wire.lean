import Kfw.Net.Socket

open exec Result kfw.io

namespace kfw.net

/-- A connection that receives given segments and is then closed by its peer,
and that keeps what is sent. -/
structure Wire where
  segments : List (List UInt8)
  sent : List UInt8 := []
  deriving DecidableEq

namespace Wire

/-- A read gives the next segment, or as much of it as was asked for. -/
def stream : Stream Wire where
  read wire size :=
    match wire.segments with
    | [] => ok (⟨kESocketClosed, 0⟩, [], wire)
    | segment :: segments =>
      if segment.length ≤ size.toNat then
        ok (⟨kOk, segment.length.toUInt32⟩, segment, { wire with segments })
      else
        ok (⟨kOk, size⟩, segment.take size.toNat, { wire with segments := segment.drop size.toNat :: segments })
  write wire data := ok (⟨kOk, data.length.toUInt32⟩, { wire with sent := wire.sent ++ data })
  flush := ok

/-- The bytes that the segments make up, none of which is empty. -/
def Pending (wire : Wire) (bytes : List UInt8) : Prop :=
  [] ∉ wire.segments ∧ wire.segments.flatten = bytes

instance (wire : Wire) (bytes : List UInt8) : Decidable (wire.Pending bytes) := inferInstanceAs (Decidable (_ ∧ _))

theorem stream_delivers : stream.Delivers Pending := by
  rintro ⟨segments, sent⟩ bytes size ⟨hsegments, hbytes⟩ hne hsize
  cases segments with
  | nil => exact absurd hbytes.symm hne
  | cons segment segments =>
    rw [List.mem_cons, not_or] at hsegments
    by_cases hfits : segment.length ≤ size.toNat
    · refine ⟨segment, segments.flatten, ⟨segments, sent⟩, ?_, Ne.symm hsegments.1, hfits, hbytes.symm,
        hsegments.2, rfl⟩
      simp only [stream, if_pos hfits]
    · have hlength : (segment.take size.toNat).length = size.toNat := by
        rw [List.length_take]
        omega
      refine ⟨segment.take size.toNat, segment.drop size.toNat ++ segments.flatten,
        ⟨segment.drop size.toNat :: segments, sent⟩, ?_, ?_, by omega, ?_, ?_, rfl⟩
      · simp only [stream, if_neg hfits, hlength]
        rw [Nat.toUInt32_eq, UInt32.ofNat_toNat]
      · intro hnil
        rw [hnil, List.length_nil] at hlength
        omega
      · rw [← hbytes, List.flatten_cons, ← List.append_assoc, List.take_append_drop]
      · rw [List.mem_cons, not_or]
        refine ⟨fun hnil => ?_, hsegments.2⟩
        have := congrArg List.length hnil
        rw [List.length_nil, List.length_drop] at this
        omega

theorem stream_breaksOff : stream.BreaksOff Pending where
  delivers := stream_delivers
  fails := by
    rintro ⟨segments, sent⟩ size ⟨hsegments, hbytes⟩ -
    cases segments with
    | nil => exact ⟨_, [], _, rfl, rfl, Nat.zero_le _, hsegments, rfl⟩
    | cons segment segments =>
      rw [List.flatten_cons, List.append_eq_nil_iff] at hbytes
      exact absurd (List.mem_cons.mpr (.inl hbytes.1.symm)) hsegments

theorem stream_returnsAtMost : stream.ReturnsAtMost := by
  rintro ⟨segments, sent⟩ size r data next hread
  cases segments with
  | nil =>
    cases hread
    exact ⟨rfl, Nat.zero_le _⟩
  | cons segment segments =>
    have hsize := size.toNat_lt
    simp only [stream] at hread
    split at hread
    · cases hread
      exact ⟨Nat.mod_eq_of_lt (by omega), by omega⟩
    · cases hread
      rw [List.length_take]
      exact ⟨(Nat.min_eq_left (by omega : size.toNat ≤ segment.length)).symm, Nat.min_le_left _ _⟩

theorem stream_accepts : stream.Accepts fun wire bytes => wire.sent = bytes := by
  refine ⟨?_, fun wire bytes hsent => ⟨wire, rfl, hsent⟩⟩
  rintro wire bytes data rfl
  exact ⟨{ wire with sent := wire.sent ++ data }, rfl, rfl⟩

/-- The bytes of a wire in one segment. -/
def whole (bytes : List UInt8) : Wire := { segments := if bytes = [] then [] else [bytes] }

theorem whole_pending (bytes : List UInt8) : (whole bytes).Pending bytes := by
  by_cases hbytes : bytes = []
  · simp [whole, Pending, hbytes]
  · simp [whole, Pending, hbytes, Ne.symm hbytes]

end Wire

end kfw.net
