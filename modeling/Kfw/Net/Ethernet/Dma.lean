import Kfw.Lib.Overwrite
import Kfw.Lib.Pieces
import Kfw.Lib.Ring
import Kfw.Lib.Run
import Kfw.Net.Socket

open exec Result

namespace kfw.net

def ETH_MAX_PACKET_SIZE : Nat := 1524

/-- The descriptor that `HAL_ETH_DMATxDescListInit` and `HAL_ETH_DMARxDescListInit` chain to
another, in a list of `count`; nothing changes the chain afterwards. -/
def next_desc (count i : Nat) : Nat := if i < count - 1 then i + 1 else 0

/-- The chain goes around the descriptors. -/
theorem next_desc_mod {count : Nat} (hcount : 0 < count) (pos : Nat) :
    next_desc count (pos % count) = (pos + 1) % count := by
  have hlt := Nat.mod_lt pos hcount
  rw [next_desc, Nat.add_mod_eq_ite]
  by_cases hone : count = 1
  · subst hone
    simp [Nat.mod_one]
  · rw [Nat.mod_eq_of_lt (by omega : 1 < count)]
    by_cases hlast : pos % count < count - 1
    · rw [if_pos hlast, if_neg (by omega)]
    · rw [if_neg hlast, if_pos (by omega)]
      omega

/-- One of the buffers that the driver and the DMA of the Ethernet controller share. -/
structure DmaBuffer where
  bytes : List UInt8
  length_eq : bytes.length = ETH_MAX_PACKET_SIZE

namespace DmaBuffer

variable {buffer next : DmaBuffer} {offset : Nat} {data : List UInt8}

/-- A buffer as it is at the start of the program. -/
def cleared : DmaBuffer := ⟨List.replicate ETH_MAX_PACKET_SIZE 0, List.length_replicate⟩

/-- `memcpy` into a buffer. -/
def put (buffer : DmaBuffer) (offset : Nat) (data : List UInt8) : Exec DmaBuffer :=
  if hfits : offset + data.length ≤ buffer.bytes.length then
    ok {
      bytes := buffer.bytes.take offset ++ (data ++ buffer.bytes.drop (offset + data.length))
      length_eq := (length_overwrite hfits).trans buffer.length_eq }
  else fail .invalid_access

/-- `memcpy` from a buffer. -/
def get (buffer : DmaBuffer) (offset size : Nat) : Exec (List UInt8) :=
  if offset + size ≤ buffer.bytes.length then ok ((buffer.bytes.drop offset).take size) else fail .invalid_access

/-- What the DMA stores at the start of a buffer. -/
def store (buffer : DmaBuffer) (data : List UInt8) (hfits : data.length ≤ ETH_MAX_PACKET_SIZE) : DmaBuffer where
  bytes := data ++ buffer.bytes.drop data.length
  length_eq := by
    rw [List.length_append, List.length_drop, buffer.length_eq]
    omega

/-- Data is put behind what the buffer has in front of it. -/
theorem put_behind {front : List UInt8} (hfront : front <+: buffer.bytes)
    (hfits : front.length + data.length ≤ ETH_MAX_PACKET_SIZE) :
    ∃ next, buffer.put front.length data = ok next ∧ front ++ data <+: next.bytes := by
  have hbytes : front.length + data.length ≤ buffer.bytes.length := buffer.length_eq ▸ hfits
  refine ⟨_, dif_pos hbytes, ?_⟩
  have hsame := List.prefix_iff_eq_take.mp hfront
  simp only
  rw [← hsame, ← List.append_assoc]
  exact List.prefix_append _ _

/-- A part of what the buffer has in front is read. -/
theorem get_within {front : List UInt8} (hfront : front <+: buffer.bytes) {offset size : Nat}
    (hfits : offset + size ≤ front.length) : buffer.get offset size = ok ((front.drop offset).take size) := by
  have hle := hfront.length_le
  obtain ⟨rest, hrest⟩ := hfront
  rw [get, if_pos (by omega), ← hrest, List.drop_append_of_le_length (by omega), List.take_append_of_le_length]
  rw [List.length_drop]
  omega

end DmaBuffer

end kfw.net
