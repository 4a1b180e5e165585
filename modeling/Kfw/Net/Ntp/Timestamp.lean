import Kfw.Net.Ntp

open exec Result

namespace kfw.net

/-- The time at which the server received the request. -/
def srv_recv_tm (recv_data : Fin 48 → UInt8) : Int :=
  srv_tm (srv_recv_tm_words recv_data).1 (srv_recv_tm_words recv_data).2

/-- The time at which the server sent the reply. -/
def srv_send_tm (recv_data : Fin 48 → UInt8) : Int :=
  srv_tm (srv_send_tm_words recv_data).1 (srv_send_tm_words recv_data).2

theorem reply_offset_eq (recv_data : Fin 48 → UInt8) (cli_send_tm cli_recv_tm : Int) :
    reply_offset recv_data cli_send_tm cli_recv_tm =
      (srv_recv_tm recv_data - cli_send_tm).tdiv 2 - (cli_recv_tm - srv_send_tm recv_data).tdiv 2 := rfl

theorem toNat_or_of_lt {a b : UInt32} {x k : Nat} (ha : a.toNat = x * 2 ^ k) (hb : b.toNat < 2 ^ k) :
    (a ||| b).toNat = x * 2 ^ k + b.toNat := by
  rw [UInt32.toNat_or, ha, ← Nat.shiftLeft_eq, Nat.shiftLeft_add_eq_or_of_lt hb]

theorem toNat_byte_shift (byte : UInt8) {k : UInt32} (hk : k.toNat ≤ 24) :
    (byte.toUInt32 <<< k).toNat = byte.toNat * 2 ^ k.toNat := by
  have hbyte : byte.toNat * 2 ^ k.toNat < 2 ^ 8 * 2 ^ 24 :=
    Nat.mul_lt_mul_of_lt_of_le byte.toNat_lt (Nat.pow_le_pow_right (by decide) hk) (by decide)
  have hmod : k.toNat % 32 = k.toNat := Nat.mod_eq_of_lt (by omega)
  rw [UInt32.toNat_shiftLeft, hmod, UInt8.toNat_toUInt32, Nat.shiftLeft_eq]
  exact Nat.mod_eq_of_lt hbyte

/-- The bytes of a word do not overlap. -/
theorem toNat_be_bytes (byte0 byte1 byte2 byte3 : UInt8) :
    (byte0.toUInt32 <<< 24 ||| byte1.toUInt32 <<< 16 ||| byte2.toUInt32 <<< 8 ||| byte3.toUInt32).toNat =
      byte0.toNat * 2 ^ 24 + byte1.toNat * 2 ^ 16 + byte2.toNat * 2 ^ 8 + byte3.toNat := by
  have hbyte1 := byte1.toNat_lt
  have hbyte2 := byte2.toNat_lt
  have hbyte3 := byte3.toNat_lt
  have hshift0 : (byte0.toUInt32 <<< 24).toNat = byte0.toNat * 2 ^ 24 := toNat_byte_shift byte0 (by decide)
  have hshift1 : (byte1.toUInt32 <<< 16).toNat = byte1.toNat * 2 ^ 16 := toNat_byte_shift byte1 (by decide)
  have hshift2 : (byte2.toUInt32 <<< 8).toNat = byte2.toNat * 2 ^ 8 := toNat_byte_shift byte2 (by decide)
  have hshift3 : byte3.toUInt32.toNat = byte3.toNat := UInt8.toNat_toUInt32 byte3
  have hsum1 := toNat_or_of_lt hshift0 (by rw [hshift1]; omega)
  rw [hshift1] at hsum1
  have hsum2 := toNat_or_of_lt (x := byte0.toNat * 2 ^ 8 + byte1.toNat) (k := 16) (hsum1.trans (by omega))
    (by rw [hshift2]; omega)
  rw [hshift2] at hsum2
  have hsum3 := toNat_or_of_lt (x := byte0.toNat * 2 ^ 16 + byte1.toNat * 2 ^ 8 + byte2.toNat) (k := 8)
    (hsum2.trans (by omega)) (by rw [hshift3]; omega)
  rw [hsum3, hshift3]
  omega

theorem be_word_toNat (recv_data : Fin 48 → UInt8) (i : Fin 45) :
    (be_word recv_data i).toNat = be_value recv_data i :=
  toNat_be_bytes _ _ _ _

/-- The NTP timestamp of the instant `t`, in milliseconds since 1970: the seconds since 1900
without their carry into the next era, and a fraction of a second, which may be rounded
either way. -/
structure Encodes (t sec frac : Nat) : Prop where
  sec_eq : sec = (t / 1000 + 2208988800) % 2 ^ 32
  frac_lt : frac < 2 ^ 32
  frac_low : t % 1000 * 2 ^ 32 < frac * 1000 + 1000
  frac_high : frac * 1000 < t % 1000 * 2 ^ 32 + 1000

/-- A time stamp of the instant `t`, where one of the two is in the buffer, is read as `t` to
within a millisecond. -/
structure DecodesTo (t : Nat) : Prop where
  recv : ∀ recv_data, Encodes t (be_value recv_data 32) (be_value recv_data 36) →
    |srv_recv_tm recv_data - t| ≤ 1
  send : ∀ recv_data, Encodes t (be_value recv_data 40) (be_value recv_data 44) →
    |srv_send_tm recv_data - t| ≤ 1

theorem frac_msec {frac msec : Nat} (hlow : msec * 2 ^ 32 < frac * 1000 + 1000)
    (hhigh : frac * 1000 < msec * 2 ^ 32 + 1000) :
    frac * 1000 / 2 ^ 32 ≤ msec ∧ msec ≤ frac * 1000 / 2 ^ 32 + 1 := by
  omega

/-- The seconds are read as those of the first era, and a millisecond can get lost. -/
theorem srv_tm_of_encodes {t : Nat} {sec frac : UInt32} (h : Encodes t sec.toNat frac.toNat) :
    ∃ lost : Nat, lost ≤ 1 ∧
      srv_tm sec frac = t - lost - ((t / 1000 + 2208988800) / 2 ^ 32 : Nat) * (2 ^ 32 * 1000) := by
  obtain ⟨hle, hlost⟩ := frac_msec h.frac_low h.frac_high
  have hmsec := Nat.div_add_mod t 1000
  have hera := Nat.div_add_mod (t / 1000 + 2208988800) (2 ^ 32)
  rw [← h.sec_eq] at hera
  refine ⟨t % 1000 - frac.toNat * 1000 / 2 ^ 32, by omega, ?_⟩
  change ((sec.toNat : Int) - (2208988800 : Nat)) * 1000 + (frac.toNat * 1000 / 2 ^ 32 : Nat) = _
  generalize frac.toNat * 1000 / 2 ^ 32 = msec at *
  generalize (t / 1000 + 2208988800) / 2 ^ 32 = era at *
  omega

/-- A buffer with a time stamp at the place of the receive time. -/
def stamped (sec frac : Nat) : Fin 48 → UInt8 :=
  fun i => if i < 36 then (sec / 256 ^ (35 - i.val)).toUInt8 else (frac / 256 ^ (39 - i.val)).toUInt8

theorem be_value_stamped {sec frac : Nat} (hsec : sec < 2 ^ 32) (hfrac : frac < 2 ^ 32) :
    be_value (stamped sec frac) 32 = sec ∧ be_value (stamped sec frac) 36 = frac := by
  constructor
  · change sec / 256 ^ 3 % 256 * 2 ^ 24 + sec / 256 ^ 2 % 256 * 2 ^ 16 + sec / 256 ^ 1 % 256 * 2 ^ 8 +
      sec / 256 ^ 0 % 256 = sec
    omega
  · change frac / 256 ^ 3 % 256 * 2 ^ 24 + frac / 256 ^ 2 % 256 * 2 ^ 16 + frac / 256 ^ 1 % 256 * 2 ^ 8 +
      frac / 256 ^ 0 % 256 = frac
    omega

/-- Every instant has a time stamp. -/
theorem exists_encodes (t : Nat) : ∃ recv_data, Encodes t (be_value recv_data 32) (be_value recv_data 36) := by
  have hfrac : t % 1000 * 2 ^ 32 / 1000 < 2 ^ 32 := by
    have hmsec := Nat.mod_lt t (by decide : 1000 > 0)
    omega
  refine ⟨stamped ((t / 1000 + 2208988800) % 2 ^ 32) (t % 1000 * 2 ^ 32 / 1000), ?_⟩
  obtain ⟨hsec, hfraction⟩ := be_value_stamped (Nat.mod_lt (t / 1000 + 2208988800) (by decide)) hfrac
  rw [hsec, hfraction]
  exact ⟨rfl, hfrac, by omega, by omega⟩

/-- An instant is read back if and only if it is before the seconds since 1900 go over
32 bits. -/
theorem decodesTo_iff (t : Nat) : DecodesTo t ↔ t < 2085978496000 := by
  constructor
  · intro hdecodes
    obtain ⟨recv_data, hencodes⟩ := exists_encodes t
    have hclose := hdecodes.recv recv_data hencodes
    rw [← be_word_toNat, ← be_word_toNat] at hencodes
    obtain ⟨lost, hlost, htime⟩ := srv_tm_of_encodes hencodes
    rw [srv_recv_tm, srv_recv_tm_words, htime, abs_le] at hclose
    by_contra hlate
    have hera : 1 ≤ (t / 1000 + 2208988800) / 2 ^ 32 := by omega
    omega
  · intro hearly
    have hera : (t / 1000 + 2208988800) / 2 ^ 32 = 0 := by omega
    have hread : ∀ {sec frac : UInt32}, Encodes t sec.toNat frac.toNat → |srv_tm sec frac - t| ≤ 1 := by
      intro sec frac hencodes
      obtain ⟨lost, hlost, htime⟩ := srv_tm_of_encodes hencodes
      rw [htime, hera, abs_le]
      omega
    constructor
    · intro recv_data hencodes
      rw [← be_word_toNat, ← be_word_toNat] at hencodes
      exact hread hencodes
    · intro recv_data hencodes
      rw [← be_word_toNat, ← be_word_toNat] at hencodes
      exact hread hencodes

/-- A second after the carry, in February 2036, the time is read as one in 1900. -/
theorem decodes_2036_as_1900 :
    Encodes 2085978497000 (be_value (stamped 1 0) 32) (be_value (stamped 1 0) 36) ∧
      srv_recv_tm (stamped 1 0) = -2208988799000 ∧ ¬ DecodesTo 2085978497000 := by
  have hencodes : Encodes 2085978497000 (be_value (stamped 1 0) 32) (be_value (stamped 1 0) 36) :=
    ⟨by decide, by decide, by decide, by decide⟩
  have htime : srv_recv_tm (stamped 1 0) = -2208988799000 := by decide
  refine ⟨hencodes, htime, fun hdecodes => ?_⟩
  have hclose := hdecodes.recv _ hencodes
  rw [htime] at hclose
  exact absurd hclose (by decide)

end kfw.net
