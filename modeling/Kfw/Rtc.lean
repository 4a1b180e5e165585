import Kfw.Common.Base

namespace kfw

/-- The clock: milliseconds since 1970, and whether it was set. -/
structure Rtc where
  s_time_counter : Int := 0
  m_is_synced : Bool := false
  deriving DecidableEq

/-- The read of the counter, with the CPU locked. -/
def get_time_counter (rtc : Rtc) : Int := rtc.s_time_counter

/-- The write of the counter, with the CPU locked. -/
def set_time_counter (rtc : Rtc) (v : Int) : Rtc := { rtc with s_time_counter := v }

def Rtc.sync (rtc : Rtc) (time : Int) : Rtc := { set_time_counter rtc time with m_is_synced := true }

def Rtc.get_time (rtc : Rtc) : Int := get_time_counter rtc

/-- The cyclic handler, which runs every 10 ms. -/
def kfw_cyc_handler (rtc : Rtc) : Rtc := { rtc with s_time_counter := rtc.s_time_counter + 10 }

end kfw
