import Kfw.App.Httpd
import Kfw.Common.StringRef.Order
import Kfw.Rtc.DateTime
import Kfw.Web.Response.Destroy

open exec Result kfw.io kfw.net kfw.web

namespace kfw

section Writer

variable {σ : Type} (allocator : Allocator) (fuel : Nat) (ctx : HttpListenerContext σ) (heap : Heap)

/-- `operator <<` for a string, of a writer over the stream of the response. The error of the
writer is not looked at. -/
def web.HttpListenerContext.put (value : List UInt8) : Exec (HttpListenerContext σ × Heap) := do
  let (_, m_stream, heap) ← ctx.m_response.m_stream.write allocator heap value fuel
  ok ({ ctx with m_response.m_stream := m_stream }, heap)

/-- `operator <<` for an `int32_t`. -/
def web.HttpListenerContext.put_int32 (value : Int32) : Exec (HttpListenerContext σ × Heap) := do
  let (r, s) ← Int32.to_string value Int32.kMaxStringLength
  if is_failed r then ok (ctx, heap) else ctx.put allocator fuel heap s

/-- The page with the time, as `Httpd::run` prints it. -/
def web.HttpListenerContext.put_time (now_time : DateTime) : Exec (HttpListenerContext σ × Heap) := do
  let (ctx, heap) ← ctx.put_int32 allocator fuel heap now_time.get_year
  let (ctx, heap) ← ctx.put allocator fuel heap (ascii "/")
  let (ctx, heap) ← ctx.put_int32 allocator fuel heap now_time.get_month
  let (ctx, heap) ← ctx.put allocator fuel heap (ascii "/")
  let (ctx, heap) ← ctx.put_int32 allocator fuel heap now_time.get_day
  let (ctx, heap) ← ctx.put allocator fuel heap (ascii " ")
  let (ctx, heap) ← ctx.put_int32 allocator fuel heap now_time.get_hour
  let (ctx, heap) ← ctx.put allocator fuel heap (ascii ":")
  let (ctx, heap) ← ctx.put_int32 allocator fuel heap now_time.get_min
  let (ctx, heap) ← ctx.put allocator fuel heap (ascii ":")
  ctx.put_int32 allocator fuel heap now_time.get_sec

end Writer

namespace app

/-- What one pass of the loop in `Httpd::run` meets: what the memory of its context and of
the buffers of `read_line` holds, the connection that `accept` gives, and the clock. -/
structure Visit (σ : Type) where
  m_buffer : Vector UInt8 256
  buf : UInt8
  accepted : Int × σ
  rtc : Rtc

/-- Where `Httpd::run` stands: the heap, its local variable, and the connections that the
destructors of its contexts have closed, as they were then. -/
structure HttpdRun (σ : Type) where
  heap : Heap
  counter : Int32 := 0
  closed : List σ := []

namespace HttpdRun

variable {σ : Type}

/-- The end of the block of the loop, where the context is destroyed. -/
def end_pass (run : HttpdRun σ) (ctx : HttpListenerContext σ) (heap : Heap) (fuel : Nat) : Exec (HttpdRun σ) := do
  let (closed, _, heap) ← ctx.destroy heap fuel
  ok { run with heap, closed := run.closed ++ closed }

/-- One pass of the loop in `Httpd::run`. -/
def pass (allocator : Allocator) (conn : Stream σ) (memcmp : Memcmp) (self : Httpd) (fuel : Nat) (run : HttpdRun σ)
    (visit : Visit σ) : Exec (HttpdRun σ) := do
  let (r, ctx, heap) ← self.m_http_l.get_context allocator conn (.fresh visit.m_buffer) run.heap visit.accepted
    visit.buf fuel
  -- here it sleeps for a second
  if is_failed r then run.end_pass ctx heap fuel
  else do
    let order ← (ConstStringRef.of_c_str ctx.m_request.m_uri.m_raw_url).compare memcmp (.of_c_str (ascii "/"))
    if order = 0 then do
      let ctx := { ctx with m_response.m_status_code := 200 }
      let (ctx, heap) ← ctx.put_time allocator fuel heap (DateTime.get_now visit.rtc)
      let run := { run with counter := run.counter + 1 }
      let (ctx, heap) ← ctx.close_response conn heap fuel
      run.end_pass ctx heap fuel
    else do
      let ctx := { ctx with m_response.m_status_code := 404 }
      let (ctx, heap) ← ctx.close_response conn heap fuel
      run.end_pass ctx heap fuel

end HttpdRun

end app

end kfw
