import Kfw.Common.Integer
import Kfw.Net.Server
import Kfw.Web.Context
import Kfw.Web.Parse
import Kfw.Web.ReadLine

open exec Result kfw.io kfw.net kfw.text

namespace kfw.web

structure HttpListener where
  m_server : TcpServer := {}
  m_is_started : Bool := false

namespace HttpListener

def create (self : HttpListener) (port : Int32) (answers : ServerAnswers) : ret_t × HttpListener :=
  let (r, m_server) := self.m_server.create port answers
  (r, { self with m_server })

def dispose (self : HttpListener) : HttpListener := { self with m_server := self.m_server.dispose }

def start (self : HttpListener) (answers : ServerAnswers) : ret_t × HttpListener :=
  if self.m_is_started then (kEInvalidOperation, self)
  else
    let r := self.m_server.start answers
    if is_failed r then (r, self) else (kOk, { self with m_is_started := true })

def stop (self : HttpListener) : HttpListener :=
  if ¬ self.m_is_started then self else { self with m_is_started := false }

end HttpListener

variable {σ : Type}

/-- Where the loop over the headers stands. -/
structure HeaderReading (σ : Type) where
  s : BufferedStream
  base_state : σ
  line : StringBuffer
  content_length : UInt32 := 0
  found_content_length : Bool := false

/-- One pass through the loop over the headers. -/
def read_header_pass (base : Stream σ) (buf : UInt8) (fuel : Nat) (state : HeaderReading σ) :
    Exec (Flow (HeaderReading σ) (ret_t × HeaderReading σ)) := do
  let (r, s, base_state, line) ← read_line base state.s state.base_state state.line buf fuel
  let state := { state with s, base_state, line }
  if is_failed r then ok (.done (r, state))
  else if line.get_length = 0 then ok (.done (kOk, state))
  else do
    let (rr, key, val) ← parse_http_header line
    if rr = kOk then do
      let order ← key.compare_ignore_case (.of_c_str (ascii "Content-Length"))
      if order = 0 then do
        -- a content_length of the block, which hides the one of the function
        let (r, _content_length) ← UInt32.parse val
        ok (.cont { state with found_content_length := r = kOk ∨ state.found_content_length })
      else ok (.cont state)
    else ok (.cont state)

/-- The buffer that `get_context` reads lines into. -/
theorem line_created {allocator : Allocator} (hgrants : allocator.Grants) (heap : Heap) :
    ∃ line, StringBuffer.create allocator heap 1024 = (line, heap.asked) ∧ line.Holds 1024 [] :=
  StringBuffer.create_holds hgrants heap (by decide) (by decide : (1024 : UInt32).toNat < 2 ^ 31)

namespace HttpListener

/-- What `get_context` does once a client is accepted: `line` is its buffer for
lines, and `buf` what the buffers of `read_line` hold before they are used. -/
def read_request (allocator : Allocator) (conn : Stream σ) (ctx : HttpListenerContext σ) (heap : Heap)
    (line : StringBuffer) (buf : UInt8) (fuel : Nat) : Exec (ret_t × HttpListenerContext σ × Heap) := do
  let base := SocketStream conn
  let (r, bs, socket, line) ← read_line base ctx.attached ctx.m_client.m_socket line buf fuel
  let ctx := ctx.with_stream bs socket
  if is_failed r then ok (r, ctx, heap)
  else do
    let (r, parsed) ← parse_request_line line.to_ref
    if is_failed r then ok (r, ctx, heap)
    else do
      let (m_method, heap) ← string_of_ref allocator heap parsed.method
      let (_, m_uri, heap) ← Uri.init allocator heap parsed.url
      let ctx := { ctx with m_request.m_method := m_method, m_request.m_uri := m_uri }
      let (r, headers) ← loop (read_header_pass base buf fuel) fuel { s := bs, base_state := socket, line }
      let ctx := ctx.with_stream headers.s headers.base_state
      if is_failed r then ok (r, ctx, heap)
      else do
        let (m_content_type, heap) ← string_of_c_str allocator heap (ascii "text/plain")
        let (_, m_stream, heap) ← ctx.m_response.m_stream.create allocator heap
        ok (kOk, { ctx with
          m_request.m_content_length := headers.content_length
          m_request.m_stream := .attach headers.content_length
          m_response := { m_is_opened := true, m_status_code := 200, m_content_type, m_stream }
          m_is_created := true }, heap)

def get_context (allocator : Allocator) (conn : Stream σ) (self : HttpListener) (ctx : HttpListenerContext σ)
    (heap : Heap) (accepted : Int × σ) (buf : UInt8) (fuel : Nat) :
    Exec (ret_t × HttpListenerContext σ × Heap) :=
  if ¬ self.m_is_started then ok (kEInvalidOperation, ctx, heap)
  else if ctx.m_is_created then ok (kEArgument, ctx, heap)
  else
    let (line, heap) := StringBuffer.create allocator heap 1024
    let (r, m_client, heap) := self.m_server.accept_tcp_client allocator heap ctx.m_client accepted
    let ctx := { ctx with m_client }
    if is_failed r then ok (r, ctx, heap)
    else read_request allocator conn ctx heap line buf fuel

/-- `get_context` does nothing but return `kEInvalidOperation`. -/
def Refuses (allocator : Allocator) (conn : Stream σ) (heap : Heap) (accepted : Int × σ) (buf : UInt8) (fuel : Nat)
    (self : HttpListener) : Prop :=
  ∀ ctx, self.get_context allocator conn ctx heap accepted buf fuel = ok (kEInvalidOperation, ctx, heap)

theorem refuses_iff {allocator : Allocator} {conn : Stream σ} {heap : Heap} {accepted : Int × σ} {buf : UInt8}
    {fuel : Nat} {self : HttpListener} :
    self.Refuses allocator conn heap accepted buf fuel ↔ self.m_is_started = false := by
  constructor
  · intro hrefuses
    by_contra hstarted
    have hother : kEArgument ≠ kEInvalidOperation := by decide
    have hctx := hrefuses { m_is_created := true, m_buffer := .replicate 256 0 }
    simp [get_context, hstarted, hother] at hctx
  · intro hstarted ctx
    simp [get_context, hstarted]

end HttpListener

section Headers

variable {base : Stream σ} {capacity : Nat} {buf : UInt8} {fuel : Nat} {state : HeaderReading σ}
  {s : BufferedStream} {base_state : σ} {line : StringBuffer} {text : List UInt8}

/-- A header line is looked at and passed over. The number in it, if it is a
content length, goes nowhere. -/
theorem read_header_pass_line {r : ret_t} (hr : is_failed r = false)
    (hread : read_line base state.s state.base_state state.line buf fuel = ok (r, s, base_state, line))
    (hline : line.Holds capacity text) (htext : text ≠ []) :
    ∃ found, read_header_pass base buf fuel state =
      ok (.cont { state with s, base_state, line, found_content_length := found }) := by
  have hlength : line.get_length ≠ 0 := fun hzero => htext (hline.get_length_eq_zero_iff.mp hzero)
  have hname : (ConstStringRef.of_c_str (ascii "Content-Length")).Refers (ascii "Content-Length") :=
    ConstStringRef.refers_of_c_str (by decide)
  by_cases hcolon : 58 ∈ text
  · obtain ⟨key, val, hparse, hkey, hval⟩ := parse_http_header_spec hline hcolon
    obtain ⟨order, horder, _⟩ := hkey.compare_ignore_case hname
    by_cases hzero : order = 0
    · obtain ⟨r, value, hvalue⟩ := UInt32.parse_total hval
      refine ⟨r = kOk ∨ state.found_content_length, ?_⟩
      simp [read_header_pass, hread, hr, hlength, hparse, horder, hzero, hvalue]
    · refine ⟨state.found_content_length, ?_⟩
      simp [read_header_pass, hread, hr, hlength, hparse, horder, hzero]
  · have hno : kEArgument ≠ kOk := by decide
    refine ⟨state.found_content_length, ?_⟩
    simp [read_header_pass, hread, hr, hlength, parse_http_header_none hline hcolon, hno]

/-- The empty line ends the loop. -/
theorem read_header_pass_end {r : ret_t} (hr : is_failed r = false)
    (hread : read_line base state.s state.base_state state.line buf fuel = ok (r, s, base_state, line))
    (hline : line.Holds capacity []) :
    read_header_pass base buf fuel state = ok (.done (kOk, { state with s, base_state, line })) := by
  have hlength : line.get_length = 0 := hline.get_length_eq_zero_iff.mpr rfl
  simp [read_header_pass, hread, hr, hlength]

end Headers

end kfw.web
