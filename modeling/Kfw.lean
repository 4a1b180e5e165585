import Kfw.Lib.Run
import Kfw.Lib.Segment
import Kfw.Common.Base
import Kfw.Rtos.Itron
import Kfw.Rtos.Semaphore
import Kfw.Rtos.FixedMemoryPool
import Kfw.Rtos.FixedMemoryPool.Sequential
import Kfw.Rtos.FixedMemoryPool.Preemption
import Kfw.Rtos.FixedMemoryPool.Tokens
import Kfw.Rtos.ThreadPool
import Kfw.Rtos.ThreadPool.Conservation
import Kfw.Io.Stream
import Kfw.Web.RequestStream
import Kfw.Web.RequestStream.Close
import Kfw.Common.Heap
import Kfw.Web.ChunkBuffer
import Kfw.Web.ChunkBuffer.Contents
import Kfw.Web.ChunkBuffer.Replay
import Kfw.Common.Integer
import Kfw.Common.DseString
import Kfw.Text.StringBuffer
import Kfw.Io.BufferedStream
import Kfw.Io.BufferedStream.Unread
import Kfw.Web.ReadLine
import Kfw.Web.Parse
import Kfw.Web.Parse.Splitting
import Kfw.Io.StreamWriter
import Kfw.Net.Socket
import Kfw.Web.Context
import Kfw.Web.Listener
import Kfw.Web.Framing
import Kfw.Io.BufferedStream.Alike
import Kfw.Web.Lockstep
import Kfw.Web.ChunkBuffer.Dispose
import Kfw.Web.Response
import Kfw.Web.Response.Lockstep
import Kfw.Web.Session
import Kfw.Web.RoundTrip
import Kfw.Web.Isolation
import Kfw.Io.BufferedStream.Acknowledged
import Kfw.Net.Link
import Kfw.Web.ChunkBuffer.Chunks
import Kfw.Web.Failure
import Kfw.Net.Receive
import Kfw.Net.Receive.Lossless
import Kfw.Net.Receive.Datagrams
import Kfw.Common.SharedString
import Kfw.Common.SharedString.Counting
import Kfw.Lib.Ownership
import Kfw.Net.Ownership
import Kfw.Common.Atomic
import Kfw.Net.Ntp.Accuracy
import Kfw.Net.Ntp.Timestamp
import Kfw.Net.Ntp.Update
import Kfw.Net.Ntp
import Kfw.Net.EthernetInput
import Kfw.Net.Receive.Stream
import Kfw.Net.SysArch
import Kfw.Rtos.Accounting
import Kfw.Lib.Registry
import Kfw.App.Httpd
import Kfw.Rtos.Join
import Kfw.Io.BufferedStream.Bounds
import Kfw.Io.BufferedStream.EndOfStream
import Kfw.Net.Tls
import Kfw.Net.Tls.Write
import Kfw.Common.Integer.Format
import Kfw.Common.Integer.Parse
import Kfw.Io.StreamWriter.Print
import Kfw.Io.BufferedStream.ShortWrites
import Kfw.Lib.Calendar
import Kfw.Lib.MachineInt
import Kfw.Rtc.DateTime
import Kfw.Text.StringBuffer.Capacity
import Kfw.Web.ReadLine.FirstCrlf
import Kfw.Web.ReadLine.LongLine
import Kfw.Web.ReadLine.Broken
import Kfw.Common.Integer.RoundTrip
import Kfw.Rtos.FixedMemoryPool.AnySize
import Kfw.Web.ChunkBuffer.FailedWrite
import Kfw.Web.Response.Lifecycle
import Kfw.Web.Listener.Reuse
import Kfw.Common.StringRef.Order
import Kfw.Common.StringRef.Search
import Kfw.Rtos.StackAlignment
import Kfw.Lib.Pieces
import Kfw.Lib.Ring
import Kfw.Net.Ethernet.Dma
import Kfw.Net.Ethernet.Output
import Kfw.Net.Ethernet.Output.InOrder
import Kfw.Net.Ethernet.Input
import Kfw.Net.Ethernet.Input.InOrder
import Kfw.Net.Ethernet.Input.Refines
import Kfw.Web.ChunkBuffer.Frame
import Kfw.Web.Response.Destroy
import Kfw.App.Httpd.Run
import Kfw.App.Httpd.Serves
import Kfw.Net.Tls.Read
import Kfw.Net.Tls.Read.Refines
import Kfw.Net.Tls.Read.RoundTrip
import Kfw.Net.Memp
import Kfw.Net.Memp.Preemption
import Kfw.Net.Tcpip
import Kfw.Net.Tcpip.Accounted
import Kfw.Net.Ethernet.Path
