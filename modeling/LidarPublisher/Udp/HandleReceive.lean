import LidarPublisher.Udp.ParseRequest

/-!
# The UDP receive handler

`sockethandler` keeps one 21-byte `read_buf` for all datagrams.  The network
stack writes a datagram over its first bytes and the completion handler passes
the whole array to `parseRequest`, whatever the number of bytes received.
-/

namespace LidarPublisher.Udp.HandleReceive

open LidarPublisher.Lib.Bytes
open LidarPublisher.Udp.ParseRequest

/-- The payload of one datagram as `async_receive_from` delivers it: at most
the 21 bytes of the buffer. -/
structure Datagram where
  bytes : List UInt8
  fits : bytes.length ≤ readBufSize
  deriving DecidableEq, Repr

/-- A datagram that fills the buffer. -/
def Datagram.full (b : Buf) : Datagram :=
  { bytes := b.toList, fits := by simp }

/-- The error codes `handle_receive` tells apart. -/
inductive ErrorCode
  | success
  | messageSize
  | other
  deriving DecidableEq, Repr

/-- The members of `sockethandler`; `outstanding` counts the
`async_receive_from` operations that have not completed. -/
structure SocketHandler where
  readBuf : Buf
  outstanding : Nat
  deriving DecidableEq, Repr

/-- The socket handler together with the server it reports to. -/
structure Node where
  socket : SocketHandler
  server : Server
  deriving DecidableEq, Repr

/-- `sockethandler::start_receive`. -/
def startReceive (n : Node) : Node :=
  { n with socket :=
      { n.socket with outstanding := n.socket.outstanding + 1 } }

/-- The state after construction and `initialize`: the array `read_buf` of the
socket handler is not initialised, so its contents are a parameter. -/
def Node.init (garbage : Buf) : Node :=
  startReceive
    { socket := { readBuf := garbage, outstanding := 0 }
      server := Server.init }

variable {ω : Type*}

/-- The branches of `handle_receive` on the result of `parseRequest`. -/
def respond (res : Int) (n : Node) : Node :=
  if res = -1 then startReceive n
  else if res = 0 then
    startReceive { n with server := { n.server with polling := true } }
  else if res = 1 then
    startReceive { n with server := { n.server with polling := false } }
  else startReceive n

/-- `sockethandler::handle_receive`, with the result of `parseRequest` where
it was called.  The byte count is used for the log line only. -/
def handleReceive (verifyToken : List UInt8 → ω → Int × ω)
    (error : ErrorCode) (_bytesTransferred : Nat) (n : Node) (w : ω) :
    Option Int × Node × ω :=
  if error = .success ∨ error = .messageSize then
    let (res, server, w) :=
      parseRequest verifyToken n.socket.readBuf readBufSize (Nat.le_refl _)
        n.server w
    (some res, respond res { n with server := server }, w)
  else (none, n, w)

/-- A completed receive operation. -/
structure Completion where
  datagram : Datagram
  error : ErrorCode
  deriving DecidableEq, Repr

/-- The datagram is written over the first bytes of `read_buf` and its receive
operation is no longer outstanding. -/
def Node.receive (n : Node) (d : Datagram) : Node :=
  { n with socket :=
      { readBuf := overlay d.bytes d.fits n.socket.readBuf
        outstanding := n.socket.outstanding - 1 } }

/-- One completion: the write into the buffer, then the handler. -/
def complete (verifyToken : List UInt8 → ω → Int × ω) (c : Completion)
    (n : Node) (w : ω) : Option Int × Node × ω :=
  handleReceive verifyToken c.error c.datagram.bytes.length
    (n.receive c.datagram) w

/-! ## What a completion without error does -/

/-- The polling flag after a request that `parseRequest` answered with `res`. -/
def pollingAfter (res : Int) (polling : Bool) : Bool :=
  if res = 0 then true else if res = 1 then false else polling

/-- Every answer re-arms the socket; only the polling flag depends on it. -/
theorem respond_eq (res : Int) (n : Node) :
    respond res n = startReceive
      { n with server :=
          { n.server with polling := pollingAfter res n.server.polling } } := by
  unfold respond pollingAfter
  by_cases h0 : res = 0
  · simp [h0]
  · by_cases h1 : res = 1
    · simp [h1]
    · simp [h0, h1]

/-- The call of `parseRequest` made for a completion without error. -/
def parsed (verifyToken : List UInt8 → ω → Int × ω) (d : Datagram)
    (n : Node) (w : ω) : Int × Server × ω :=
  parseRequest verifyToken (n.receive d).socket.readBuf readBufSize
    (Nat.le_refl _) n.server w

/-- A completion without error hands the whole buffer to `parseRequest`. -/
theorem complete_success (verifyToken : List UInt8 → ω → Int × ω)
    (d : Datagram) (n : Node) (w : ω) :
    complete verifyToken { datagram := d, error := .success } n w =
      (some (parsed verifyToken d n w).1,
        respond (parsed verifyToken d n w).1
          { n.receive d with server := (parsed verifyToken d n w).2.1 },
        (parsed verifyToken d n w).2.2) := by
  unfold complete handleReceive
  rw [if_pos (Or.inl rfl)]
  rfl

end LidarPublisher.Udp.HandleReceive
