import DolphinRe.GdbPackets

/-!
# Reading acknowledgements and packets byte by byte

The receive buffer and the bytes still on the wire are kept apart. One `recv`
call yields whatever the network decides: some prefix of the wire, a timeout,
an orderly close or a reset. The readers below follow the client's loops over
such calls; a timeout may strike before, inside or after any token.
-/

namespace DolphinRe.GdbWire

open PythonText GdbPackets

/-- Exceptions raised by the client and its tools. -/
inductive PyError where
  /-- `socket.timeout`, which is `TimeoutError`. -/
  | timeout (message : String)
  | osError (message : String)
  | connectionLost (message : String)
  | gdbProtocolError (message : String)
  | gdbStubError (message : String)
  | stubWedged (message : String)
  | wrongState (message : String)
  | runtimeError (message : String)
  | valueError (message : String)
  | addressOutOfRange (message : String)
  | breakpointNotFound (message : String)
  | captureError (message : String)
  | attributeError (message : String)
  | indexError (message : String)
  /-- `struct.error`. -/
  | structError (message : String)
  deriving DecidableEq, Repr

/-- The text of an exception. -/
def PyError.message : PyError → String
  | .timeout m | .osError m | .connectionLost m | .gdbProtocolError m | .gdbStubError m
  | .stubWedged m | .wrongState m | .runtimeError m | .valueError m | .addressOutOfRange m
  | .breakpointNotFound m | .captureError m | .attributeError m | .indexError m | .structError m => m

/-- Members of `OSError`; a socket timeout is one of them. -/
def PyError.isOSError : PyError → Bool
  | .timeout _ => true
  | .osError _ => true
  | _ => false

/-- What one `recv` call meets on the socket. -/
inductive Arrival where
  /-- At most `extra + 1` bytes are ready. -/
  | bytes (extra : ℕ)
  | timeout
  | closed
  | reset
  deriving DecidableEq, Repr

/-- What the network does during one reader call: the outcome of each `recv`
and whether each acknowledgement of a received packet fails to be sent. -/
structure Net where
  /-- Successive `recv` outcomes; afterwards nothing arrives any more. -/
  arrivals : List Arrival
  /-- Successive failures of `sendall(b"+")`; afterwards none fails. -/
  ackFails : List Bool
  deriving DecidableEq, Repr

instance : Inhabited Net := ⟨⟨[], []⟩⟩

/-- Received bytes not yet consumed, and bytes not yet received. -/
structure Buffers (τ : Type) where
  /-- `_recv_buf`. -/
  recvBuf : List (Cell τ)
  /-- Bytes the stub has sent and `recv` has not returned. -/
  wire : List (Cell τ)
  deriving DecidableEq, Repr

section Readers

variable {τ : Type}

/-- Buffers after `close`. -/
def Buffers.empty : Buffers τ := ⟨[], []⟩

/-- Everything the stub has sent and the client has not consumed. -/
def Buffers.unread (b : Buffers τ) : List (Cell τ) := b.recvBuf ++ b.wire

/-- The error of a read that runs out of time. -/
def timedOut : PyError := .timeout "timed out"

/-- The error of a connection reset by the peer. -/
def connectionReset : PyError := .osError "connection reset by peer"

/-- One `sock.recv(limit)`; an empty answer is the peer's orderly close. -/
def recv (limit : ℕ) (arrival : Arrival) (wire : List (Cell τ)) :
    Except PyError (List (Cell τ)) × List (Cell τ) :=
  match arrival with
  | .bytes extra =>
    if wire = [] then (.error timedOut, [])
    else (.ok (wire.take (min limit (extra + 1))), wire.drop (min limit (extra + 1)))
  | .timeout => (.error timedOut, wire)
  | .closed => (.ok [], wire)
  | .reset => (.error connectionReset, wire)

/-- The loop of `_read_exact`: bytes already taken are lost when it raises. -/
def readMissing (missing : ℕ) (out : List (Cell τ)) (wire : List (Cell τ)) :
    List Arrival → Except PyError (List (Cell τ)) × Buffers τ × List Arrival
  | [] =>
    if missing ≤ out.length then (.ok out, ⟨[], wire⟩, []) else (.error timedOut, ⟨[], wire⟩, [])
  | arrival :: rest =>
    if missing ≤ out.length then (.ok out, ⟨[], wire⟩, arrival :: rest)
    else match recv (missing - out.length) arrival wire with
      | (.ok [], _) => (.error (.connectionLost "socket closed mid-read"), .empty, rest)
      | (.ok chunk, wire') => readMissing missing (out ++ chunk) wire' rest
      | (.error e, wire') => (.error e, ⟨[], wire'⟩, rest)

/-- `_read_exact(n)`: drain the receive buffer first, then pull from the socket. -/
def readExact (n : ℕ) (b : Buffers τ) (arrivals : List Arrival) :
    Except PyError (List (Cell τ)) × Buffers τ × List Arrival :=
  if n ≤ (b.recvBuf.take n).length then (.ok (b.recvBuf.take n), ⟨b.recvBuf.drop n, b.wire⟩, arrivals)
  else readMissing n (b.recvBuf.take n) b.wire arrivals

/-- `while not ready(self._recv_buf): self._recv_buf += sock.recv(4096)`. -/
def fillUntil (ready : List (Cell τ) → Bool) (lost : String) (b : Buffers τ) :
    List Arrival → Except PyError Unit × Buffers τ × List Arrival
  | [] => if ready b.recvBuf then (.ok (), b, []) else (.error timedOut, b, [])
  | arrival :: rest =>
    if ready b.recvBuf then (.ok (), b, arrival :: rest)
    else match recv 4096 arrival b.wire with
      | (.ok [], _) => (.error (.connectionLost lost), .empty, rest)
      | (.ok chunk, wire') => fillUntil ready lost ⟨b.recvBuf ++ chunk, wire'⟩ rest
      | (.error e, wire') => (.error e, ⟨b.recvBuf, wire'⟩, rest)

/-- `$` starts a frame. -/
def isDollar (c : Cell τ) : Bool := c.byte = 36

/-- `#` ends a payload. -/
def isHash (c : Cell τ) : Bool := c.byte = 35

/-- `_read_packet_from_wire`: skip to the first `$`, then wait for `#` and for
the two checksum digits, acknowledge and return the payload. Whatever was
received stays in the buffer when a read times out. -/
def readPacketFromWire (b : Buffers τ) (net : Net) :
    Except PyError (Packet τ) × Buffers τ × Net :=
  match fillUntil (·.any isDollar) "socket closed waiting for packet start" b net.arrivals with
  | (.error e, b₁, rest) => (.error e, b₁, ⟨rest, net.ackFails⟩)
  | (.ok (), b₁, rest₁) =>
    match b₁.recvBuf.find? isDollar with
    -- not reached: the first loop ends with a `$` in the buffer
    | none => (.error timedOut, b₁, ⟨rest₁, net.ackFails⟩)
    | some dollar =>
      let start := b₁.recvBuf.findIdx isDollar + 1
      match fillUntil (fun buf => (buf.drop start).any isHash)
          "socket closed waiting for packet end" b₁ rest₁ with
      | (.error e, b₂, rest) => (.error e, b₂, ⟨rest, net.ackFails⟩)
      | (.ok (), b₂, rest₂) =>
        let stop := start + (b₂.recvBuf.drop start).findIdx isHash
        match fillUntil (fun buf => decide (stop + 3 ≤ buf.length))
            "socket closed waiting for checksum" b₂ rest₂ with
        | (.error e, b₃, rest) => (.error e, b₃, ⟨rest, net.ackFails⟩)
        | (.ok (), b₃, rest₃) =>
          let payload := (b₃.recvBuf.take stop).drop start
          if net.ackFails.headD false then
            (.error (.connectionLost "ack send failed"), .empty, ⟨rest₃, net.ackFails.tail⟩)
          else
            (.ok ⟨decodeReplace (payload.map Cell.byte), dollar.tag⟩,
              ⟨b₃.recvBuf.drop (stop + 3), b₃.wire⟩, ⟨rest₃, net.ackFails.tail⟩)

/-- The error for a byte that is neither `+` nor `$`. -/
def unexpectedAck (byte : UInt8) : PyError :=
  if byte = 45 then .gdbProtocolError "stub sent NAK ('-'); retransmit unsupported"
  else .gdbProtocolError ("expected ack, got " ++ String.ofList (reprByte byte))

/-- The loop of `_consume_ack`, which stashes frames until the `+`. It answers
with the tag of the acknowledgement and the stashed packets. -/
def consumeAckLoop : ℕ → Buffers τ → Net → Except PyError τ × List (Packet τ) × Buffers τ
  -- not reached: every turn consumes at least one of the bytes counted by the fuel
  | 0, b, _ => (.error timedOut, [], b)
  | fuel + 1, b, net =>
    match readExact 1 b net.arrivals with
    | (.error e, b₁, _) => (.error e, [], b₁)
    | (.ok [], b₁, _) => (.error timedOut, [], b₁)
    | (.ok (c :: _), b₁, rest) =>
      if c.byte = 43 then (.ok c.tag, [], b₁)
      else if c.byte = 36 then
        -- push the leading `$` back and parse the packet normally
        match readPacketFromWire ⟨c :: b₁.recvBuf, b₁.wire⟩ ⟨rest, net.ackFails⟩ with
        | (.error e, b₂, _) => (.error e, [], b₂)
        | (.ok packet, b₂, net₂) =>
          match consumeAckLoop fuel b₂ net₂ with
          | (outcome, packets, b₃) => (outcome, packet :: packets, b₃)
      else (.error (unexpectedAck c.byte), [], b₁)

/-- `_consume_ack`. -/
def consumeAck (b : Buffers τ) (net : Net) : Except PyError τ × List (Packet τ) × Buffers τ :=
  consumeAckLoop (b.unread.length + 1) b net

/-- Bytes leave the stub in token order. -/
def Buffers.emit (tokens : List (Token τ)) (b : Buffers τ) : Buffers τ :=
  ⟨b.recvBuf, b.wire ++ renderAll tokens⟩

end Readers

end DolphinRe.GdbWire
