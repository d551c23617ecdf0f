import DolphinRe.SessionMachine

/-!
# The remote protocol client

Programs over single accesses, in the order in which the client makes them.
Packet reads hand out the payload with the tag of its frame; nothing here
looks at a tag.
-/

namespace DolphinRe.GdbClient

open PythonText GdbPackets GdbWire GdbTokens StopReplies EffectProgram SessionMachine

/-- Client code: it returns a value or raises. -/
abbrev Code (τ α : Type) := Program (signature τ) PyError α

section Accesses

variable {τ α : Type}

/-- One access as a program. -/
def access (o : Op τ) : Code τ o.Answer := .perform o .done

/-- Raise an exception. -/
def throwing (e : PyError) : Code τ α := .raise e

/-- `with session.gdb_lock: body`. -/
def locked (body : Code τ α) : Code τ α := do
  access .acquire
  body.ensuring (access .release)

/-- `sendall` of a framed packet or of the interrupt byte. -/
def sendall (message : Sent) : Code τ Unit := .perform (.send message) .ofExcept

/-- `_consume_ack`. -/
def consumeAck : Code τ Unit := .perform .consumeAck .ofExcept

/-- `_read_packet_from_wire`. -/
def readPacketFromWire (timeout : Option ℕ) : Code τ (Packet τ) :=
  .perform (.readPacketFromWire timeout) .ofExcept

/-- `connect`. -/
def connect : Code τ Unit := .perform .connect .ofExcept

variable {C W : Type} {M : Machine (signature τ) C W}

theorem wp_access (o : Op τ) (Q : Except PyError o.Answer → W → Prop) (w : W) :
    (access o).wp M Q w ↔ ∀ c, M.admits o c w → Q (.ok (M.step o c w).1) (M.step o c w).2 :=
  Iff.rfl

theorem wp_sendall (message : Sent) (Q : Except PyError Unit → W → Prop) (w : W) :
    (sendall message).wp M Q w ↔ ∀ c, M.admits (.send message) c w →
      Q (M.step (.send message) c w).1 (M.step (.send message) c w).2 := by
  refine forall_congr' fun c => imp_congr_right fun _ => ?_
  rw [Program.wp_ofExcept]

theorem wp_consumeAck (Q : Except PyError Unit → W → Prop) (w : W) :
    (consumeAck : Code τ Unit).wp M Q w ↔ ∀ c, M.admits .consumeAck c w →
      Q (M.step .consumeAck c w).1 (M.step .consumeAck c w).2 := by
  refine forall_congr' fun c => imp_congr_right fun _ => ?_
  rw [Program.wp_ofExcept]

theorem wp_readPacketFromWire (timeout : Option ℕ) (Q : Except PyError (Packet τ) → W → Prop)
    (w : W) : (readPacketFromWire timeout).wp M Q w ↔
      ∀ c, M.admits (.readPacketFromWire timeout) c w →
        Q (M.step (.readPacketFromWire timeout) c w).1
          (M.step (.readPacketFromWire timeout) c w).2 := by
  refine forall_congr' fun c => imp_congr_right fun _ => ?_
  rw [Program.wp_ofExcept]

theorem wp_connect (Q : Except PyError Unit → W → Prop) (w : W) :
    (connect : Code τ Unit).wp M Q w ↔ ∀ c, M.admits .connect c w →
      Q (M.step .connect c w).1 (M.step .connect c w).2 := by
  refine forall_congr' fun c => imp_congr_right fun _ => ?_
  rw [Program.wp_ofExcept]

/-- The lock changes nothing but who may run. -/
theorem wp_locked {N L : Type} {link : Link τ N L}
    {M : Machine (signature τ) (Choice τ N) (World τ L)} (hM : M.step = World.step link)
    {body : Code τ α} {Q : Except PyError α → World τ L → Prop} {w : World τ L}
    (h : body.wp M Q w) : (locked body).wp M Q w := by
  have hacquire : ∀ c, (M.step .acquire c w).2 = w := fun c => by rw [hM]; rfl
  have hrelease : ∀ c v, (M.step .release c v).2 = v := fun c v => by rw [hM]; rfl
  intro c _
  rw [hacquire]
  refine (Program.wp_ensuring _ _ _ _).mpr (Program.wp_mono ?_ h)
  intro r v hv c' _
  rw [hrelease]
  exact hv

end Accesses

/-- Exceptions of a lost connection. -/
def isConnectionLost : PyError → Bool
  | .connectionLost _ => true
  | _ => false

/-- Whether a failure loses the connection does not depend on what was awaited. -/
theorem losesConnection_error {α : Type} (e : PyError) :
    World.losesConnection (.error e : Except PyError α) = isConnectionLost e := by
  cases e <;> rfl

/-- Exceptions of an unreadable protocol stream. -/
def isProtocolError : PyError → Bool
  | .gdbProtocolError _ => true
  | _ => false

/-- `socket.timeout`. -/
def isTimeout : PyError → Bool
  | .timeout _ => true
  | _ => false

theorem eq_of_isTimeout {e : PyError} (h : isTimeout e = true) : ∃ message, e = .timeout message := by
  cases e with
  | timeout message => exact ⟨message, rfl⟩
  | _ => cases h

/-- `GDBStubError`. -/
def isStubError : PyError → Bool
  | .gdbStubError _ => true
  | _ => false

/-- `text.startswith(prefix)`. -/
def startsWith (start text : Str) : Bool := start.isPrefixOf text

section Client

variable {τ : Type}

/-- `_send_packet`. -/
def sendPacket (command : Command) : Code τ Unit := do
  sendall (.packet command)
  consumeAck

/-- `_read_packet`: stashed replies come first. -/
def readPacket (timeout : Option ℕ) : Code τ (Packet τ) := do
  match ← access .popPending with
  | some packet => pure packet
  | none => readPacketFromWire timeout

/-- `cmd`: stashed replies are skipped on purpose. -/
def cmd (command : Command) : Code τ (Packet τ) := do
  sendPacket command
  readPacketFromWire none

/-- Whether `probe_responsive` treats an exception as no response. -/
def isProbeFailure (e : PyError) : Bool :=
  e.isOSError || isProtocolError e || isConnectionLost e

/-- `probe_responsive`: a heartbeat under a short timeout, which is restored
afterwards. -/
def probeResponsive (timeout : ℕ) : Code τ Bool := do
  if ← access .isSockOpen then
    let old ← access .getTimeout
    access (.setTimeout timeout)
    Program.ensuring
      (Program.handle
        (do
          sendPacket .currentThread
          let reply ← readPacketFromWire (some timeout)
          pure (!startsWith "E".toList reply.text))
        fun e => if isProbeFailure e then pure false else throwing e)
      (access (.setTimeout old))
  else pure false

/-- `detach`: the packet may go unanswered, the socket is closed either way. -/
def detach : Code τ Unit := do
  Program.handle (do let _ ← cmd .detach)
    fun e => if isProtocolError e || isConnectionLost e || e.isOSError then pure () else throwing e
  access .close

/-- `is_alive`. -/
def isAlive : Code τ Bool := do
  if ← access .isSockOpen then
    Program.handle
      (do
        let _ ← cmd .currentThread
        pure true)
      fun e => if isProbeFailure e then pure false else throwing e
  else pure false

/-- `query_supported`. -/
def querySupported : Code τ (Packet τ) := cmd .querySupported

/-- `why_halted`. -/
def whyHalted : Code τ (Packet τ) := cmd .whyHalted

/-- `_raise_if_error`. -/
def raiseIfError (reply : Str) (context : Str) : Except PyError Unit :=
  match reply with
  | [] => .error (.gdbStubError (String.ofList context ++ ": empty reply (unsupported)"))
  | c :: rest =>
    if c = 'E' ∧ 2 ≤ rest.length ∧ (rest.take 2).all fun d => (hexValue d).isSome then
      .error (.gdbStubError (String.ofList context ++ ": stub error " ++ String.ofList reply))
    else .ok ()

/-- `bytes.fromhex`, raising on malformed text. -/
def fromHexOrRaise (text : Str) : Except PyError (List UInt8) :=
  match fromHex text with
  | some blob => .ok blob
  | none => .error (.valueError "non-hexadecimal number found in fromhex() arg")

/-- `read_registers`. -/
def readRegisters : Code τ (List UInt8) := do
  let reply ← cmd .readRegisters
  .ofExcept (raiseIfError reply.text "g".toList)
  .ofExcept (fromHexOrRaise reply.text)

/-- `read_register_bytes`: unsupported and malformed replies give `None`. -/
def readRegisterBytes (regnum : ℕ) : Code τ (Option (List UInt8)) := do
  let reply ← cmd (.readRegister regnum)
  pure (if reply.text = [] ∨ startsWith "E".toList reply.text then none else fromHex reply.text)

/-- `read_register`. -/
def readRegister (regnum : ℕ) : Code τ (Option ℕ) := do
  let reply ← cmd (.readRegister regnum)
  pure (if reply.text = [] ∨ startsWith "E".toList reply.text then none
    else (fromHex reply.text).map fromBytesBig)

/-- `read_mem`. -/
def readMem (addr size : ℤ) : Code τ (List UInt8) := do
  let reply ← cmd (.readMem addr size)
  .ofExcept (raiseIfError reply.text (Command.readMem addr size).payload)
  .ofExcept (fromHexOrRaise reply.text)

/-- `write_mem`. -/
def writeMem (addr : ℤ) (data : List UInt8) : Code τ Unit := do
  let reply ← cmd (.writeMem addr data)
  .ofExcept (raiseIfError reply.text
    ('M' :: formatHex addr ++ ',' :: hexDigits data.length))
  if reply.text ≠ "OK".toList then
    throwing (.gdbProtocolError ("unexpected write reply: '" ++ String.ofList reply.text ++ "'"))

/-- The first two characters of a breakpoint packet. -/
def breakOp (insert : Bool) (kind : BpKind) : Str := [if insert then 'Z' else 'z', kind.code]

/-- `_set_break`. -/
def setBreak (insert : Bool) (kind : BpKind) (addr size : ℤ) : Code τ (Packet τ) := do
  let reply ← cmd (.setBreak insert kind addr size)
  if reply.text = [] then
    throwing (.gdbStubError (String.ofList (breakOp insert kind) ++ " unsupported by stub"))
  else if startsWith "E".toList reply.text then
    throwing (.gdbStubError
      (String.ofList (breakOp insert kind) ++ " failed: " ++ String.ofList reply.text))
  else pure reply

/-- `add_sw_breakpoint`. -/
def addSwBreakpoint (addr : ℤ) : Code τ (Packet τ) := setBreak true .swBp addr 4

/-- `remove_sw_breakpoint`. -/
def removeSwBreakpoint (addr : ℤ) : Code τ (Packet τ) := setBreak false .swBp addr 4

/-- `add_hw_breakpoint`. -/
def addHwBreakpoint (addr : ℤ) : Code τ (Packet τ) := setBreak true .hwBp addr 4

/-- `remove_hw_breakpoint`. -/
def removeHwBreakpoint (addr : ℤ) : Code τ (Packet τ) := setBreak false .hwBp addr 4

/-- `add_write_watchpoint`. -/
def addWriteWatchpoint (addr size : ℤ) : Code τ (Packet τ) := setBreak true .writeWp addr size

/-- `remove_write_watchpoint`. -/
def removeWriteWatchpoint (addr size : ℤ) : Code τ (Packet τ) := setBreak false .writeWp addr size

/-- `add_read_watchpoint`. -/
def addReadWatchpoint (addr size : ℤ) : Code τ (Packet τ) := setBreak true .readWp addr size

/-- `remove_read_watchpoint`. -/
def removeReadWatchpoint (addr size : ℤ) : Code τ (Packet τ) := setBreak false .readWp addr size

/-- `add_access_watchpoint`. -/
def addAccessWatchpoint (addr size : ℤ) : Code τ (Packet τ) := setBreak true .accessWp addr size

/-- `remove_access_watchpoint`. -/
def removeAccessWatchpoint (addr size : ℤ) : Code τ (Packet τ) := setBreak false .accessWp addr size

/-- `continue_async`: acknowledged, and answered only by a later stop reply. -/
def continueAsync : Code τ Unit := sendPacket .resume

/-- `wait_for_stop`. -/
def waitForStop (timeout : Option ℕ) : Code τ (Packet τ) := readPacket timeout

/-- `continue_and_wait`. -/
def continueAndWait (timeout : Option ℕ) : Code τ (Packet τ) := do
  continueAsync
  waitForStop timeout

/-- `GDBStub.step`. -/
def stepInstruction (timeout : Option ℕ) : Code τ (Packet τ) := do
  sendPacket .step
  readPacket timeout

/-- `interrupt`. -/
def interrupt : Code τ Unit := sendall .interrupt

/-- The reading loop of `drain_stop_replies`, as often as the budget allows. -/
def drainWire : ℕ → List (Packet τ) → Code τ (List (Packet τ))
  | 0, out => pure out
  | n + 1, out => do
    match ← (readPacketFromWire (some 20)).attempt with
    | .ok packet => drainWire n (out ++ [packet])
    | .error e => if e.isOSError || isConnectionLost e then pure out else throwing e

/-- `drain_stop_replies`: stashed replies first, then short reads until one fails. -/
def drainStopReplies (maxWait : ℕ) : Code τ (List (Packet τ)) := do
  let out ← access .takePending
  let n ← access (.turns maxWait)
  drainWire n out

/-- `drain_pending_replies`. -/
def drainPendingReplies : Code τ (List (Packet τ)) := access .takePending

end Client

end DolphinRe.GdbClient
