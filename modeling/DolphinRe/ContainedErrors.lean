import DolphinRe.Footprints

/-!
# Errors that the quiescing loops contain

The loops that pause a running target read until something fails and go on
from there. What single reads may raise therefore decides that these loops
raise nothing, on whatever machine they run and whatever they keep there.
-/

namespace DolphinRe.ContainedErrors

open GdbPackets GdbWire GdbTokens EffectProgram SessionMachine GdbClient BreakpointTools

/-- No error at all. -/
def never (_ : PyError) : Prop := False

/-- Failures of a packet read: a timeout, another socket error, a lost connection. -/
def readFails (e : PyError) : Prop := (e.isOSError || isConnectionLost e) = true

/-- Failures on the way to a heartbeat reply. -/
def probeFails (e : PyError) : Prop := isProbeFailure e = true

/-- A failure of a packet read fails a probe. -/
theorem probeFails_of_readFails {e : PyError} (h : readFails e) : probeFails e := by
  unfold readFails at h
  rw [Bool.or_eq_true] at h
  rcases h with hos | hlost
  · simp [probeFails, isProbeFailure, hos]
  · simp [probeFails, isProbeFailure, hlost]

/-- What follows a part that raises nothing starts from the invariant that part keeps. -/
theorem wp_bind_quiet {S : Signature} {C W α β : Type} {M : Machine S C W} {I : W → Prop}
    {p : Program S PyError α} {f : α → Program S PyError β} {Q : Except PyError β → W → Prop}
    (hp : Program.RaisesOnly M I never p) {w : W} (hw : I w)
    (hf : ∀ a v, I v → (f a).wp M Q v) : (p.bind f).wp M Q w := by
  rw [Program.wp_bind]
  refine Program.wp_mono (fun r v hv => ?_) (hp w hw)
  cases r with
  | ok a => exact hf a v hv.1
  | error e => exact (hv.2 e rfl).elim

/-- Accesses of the quiescing loops to the stash, the clock and the socket timeout. -/
def isLocal {τ : Type} : Op τ → Bool
  | .isSockOpen => true
  | .getTimeout => true
  | .setTimeout _ => true
  | .popPending => true
  | .takePending => true
  | .turns _ => true
  | _ => false

section Loops

variable {τ C W : Type} {M : Machine (signature τ) C W} {I : W → Prop} {sends : Sent → Prop}
  {E F : PyError → Prop}

/-- What is required of single accesses: they keep an invariant, exchanging a
command raises errors of one kind, and reading a packet errors of another. -/
structure Contained (M : Machine (signature τ) C W) (I : W → Prop) (sends : Sent → Prop)
    (E F : PyError → Prop) : Prop where
  /-- Accesses keep the invariant. -/
  step : ∀ o c w, isLocal o = true → M.admits o c w → I w → I (M.step o c w).2
  /-- Sending raises errors of the first kind. -/
  send : ∀ message, sends message → Program.RaisesOnly M I E (sendall message)
  /-- So does waiting for the acknowledgement. -/
  ack : Program.RaisesOnly M I E consumeAck
  /-- Reading a packet raises errors of the second kind. -/
  read : ∀ timeout, Program.RaisesOnly M I F (readPacketFromWire timeout)
  /-- These are failures on the way to a heartbeat reply. -/
  sendErrors : ∀ e, E e → probeFails e
  /-- These are failures of a packet read. -/
  readErrors : ∀ e, F e → readFails e

namespace Contained

variable (h : Contained M I sends E F)

include h

/-- Local accesses raise nothing. -/
theorem access {G : PyError → Prop} {o : Op τ} (ho : isLocal o = true) :
    Program.RaisesOnly M I G (access o) :=
  Program.raisesOnly_perform (fun c w => h.step o c w ho) fun _ => Program.raisesOnly_done _

/-- A packet raises what sending and waiting do. -/
theorem sendPacket {command : Command} (hs : sends (.packet command)) :
    Program.RaisesOnly M I E (sendPacket command) :=
  Program.raisesOnly_bind (h.send _ hs) fun _ => h.ack

/-- Waiting for a stop raises what reading does. -/
theorem waitForStop (timeout : Option ℕ) : Program.RaisesOnly M I F (waitForStop timeout) := by
  refine Program.raisesOnly_bind (h.access rfl) fun packet => ?_
  cases packet with
  | none => exact h.read timeout
  | some packet => exact Program.raisesOnly_done packet

/-- Draining ends with a failure that it swallows. -/
theorem drainWire {G : PyError → Prop} (n : ℕ) (out : List (Packet τ)) :
    Program.RaisesOnly M I G (drainWire n out) := by
  induction n generalizing out with
  | zero => exact Program.raisesOnly_done out
  | succ n ih =>
    refine Program.raisesOnly_attempt_bind (h.read _) (fun packet => ih _) fun e he => ?_
    have hcaught : (e.isOSError || isConnectionLost e) = true := h.readErrors e he
    dsimp only
    rw [if_pos hcaught]
    exact Program.raisesOnly_done out

/-- Draining the stops raises nothing. -/
theorem drainStopReplies {G : PyError → Prop} (maxWait : ℕ) :
    Program.RaisesOnly M I G (drainStopReplies maxWait) :=
  Program.raisesOnly_bind (h.access rfl) fun out =>
    Program.raisesOnly_bind (h.access rfl) fun n => h.drainWire n out

/-- Neither does consuming them. -/
theorem consumeStops {G : PyError → Prop} (n : ℕ) (sawOne : Bool) :
    Program.RaisesOnly M I G (consumeStops n sawOne) := by
  induction n generalizing sawOne with
  | zero => exact Program.raisesOnly_done ()
  | succ n ih =>
    refine Program.raisesOnly_attempt_bind (h.waitForStop _) (fun packet => ih true) fun e _ => ?_
    dsimp only
    split_ifs
    · exact Program.raisesOnly_done ()
    · exact ih false

/-- Nor does waiting for the fence. -/
theorem awaitFence {G : PyError → Prop} (n : ℕ) : Program.RaisesOnly M I G (awaitFence n) := by
  induction n with
  | zero => exact Program.raisesOnly_done ()
  | succ n ih =>
    refine Program.raisesOnly_attempt_bind (h.read _) (fun packet => ?_) fun _ _ => ih
    dsimp only
    split_ifs
    · exact Program.raisesOnly_done ()
    · exact ih

/-- The fence swallows whatever fails in it. -/
theorem fence {G : PyError → Prop} (hs : sends (.packet .currentThread)) :
    Program.RaisesOnly M I G fence := by
  have hbody : Program.RaisesOnly M I E (do
      GdbClient.sendPacket (τ := τ) .currentThread
      let n ← GdbClient.access (.turns 1000)
      BreakpointTools.awaitFence n) :=
    Program.raisesOnly_bind (h.sendPacket hs) fun _ =>
      Program.raisesOnly_bind (h.access rfl) fun n => h.awaitFence n
  exact Program.raisesOnly_handle hbody fun _ _ => Program.raisesOnly_done ()

/-- The probe answers, whatever happens to its command. -/
theorem probeResponsive {G : PyError → Prop} (timeout : ℕ) (hs : sends (.packet .currentThread)) :
    Program.RaisesOnly M I G (probeResponsive timeout) := by
  refine Program.raisesOnly_bind (h.access rfl) fun isOpen => ?_
  cases isOpen with
  | false => exact Program.raisesOnly_done false
  | true =>
    refine Program.raisesOnly_bind (h.access rfl) fun old => ?_
    refine Program.raisesOnly_bind (h.access rfl) fun _ => ?_
    refine Program.raisesOnly_ensuring ?_ (h.access rfl)
    have hexchange : Program.RaisesOnly M I probeFails (do
        GdbClient.sendPacket (τ := τ) .currentThread
        let reply ← readPacketFromWire (some timeout)
        pure (!startsWith "E".toList reply.text)) := by
      refine Program.raisesOnly_bind ((h.sendPacket hs).mono h.sendErrors) fun _ => ?_
      refine Program.raisesOnly_bind ((h.read _).mono fun e he => ?_) fun reply => ?_
      · exact probeFails_of_readFails (h.readErrors e he)
      · exact Program.raisesOnly_done _
    refine Program.raisesOnly_handle hexchange fun e he => ?_
    have hcaught : isProbeFailure e = true := he
    rw [if_pos hcaught]
    exact Program.raisesOnly_done false

end Contained

end Loops

section Sockets

/-- What a link raises when a read fails, as sockets do. -/
structure RaisesAsSockets {τ N L : Type} (link : Link τ N L) : Prop where
  /-- Reading an acknowledgement fails as on the way to a heartbeat reply. -/
  consumeAck : ∀ net l e, (link.consumeAck net l).1 = .error e → probeFails e
  /-- Reading a packet fails as packet reads do. -/
  readPacket : ∀ net l e, (link.readPacket net l).1 = .error e → readFails e

variable {τ : Type}

/-- An interrupted read fails as reads do. -/
theorem readFails_of_interrupted {e : PyError} {before after : List (Cell τ)}
    (h : Interrupted e before after) : readFails e := by
  obtain ⟨ending, rfl, _⟩ := h
  cases ending <;> rfl

/-- An unexpected byte fails a probe. -/
theorem probeFails_unexpectedAck (byte : UInt8) : probeFails (unexpectedAck byte) := by
  unfold unexpectedAck
  split_ifs <;> rfl

/-- Waiting for an acknowledgement fails as probes do. -/
theorem consumeAckLoop_raises (fuel : ℕ) (net : Net) (b : Buffers τ) {e : PyError}
    (h : (consumeAckLoop fuel b net).1 = .error e) : probeFails e := by
  induction fuel generalizing b net with
  | zero =>
    simp only [consumeAckLoop, Except.error.injEq] at h
    exact h ▸ rfl
  | succ fuel ih =>
    rw [consumeAckLoop] at h
    rcases hread : readExact 1 b net.arrivals with ⟨e' | out, b₁, rest⟩
    · simp only [hread, Except.error.injEq] at h
      exact h ▸ probeFails_of_readFails (readFails_of_interrupted (readExact_one_error hread))
    · obtain ⟨c, rfl, _⟩ := readExact_one_ok hread
      simp only [hread] at h
      split_ifs at h
      · rcases hpacket : readPacketFromWire ⟨c :: b₁.recvBuf, b₁.wire⟩ ⟨rest, net.ackFails⟩ with
          ⟨e' | packet, b₂, net₂⟩
        · simp only [hpacket, Except.error.injEq] at h
          exact h ▸ probeFails_of_readFails
            (readFails_of_interrupted (readPacketFromWire_error hpacket))
        · simp only [hpacket] at h
          exact ih _ _ h
      · rw [Except.error.injEq] at h
        exact h ▸ probeFails_unexpectedAck c.byte

/-- Reads from buffers of any content raise what sockets raise, and an
acknowledgement read a protocol error besides. -/
theorem byteLink_raises : RaisesAsSockets (byteLink τ) where
  consumeAck net b _ h := consumeAckLoop_raises (b.unread.length + 1) net b h
  readPacket net b e h := by
    rcases hread : GdbWire.readPacketFromWire b net with ⟨outcome, b', net'⟩
    simp only [byteLink, hread] at h
    subst h
    exact readFails_of_interrupted (readPacketFromWire_error hread)

end Sockets

end DolphinRe.ContainedErrors
