import DolphinRe.PacketProvenance
import DolphinRe.StubBehaviour

/-!
# Packets and connections

Received data lives in the receive buffer and in the stash. Closing a
connection empties the first only, so a packet stays with its connection as
long as none is stashed when that connection ends, and no drain is cut off by
its end with packets to return.
-/

namespace DolphinRe.ConnectionCycles

open GdbPackets GdbWire GdbTokens EffectProgram SessionMachine GdbClient LinkRefinement
  StubBehaviour PacketProvenance

section Statement

variable {τ N L : Type}

/-- Operations of the client besides `connect`. Register, memory and breakpoint
packets are commands like any other. -/
inductive StubCall where
  | close
  | detach
  | isAlive
  | probeResponsive (timeout : ℕ)
  | cmd (command : Command)
  | continueAsync
  | waitForStop (timeout : Option ℕ)
  | continueAndWait (timeout : Option ℕ)
  | step (timeout : Option ℕ)
  | interrupt
  | drainStopReplies (maxWait : ℕ)
  | drainPendingReplies
  deriving DecidableEq, Repr

/-- One operation, with the payloads it returns. -/
def StubCall.code : StubCall → Code τ (List (Packet τ))
  | .close => do
    access .close
    pure []
  | .detach => do
    GdbClient.detach
    pure []
  | .isAlive => do
    let _ ← GdbClient.isAlive
    pure []
  | .probeResponsive timeout => do
    let _ ← GdbClient.probeResponsive timeout
    pure []
  | .cmd command => do
    let packet ← GdbClient.cmd command
    pure [packet]
  | .continueAsync => do
    GdbClient.continueAsync
    pure []
  | .waitForStop timeout => do
    let packet ← GdbClient.waitForStop timeout
    pure [packet]
  | .continueAndWait timeout => do
    let packet ← GdbClient.continueAndWait timeout
    pure [packet]
  | .step timeout => do
    let packet ← stepInstruction timeout
    pure [packet]
  | .interrupt => do
    GdbClient.interrupt
    pure []
  | .drainStopReplies maxWait => GdbClient.drainStopReplies maxWait
  | .drainPendingReplies => GdbClient.drainPendingReplies

/-- The stub sends on the current connection only; its tokens carry the number
of that connection. -/
def OnConnection (k : ℕ) : Discipline ℕ := fun _ c _ _ =>
  (∀ a ∈ c.acts, a.token.tag = k) ∧ ∀ t ∈ c.response, t.tag = k

instance (k : ℕ) (o : Op ℕ) (c : Choice ℕ Unit) (w : World ℕ Unit) (answer : o.Answer) :
    Decidable (OnConnection k o c w answer) :=
  inferInstanceAs (Decidable (_ ∧ _))

/-- Whether an operation goes on after a read that fails, with what it has read. -/
def StubCall.drains : StubCall → Bool
  | .drainStopReplies _ => true
  | _ => false

/-- An operation of a run: the number of the connection it works on, the worlds
before and after it, and its outcome. -/
structure Exchange (L : Type) where
  /-- Number of connections made so far. -/
  connection : ℕ
  /-- The operation. -/
  call : StubCall
  /-- The world before. -/
  before : World ℕ L
  /-- What it returned or raised. -/
  outcome : Except PyError (List (Packet ℕ))
  /-- The world after. -/
  after : World ℕ L

/-- Every returned payload was received on the connection that is open when it is returned. -/
def Exchange.Current (x : Exchange L) : Prop :=
  ∀ packets, x.outcome = .ok packets → ∀ packet ∈ packets,
    packet.tag = x.connection ∧ x.after.sockOpen = true

/-- A packet was read off the wire between two worlds. -/
def Took (before after : World τ L) : Prop :=
  ∃ events packet, after.trace = before.trace ++ events ∧ .got packet ∈ events

/-- If the connection ended in the course of the operation, no packet of it is
stashed afterwards, and a drain that was cut off by the loss had none to return. -/
def Exchange.EndsEmpty (x : Exchange L) : Prop :=
  x.before.sockOpen = true → x.after.sockOpen = false → x.after.pendingReplies = [] ∧
    (x.call.drains = true → x.before.pendingReplies = [] ∧ ¬Took x.before x.after)

/-- Any sequence of operations and connects, from the `k`-th connection on; an
operation that raises is followed by the next one. -/
inductive Cycles (link : Link ℕ N L) : ℕ → World ℕ L → List (Exchange L) → Prop
  | nil (k : ℕ) (w : World ℕ L) : Cycles link k w []
  | connect {k : ℕ} {w v : World ℕ L} {r : Except PyError Unit} {rest : List (Exchange L)} :
    connect.Reaches (disciplined link (OnConnection k)) w r v →
    Cycles link (if w.sockOpen = false ∧ v.sockOpen = true then k + 1 else k) v rest →
    Cycles link k w rest
  | call {k : ℕ} {w v : World ℕ L} {r : Except PyError (List (Packet ℕ))}
    {rest : List (Exchange L)} (call : StubCall) :
    call.code.Reaches (disciplined link (OnConnection k)) w r v → Cycles link k v rest →
    Cycles link k w (⟨k, call, w, r, v⟩ :: rest)

/-- A client object that has not been connected yet. -/
structure Constructed (w : World τ L) : Prop where
  /-- It has no socket. -/
  sock : w.sockOpen = false
  /-- It has nothing stashed. -/
  pending : w.pendingReplies = []

end Statement

section Origins

variable {τ N L : Type} {link : Link τ N L} {P : τ → Prop} {owned : L → Prop} {w : World τ L}

/-- Accesses of the client's operations other than `connect`. -/
def isStubAccess : Op τ → Bool
  | .isSockOpen => true
  | .getTimeout => true
  | .setTimeout _ => true
  | .close => true
  | .send _ => true
  | .consumeAck => true
  | .readPacketFromWire _ => true
  | .popPending => true
  | .takePending => true
  | .turns _ => true
  | _ => false

/-- What is required of single accesses: they keep an invariant, under which
every packet that is handed out has a known origin. -/
structure Deals {C W : Type} (M : Machine (signature τ) C W) (I : W → Prop) (P : τ → Prop) :
    Prop where
  /-- Accesses keep the invariant. -/
  step : ∀ o c w, isStubAccess o = true → M.admits o c w → I w → I (M.step o c w).2
  /-- A packet off the wire has a known origin. -/
  read : ∀ timeout c w packet, M.admits (.readPacketFromWire timeout) c w → I w →
    (M.step (.readPacketFromWire timeout) c w).1 = .ok packet → P packet.tag
  /-- So has the first stashed packet. -/
  pop : ∀ c w packet, M.admits .popPending c w → I w →
    (M.step .popPending c w).1 = some packet → P packet.tag
  /-- So has every packet taken from the stash. -/
  take : ∀ c w, M.admits .takePending c w → I w →
    ∀ packet ∈ (M.step .takePending c w).1, P packet.tag

section Parts

variable {C W : Type} {M : Machine (signature τ) C W} {I : W → Prop}

/-- A handler that goes on or raises again. -/
theorem gives_caught {α : Type} {p : Code τ α} {a : α} {caught : PyError → Bool}
    (hp : Program.Gives M I (fun _ => True) p) : Program.Gives M I (fun _ => True)
      (p.handle fun e => if caught e then pure a else throwing e) := by
  refine Program.gives_handle hp fun e => ?_
  split_ifs
  · exact Program.gives_done trivial
  · exact Program.gives_raise e

/-- A list of one packet. -/
theorem gives_returned {p : Code τ (Packet τ)} (hp : Program.Gives M I (fun packet => P packet.tag) p) :
    Program.Gives M I (fun packets => ∀ packet ∈ packets, P packet.tag) (do
      let packet ← p
      pure [packet]) := by
  refine Program.gives_bind hp fun packet hpacket => Program.gives_done fun packet' hmem => ?_
  exact List.mem_singleton.mp hmem ▸ hpacket

/-- No packet at all. -/
theorem gives_nothing {α : Type} {p : Code τ α} (hp : Program.Gives M I (fun _ => True) p) :
    Program.Gives M I (fun packets : List (Packet τ) => ∀ packet ∈ packets, P packet.tag) (do
      let _ ← p
      pure []) :=
  Program.gives_bind hp fun _ _ => Program.gives_done fun _ hmem => by simp at hmem

end Parts

namespace Deals

variable {C W : Type} {M : Machine (signature τ) C W} {I : W → Prop} (h : Deals M I P)

include h

/-- Single accesses keep the invariant. -/
theorem access {o : Op τ} (ho : isStubAccess o = true) :
    Program.Gives M I (fun _ => True) (GdbClient.access o) :=
  fun w hw c hc => ⟨h.step o c w ho hc hw, fun _ _ => trivial⟩

/-- Sending hands out nothing. -/
theorem sendall (message : Sent) : Program.Gives M I (fun _ => True) (sendall message) := by
  intro w hw
  rw [wp_sendall]
  exact fun c hc => ⟨h.step _ c w rfl hc hw, fun _ _ => trivial⟩

/-- Neither does waiting for an acknowledgement. -/
theorem consumeAck : Program.Gives M I (fun _ => True) (consumeAck : Code τ Unit) := by
  intro w hw
  rw [wp_consumeAck]
  exact fun c hc => ⟨h.step _ c w rfl hc hw, fun _ _ => trivial⟩

/-- A packet off the wire has a known origin. -/
theorem readPacketFromWire (timeout : Option ℕ) :
    Program.Gives M I (fun packet => P packet.tag) (readPacketFromWire timeout) := by
  intro w hw
  rw [wp_readPacketFromWire]
  exact fun c hc => ⟨h.step _ c w rfl hc hw, fun packet => h.read timeout c w packet hc hw⟩

/-- Sending a packet hands out nothing. -/
theorem sendPacket (command : Command) :
    Program.Gives M I (fun _ => True) (sendPacket command : Code τ Unit) :=
  Program.gives_bind (h.sendall _) fun _ _ => h.consumeAck

/-- The reply to a command has a known origin. -/
theorem cmd (command : Command) : Program.Gives M I (fun packet => P packet.tag) (cmd command) :=
  Program.gives_bind (h.sendPacket command) fun _ _ => h.readPacketFromWire none

/-- So has a packet from the stash or off the wire. -/
theorem readPacket (timeout : Option ℕ) :
    Program.Gives M I (fun packet => P packet.tag) (readPacket timeout) := by
  have hpop : Program.Gives M I (fun answer => ∀ packet, answer = some packet → P packet.tag)
      (GdbClient.access (τ := τ) .popPending) := fun w hw c hc =>
    ⟨h.step _ c w rfl hc hw, fun answer hanswer packet hpacket => by
      rw [Except.ok.injEq] at hanswer
      exact h.pop c w packet hc hw (hanswer.trans hpacket)⟩
  refine Program.gives_bind hpop fun answer hanswer => ?_
  cases answer with
  | none => exact h.readPacketFromWire timeout
  | some packet => exact Program.gives_done (hanswer packet rfl)

/-- So has everything in the stash. -/
theorem takePending : Program.Gives M I (fun packets => ∀ packet ∈ packets, P packet.tag)
    (GdbClient.access (τ := τ) .takePending) := fun w hw c hc =>
  ⟨h.step _ c w rfl hc hw, fun packets hpackets => by
    rw [Except.ok.injEq] at hpackets
    exact hpackets ▸ h.take c w hc hw⟩

/-- So has what is drained off the wire. -/
theorem drainWire (n : ℕ) (out : List (Packet τ)) (hout : ∀ packet ∈ out, P packet.tag) :
    Program.Gives M I (fun packets => ∀ packet ∈ packets, P packet.tag) (drainWire n out) := by
  induction n generalizing out with
  | zero => exact Program.gives_done hout
  | succ n ih =>
    refine Program.gives_attempt_bind (h.readPacketFromWire _) (fun packet hpacket => ih _ ?_)
      fun e => ?_
    · intro packet' hmem
      rcases List.mem_append.mp hmem with hmem | hmem
      · exact hout packet' hmem
      · exact List.mem_singleton.mp hmem ▸ hpacket
    · dsimp only
      split_ifs
      · exact Program.gives_done hout
      · exact Program.gives_raise e

/-- So has all that a drain returns. -/
theorem drainStopReplies (maxWait : ℕ) : Program.Gives M I
    (fun packets => ∀ packet ∈ packets, P packet.tag) (drainStopReplies maxWait) :=
  Program.gives_bind h.takePending fun out hout =>
    Program.gives_bind (h.access rfl) fun n _ => h.drainWire n out hout

/-- A detach hands out nothing. -/
theorem detach : Program.Gives M I (fun _ => True) (detach : Code τ Unit) := by
  have hcmd : Program.Gives M I (fun _ => True) (do let _ ← GdbClient.cmd (τ := τ) .detach) :=
    Program.gives_bind (h.cmd .detach) fun _ _ => Program.gives_done trivial
  exact Program.gives_bind (gives_caught hcmd) fun _ _ => h.access rfl

/-- Neither does a look at the socket. -/
theorem isAlive : Program.Gives M I (fun _ => True) (isAlive : Code τ Bool) := by
  refine Program.gives_bind (h.access rfl) fun isOpen _ => ?_
  split_ifs
  · exact gives_caught (Program.gives_bind (h.cmd .currentThread) fun _ _ => Program.gives_done trivial)
  · exact Program.gives_done trivial

/-- Nor does a probe. -/
theorem probeResponsive (timeout : ℕ) :
    Program.Gives M I (fun _ => True) (probeResponsive timeout : Code τ Bool) := by
  refine Program.gives_bind (h.access rfl) fun isOpen _ => ?_
  split_ifs
  · refine Program.gives_bind (h.access rfl) fun old _ => ?_
    refine Program.gives_bind (h.access rfl) fun _ _ => ?_
    refine Program.gives_ensuring (gives_caught ?_) (h.access rfl).keeps
    refine Program.gives_bind (h.sendPacket .currentThread) fun _ _ => ?_
    exact Program.gives_bind (h.readPacketFromWire _) fun _ _ => Program.gives_done trivial
  · exact Program.gives_done trivial

/-- Every packet an operation returns has a known origin. -/
theorem call (call : StubCall) : Program.Gives M I
    (fun packets => ∀ packet ∈ packets, P packet.tag) (call.code : Code τ (List (Packet τ))) := by
  cases call with
  | close => exact gives_nothing (h.access rfl)
  | detach => exact gives_nothing h.detach
  | isAlive => exact gives_nothing h.isAlive
  | probeResponsive timeout => exact gives_nothing (h.probeResponsive timeout)
  | cmd command => exact gives_returned (h.cmd command)
  | continueAsync => exact gives_nothing (h.sendPacket .resume)
  | waitForStop timeout => exact gives_returned (h.readPacket timeout)
  | continueAndWait timeout =>
    exact gives_returned (Program.gives_bind (h.sendPacket .resume) fun _ _ => h.readPacket timeout)
  | step timeout =>
    exact gives_returned (Program.gives_bind (h.sendPacket .step) fun _ _ => h.readPacket timeout)
  | interrupt => exact gives_nothing (h.sendall .interrupt)
  | drainStopReplies maxWait => exact h.drainStopReplies maxWait
  | drainPendingReplies => exact h.takePending

end Deals

/-- Everything received and not handed out yet has a known origin. -/
structure Held (P : τ → Prop) (owned : L → Prop) (w : World τ L) : Prop where
  /-- What is unread on an open connection has a known origin. -/
  unread : w.sockOpen = true → owned w.link
  /-- So has what is stashed. -/
  stashed : ∀ packet ∈ w.pendingReplies, P packet.tag

/-- What the stub sends on the connection is held with its origin. -/
theorem Held.emit (hlink : Owns link P owned) (h : Held P owned w) {tokens : List (Token τ)}
    (htokens : ∀ t ∈ tokens, P t.tag) : Held P owned (w.emit link tokens) := by
  unfold World.emit
  split_ifs
  · exact ⟨fun hopen => hlink.emit tokens w.link htokens (h.unread hopen), h.stashed⟩
  · exact h

/-- So is what it does on its own. -/
theorem Held.absorb (hlink : Owns link P owned) (h : Held P owned w) {acts : List (StubAct τ)}
    (hacts : ∀ a ∈ acts, P a.token.tag) : Held P owned (w.absorb link acts) := by
  induction acts generalizing w with
  | nil => exact h
  | cons a acts ih =>
    have hone : Held P owned (World.act link w a) := by
      have htoken : ∀ t ∈ [a.token], P t.tag := fun t ht =>
        List.mem_singleton.mp ht ▸ hacts a List.mem_cons_self
      have hemit := h.emit hlink htoken
      exact ⟨hemit.unread, hemit.stashed⟩
    exact ih hone fun a' ha' => hacts a' (List.mem_cons_of_mem _ ha')

/-- So is what it responds with. -/
theorem Held.send (hlink : Owns link P owned) (h : Held P owned w) (message : Sent)
    {c : Choice τ N} (hresponse : ∀ t ∈ c.response, P t.tag) :
    Held P owned (w.send link message c).2 := by
  unfold World.send
  split_ifs
  · exact ⟨fun _ => hlink.fresh, h.stashed⟩
  · exact ⟨fun hopen => hlink.emit c.response w.link hresponse (h.unread hopen), h.stashed⟩
  · exact h

/-- Waiting for an acknowledgement stashes what was held. -/
theorem Held.consumeAck (hlink : Owns link P owned) (h : Held P owned w) (c : Choice τ N) :
    Held P owned (w.consumeAck link c).2 := by
  cases hopen : w.sockOpen with
  | false =>
    rw [World.consumeAck_closed hopen]
    exact h
  | true =>
    rw [World.consumeAck_open hopen]
    refine ⟨fun _ => hlink.left c.net w.link (h.unread hopen), fun packet hpacket => ?_⟩
    rcases List.mem_append.mp hpacket with hpacket | hpacket
    · exact h.stashed packet hpacket
    · exact hlink.stash c.net w.link (h.unread hopen) packet hpacket

/-- Reading hands out what was held. -/
theorem Held.readPacket (hlink : Owns link P owned) (h : Held P owned w) (c : Choice τ N) :
    Held P owned (w.readPacket link c).2 ∧
      ∀ packet, (w.readPacket link c).1 = .ok packet → P packet.tag := by
  cases hopen : w.sockOpen with
  | false =>
    rw [World.readPacket_closed hopen]
    exact ⟨h, fun packet hpacket => by simp at hpacket⟩
  | true =>
    rw [World.readPacket_open hopen]
    exact ⟨⟨fun _ => hlink.rest c.net w.link (h.unread hopen), h.stashed⟩,
      fun packet hpacket => hlink.read c.net w.link packet (h.unread hopen) hpacket⟩

/-- A new connection holds nothing yet. -/
theorem Held.connect (hlink : Owns link P owned) (h : Held P owned w) (c : Choice τ N) :
    Held P owned (w.connect link c).2 := by
  unfold World.connect
  split_ifs
  · exact h
  · exact h
  · exact ⟨fun _ => hlink.fresh, h.stashed⟩

/-- Accesses that stash a packet the caller brings along. -/
def pushes : Op τ → Bool
  | .pushPending _ => true
  | _ => false

/-- The client's own accesses stash nothing from outside. -/
theorem pushes_of_isStubAccess {o : Op τ} (h : isStubAccess o = true) : pushes o = false := by
  cases o <;> first | rfl | simp [isStubAccess] at h

/-- Other accesses keep the origin of what is held, if what the stub sends has a known origin. -/
theorem held_step (hlink : Owns link P owned) {o : Op τ} (ho : pushes o = false) {c : Choice τ N}
    (hacts : ∀ a ∈ c.acts, P a.token.tag)
    (hresponse : ∀ message, o = .send message → ∀ t ∈ c.response, P t.tag) (h : Held P owned w) :
    Held P owned (World.step link o c w).2 := by
  have habsorbed : Held P owned (w.absorb link c.acts) := h.absorb hlink hacts
  cases o
  case send message => exact habsorbed.send hlink message (hresponse message rfl)
  case consumeAck => exact habsorbed.consumeAck hlink c
  case readPacketFromWire timeout => exact (habsorbed.readPacket hlink c).1
  case connect => exact habsorbed.connect hlink c
  case close =>
    change Held P owned (if w.sockOpen then w.closed link else w)
    split_ifs
    · exact ⟨fun _ => hlink.fresh, h.stashed⟩
    · exact h
  case popPending => exact ⟨h.unread, fun packet hp => h.stashed packet (List.mem_of_mem_tail hp)⟩
  case takePending => exact ⟨h.unread, fun packet hp => (List.not_mem_nil hp).elim⟩
  case pushPending raw => simp [pushes] at ho
  case markRunning =>
    change Held P owned (if w.state = .connectedPaused then _ else w)
    split_ifs <;> exact ⟨h.unread, h.stashed⟩
  case markPaused =>
    change Held P owned (if w.state = .connectedRunning then _ else w)
    split_ifs <;> exact ⟨h.unread, h.stashed⟩
  all_goals first | exact ⟨h.unread, h.stashed⟩ | exact ⟨habsorbed.unread, habsorbed.stashed⟩

end Origins

section Connections

variable {N L : Type} {link : Link ℕ N L} {owned : L → Prop} {k : ℕ} {w v : World ℕ L}

/-- Everything held was received on the `k`-th connection. -/
theorem deals_held (hlink : Owns link (· = k) owned) :
    Deals (disciplined link (OnConnection k)) (Held (· = k) owned) (· = k) where
  step _ _ _ ho hc h := held_step hlink (pushes_of_isStubAccess ho) hc.2.1 (fun _ _ => hc.2.2) h
  read _ c _ packet hc h hpacket := ((h.absorb hlink hc.2.1).readPacket hlink c).2 packet hpacket
  pop _ _ packet _ h hpacket := h.stashed packet (List.mem_of_mem_head? hpacket)
  take _ _ _ h packet hpacket := h.stashed packet hpacket

/-- There is no connection, and nothing is stashed. -/
def Idle (w : World ℕ L) : Prop := w.sockOpen = false ∧ w.pendingReplies = []

/-- Without a connection nothing arrives. -/
theorem Idle.absorb (h : Idle w) (acts : List (StubAct ℕ)) : Idle (w.absorb link acts) := by
  rw [Idle, World.absorb_sockOpen, World.absorb_pendingReplies]
  exact h

/-- Nor is anything stashed. -/
theorem idle_step {o : Op ℕ} (ho : isStubAccess o = true) (c : Choice ℕ N) (h : Idle w) :
    Idle (World.step link o c w).2 := by
  have habsorb : Idle (w.absorb link c.acts) := h.absorb c.acts
  cases o
  case send message =>
    change Idle (World.send link message c (w.absorb link c.acts)).2
    rw [World.send, if_neg (by rw [habsorb.1]; exact Bool.false_ne_true)]
    exact habsorb
  case consumeAck =>
    change Idle (World.consumeAck link c (w.absorb link c.acts)).2
    rw [World.consumeAck_closed habsorb.1]
    exact habsorb
  case readPacketFromWire timeout =>
    change Idle (World.readPacket link c (w.absorb link c.acts)).2
    rw [World.readPacket_closed habsorb.1]
    exact habsorb
  case turns budget => exact habsorb
  case close =>
    change Idle (if w.sockOpen then w.closed link else w)
    rw [if_neg (by simp [h.1])]
    exact h
  case popPending =>
    have htail : w.pendingReplies.tail = [] := by rw [h.2, List.tail_nil]
    exact ⟨h.1, htail⟩
  case takePending => exact ⟨h.1, rfl⟩
  all_goals first | exact h | simp [isStubAccess] at ho

/-- Without a connection, and with nothing stashed, no packet is handed out. -/
theorem deals_idle : Deals (disciplined link (OnConnection k)) Idle fun _ => False where
  step o c w ho _ h := idle_step ho c h
  read timeout c w packet _ h hpacket := by
    have habsorb : (w.absorb link c.acts).sockOpen = false := (h.absorb c.acts).1
    change (World.readPacket link c (w.absorb link c.acts)).1 = .ok packet at hpacket
    rw [World.readPacket_closed habsorb] at hpacket
    simp at hpacket
  pop c w packet _ h hpacket := by
    change w.pendingReplies.head? = some packet at hpacket
    rw [h.2] at hpacket
    simp at hpacket
  take c w _ h packet hpacket := by
    change packet ∈ w.pendingReplies at hpacket
    rw [h.2] at hpacket
    simp at hpacket

/-- What is known of the returned packets and the world after an operation: the
connection is open if any are returned, or it is as it was, or a drain had some
before or read some. -/
def OpenIfAny (drains : Bool) (w : World ℕ L) (r : Except PyError (List (Packet ℕ))) (v : World ℕ L) :
    Prop :=
  ∀ packets, r = .ok packets → packets ≠ [] → v.sockOpen = true ∨ v.sockOpen = w.sockOpen ∨
    drains = true ∧ (w.pendingReplies ≠ [] ∨ Took w v)

variable {M : Machine (signature ℕ) (Choice ℕ N) (World ℕ L)}

/-- A packet is read over an open connection only, which stays open; the read is recorded. -/
theorem wp_readPacketFromWire_open (hM : M.step = World.step link) (timeout : Option ℕ) :
    (readPacketFromWire timeout).wp M (fun r v => ∃ events, v.trace = w.trace ++ events ∧
      ∀ packet, r = .ok packet → v.sockOpen = true ∧ .got packet ∈ events) w := by
  rw [wp_readPacketFromWire]
  intro c _
  rw [hM]
  change ∃ events, (World.readPacket link c (w.absorb link c.acts)).2.trace = _ ∧
    ∀ packet, (World.readPacket link c (w.absorb link c.acts)).1 = .ok packet →
      (World.readPacket link c (w.absorb link c.acts)).2.sockOpen = true ∧ _
  cases hopen : (w.absorb link c.acts).sockOpen with
  | false =>
    rw [World.readPacket_closed hopen]
    exact ⟨[], by simp, fun packet hpacket => by simp at hpacket⟩
  | true =>
    rw [World.readPacket_open hopen]
    dsimp only
    refine ⟨_, by rw [World.absorb_trace], fun packet hpacket => ?_⟩
    rw [hpacket]
    exact ⟨rfl, List.mem_singleton_self _⟩

/-- An acknowledgement is read over an open connection only, which stays open. -/
theorem wp_sendPacket_open (hM : M.step = World.step link) (command : Command) :
    (sendPacket command : Code ℕ Unit).wp M (fun r v => r = .ok () → v.sockOpen = true) w := by
  refine Program.wp_bind_last (fun e v he => by simp at he) (fun _ v => ?_) w
  rw [wp_consumeAck]
  intro c _ hok
  rw [hM] at hok ⊢
  change (World.consumeAck link c (v.absorb link c.acts)).1 = .ok () at hok
  change (World.consumeAck link c (v.absorb link c.acts)).2.sockOpen = true
  cases hopen : (v.absorb link c.acts).sockOpen with
  | false =>
    rw [World.consumeAck_closed hopen] at hok
    simp at hok
  | true =>
    rw [World.consumeAck_open hopen] at hok ⊢
    cases houtcome : (link.consumeAck c.net (v.absorb link c.acts).link).1 with
    | ok tag => rfl
    | error e =>
      rw [houtcome] at hok
      simp [Except.map] at hok

/-- A packet is handed out over an open connection, or from the stash. -/
theorem wp_readPacket_open (hM : M.step = World.step link) (timeout : Option ℕ) :
    (readPacket timeout).wp M (fun r v => ∀ packet, r = .ok packet →
      v.sockOpen = true ∨ w.pendingReplies ≠ [] ∧ v.sockOpen = w.sockOpen) w := by
  intro c _
  have hanswer : (M.step .popPending c w).1 = w.pendingReplies.head? := by rw [hM]; rfl
  have hworld : (M.step .popPending c w).2.sockOpen = w.sockOpen := by rw [hM]; rfl
  rw [hanswer]
  cases hpending : w.pendingReplies with
  | nil =>
    refine Program.wp_mono (fun r v hv packet hpacket => ?_) (wp_readPacketFromWire_open hM timeout)
    obtain ⟨_, _, hread⟩ := hv
    exact Or.inl (hread packet hpacket).1
  | cons packet rest =>
    intro packet' _
    exact Or.inr ⟨List.cons_ne_nil packet rest, hworld⟩

/-- After an acknowledged command, a packet is handed out over an open connection. -/
theorem wp_exchange_open (hM : M.step = World.step link) (command : Command)
    (timeout : Option ℕ) : ((sendPacket command).bind fun _ => readPacket timeout).wp M
      (fun r v => ∀ packet, r = .ok packet → v.sockOpen = true) w := by
  rw [Program.wp_bind]
  refine Program.wp_mono (fun r v hv => ?_) (wp_sendPacket_open hM command)
  cases r with
  | error e => exact fun packet hpacket => by simp at hpacket
  | ok _ =>
    refine Program.wp_mono (fun s u hu packet hpacket => ?_) (wp_readPacket_open hM timeout)
    rcases hu packet hpacket with hopen | ⟨_, hsame⟩
    · exact hopen
    · exact hsame.trans (hv rfl)

/-- What draining adds to what it had was read off the wire. -/
theorem wp_drainWire_took (hM : M.step = World.step link) (n : ℕ) (out : List (Packet ℕ)) :
    (drainWire n out).wp M (fun r v => ∃ events, v.trace = w.trace ++ events ∧
      ∀ packets, r = .ok packets → packets = out ∨ ∃ packet, .got packet ∈ events) w := by
  induction n generalizing out w with
  | zero => exact ⟨[], by simp, fun packets hpackets => Or.inl (Except.ok.inj hpackets).symm⟩
  | succ n ih =>
    refine (Program.wp_bind _ _ _ _).mpr ((Program.wp_attempt _ _ _).mpr ?_)
    refine Program.wp_mono (fun r v hv => ?_) (wp_readPacketFromWire_open hM (some 20))
    obtain ⟨events, htrace, hread⟩ := hv
    cases r with
    | ok packet =>
      refine Program.wp_mono (fun s u hu => ?_) (ih (out ++ [packet]))
      obtain ⟨later, hlater, _⟩ := hu
      refine ⟨events ++ later, by rw [hlater, htrace, List.append_assoc], fun packets _ => ?_⟩
      exact Or.inr ⟨packet, List.mem_append_left _ (hread packet rfl).2⟩
    | error e =>
      change Program.wp M (if e.isOSError || isConnectionLost e then pure out else throwing e) _ v
      split_ifs
      · exact ⟨events, htrace, fun packets hpackets => Or.inl (Except.ok.inj hpackets).symm⟩
      · exact ⟨events, htrace, fun packets hpackets => by simp at hpackets⟩

/-- A single packet is returned over an open connection, or leaves it as it was. -/
theorem openIfAny_single {p : Code ℕ (Packet ℕ)} {drains : Bool} (hp : p.wp M (fun r v =>
    ∀ packet, r = .ok packet → v.sockOpen = true ∨ v.sockOpen = w.sockOpen) w) :
    (do
      let packet ← p
      pure [packet]).wp M (OpenIfAny drains w) w := by
  refine (Program.wp_bind _ _ _ _).mpr (Program.wp_mono (fun r v hv => ?_) hp)
  cases r with
  | ok packet => exact fun packets _ _ => (hv packet rfl).imp_right Or.inl
  | error e => exact fun packets hpackets => by simp at hpackets

/-- Nothing is returned. -/
theorem openIfAny_nothing {α : Type} (p : Code ℕ α) {drains : Bool} : (do
    let _ ← p
    pure []).wp M (OpenIfAny drains w) w := by
  refine Program.wp_bind_last (fun e v packets hpackets => by simp at hpackets) (fun _ v => ?_) w
  exact fun packets hpackets hany => absurd (Except.ok.inj hpackets).symm hany

/-- An operation that returns packets has its connection, or is a drain cut off by the loss. -/
theorem wp_call_open (hM : M.step = World.step link) (call : StubCall) :
    call.code.wp M (OpenIfAny call.drains w) w := by
  cases call with
  | close => exact openIfAny_nothing _
  | detach => exact openIfAny_nothing _
  | isAlive => exact openIfAny_nothing _
  | probeResponsive timeout => exact openIfAny_nothing _
  | continueAsync => exact openIfAny_nothing _
  | interrupt => exact openIfAny_nothing _
  | cmd command =>
    refine openIfAny_single (Program.wp_bind_last (fun e v packet hp => by simp at hp) (fun _ v => ?_) w)
    refine Program.wp_mono (fun r u hu packet hpacket => ?_) (wp_readPacketFromWire_open hM none)
    obtain ⟨_, _, hread⟩ := hu
    exact Or.inl (hread packet hpacket).1
  | waitForStop timeout =>
    refine openIfAny_single (Program.wp_mono (fun r v hv packet hpacket => ?_)
      (wp_readPacket_open hM timeout))
    exact (hv packet hpacket).imp_right And.right
  | continueAndWait timeout =>
    exact openIfAny_single (Program.wp_mono (fun r v hv packet hpacket => Or.inl (hv packet hpacket))
      (wp_exchange_open hM .resume timeout))
  | step timeout =>
    exact openIfAny_single (Program.wp_mono (fun r v hv packet hpacket => Or.inl (hv packet hpacket))
      (wp_exchange_open hM .step timeout))
  | drainStopReplies maxWait =>
    intro c _ c' _
    have htake : (M.step .takePending c w).1 = w.pendingReplies := by rw [hM]; rfl
    have htrace : (M.step (.turns maxWait) c' (M.step .takePending c w).2).2.trace = w.trace := by
      rw [hM]
      exact World.absorb_trace link c'.acts _
    rw [htake]
    refine Program.wp_mono (fun r v hv packets hpackets hany => ?_) (wp_drainWire_took hM _ _)
    obtain ⟨events, hevents, hfrom⟩ := hv
    rcases hfrom packets hpackets with rfl | ⟨packet, hgot⟩
    · exact Or.inr (Or.inr ⟨rfl, Or.inl hany⟩)
    · exact Or.inr (Or.inr ⟨rfl, Or.inr ⟨events, packet, by rw [hevents, htrace], hgot⟩⟩)
  | drainPendingReplies =>
    intro c _ packets _ _
    have hsame : (M.step .takePending c w).2.sockOpen = w.sockOpen := by rw [hM]; rfl
    exact Or.inr (Or.inl hsame)

/-- Between operations, everything held belongs to the current connection, and
nothing is stashed without one. -/
structure Tidy (k : ℕ) (owned : ℕ → L → Prop) (w : World ℕ L) : Prop where
  /-- Everything held belongs to the current connection. -/
  held : Held (· = k) (owned k) w
  /-- Without a connection nothing is stashed. -/
  stash : w.sockOpen = false → w.pendingReplies = []

variable {connections : ℕ → L → Prop}

/-- One operation that ends no connection while a packet is held. -/
theorem tidy_call (hlink : Owns link (· = k) (connections k)) (call : StubCall)
    {r : Except PyError (List (Packet ℕ))} (hw : Tidy k connections w)
    (h : call.code.Reaches (disciplined link (OnConnection k)) w r v)
    (hends : Exchange.EndsEmpty ⟨k, call, w, r, v⟩) :
    Tidy k connections v ∧ Exchange.Current ⟨k, call, w, r, v⟩ := by
  obtain ⟨hheld, htags⟩ := Program.reaches_of_wp ((deals_held hlink).call call w hw.held) h
  have hopenIfAny : OpenIfAny call.drains w r v := Program.reaches_of_wp (wp_call_open rfl call) h
  have hidle : w.sockOpen = false → Idle v ∧ ∀ packets, r = .ok packets → packets = [] := by
    intro hclosed
    obtain ⟨hv, hnone⟩ := Program.reaches_of_wp (deals_idle.call call w ⟨hclosed, hw.stash hclosed⟩) h
    exact ⟨hv, fun packets hpackets => List.eq_nil_iff_forall_not_mem.mpr (hnone packets hpackets)⟩
  refine ⟨⟨hheld, fun hv => ?_⟩, fun packets hpackets packet hpacket => ?_⟩
  · cases hopen : w.sockOpen with
    | false => exact (hidle hopen).1.2
    | true => exact (hends hopen hv).1
  · refine ⟨htags packets hpackets packet hpacket, ?_⟩
    have hany : packets ≠ [] := List.ne_nil_of_mem hpacket
    cases hopen : w.sockOpen with
    | false => exact absurd ((hidle hopen).2 packets hpackets) hany
    | true =>
      by_contra hv
      rcases hopenIfAny packets hpackets hany with h | h | ⟨hdrains, h⟩
      · exact hv h
      · exact hv (h.trans hopen)
      · obtain ⟨hbefore, htook⟩ := (hends hopen (Bool.eq_false_iff.mpr hv)).2 hdrains
        exact h.elim (fun hheld => hheld hbefore) htook

/-- Connecting empties the receive buffer, and nothing was stashed. -/
theorem tidy_connect (hlink : ∀ j, Owns link (· = j) (connections j)) {r : Except PyError Unit}
    (hw : Tidy k connections w) (h : connect.Reaches (disciplined link (OnConnection k)) w r v) :
    Tidy (if w.sockOpen = false ∧ v.sockOpen = true then k + 1 else k) connections v := by
  obtain ⟨c, hc, hanswer⟩ := h
  obtain ⟨_, hv⟩ := (Program.reaches_ofExcept _).mp hanswer
  change v = (World.connect link c (w.absorb link c.acts)).2 at hv
  have habsorbed : Held (· = k) (connections k) (w.absorb link c.acts) :=
    hw.held.absorb (hlink k) hc.2.1
  have hstash : (w.absorb link c.acts).pendingReplies = w.pendingReplies :=
    World.absorb_pendingReplies link c.acts w
  have hsock : (w.absorb link c.acts).sockOpen = w.sockOpen := World.absorb_sockOpen link c.acts w
  unfold World.connect at hv
  cases hopen : w.sockOpen with
  | true =>
    rw [if_pos (hsock.trans hopen)] at hv
    rw [if_neg (by simp), hv]
    exact ⟨habsorbed, fun hclosed => by simp [hopen] at hclosed⟩
  | false =>
    rw [if_neg (by simp [hopen])] at hv
    have hnone : (w.absorb link c.acts).pendingReplies = [] := hstash.trans (hw.stash hopen)
    split_ifs at hv
    · rw [if_neg (by simp [hv, hopen]), hv]
      exact ⟨habsorbed, fun _ => hnone⟩
    · rw [if_pos ⟨rfl, by rw [hv]⟩, hv]
      refine ⟨⟨fun _ => (hlink (k + 1)).fresh, fun packet hpacket => ?_⟩, fun _ => hnone⟩
      exact absurd (hnone ▸ hpacket) List.not_mem_nil

/-- In every run whose connections end so, each returned payload is of its connection. -/
theorem cycles_current (hlink : ∀ j, Owns link (· = j) (connections j))
    {exchanges : List (Exchange L)} (hw : Tidy k connections w) (hrun : Cycles link k w exchanges)
    (hends : ∀ x ∈ exchanges, x.EndsEmpty) : ∀ x ∈ exchanges, x.Current := by
  induction hrun with
  | nil k w => simp
  | connect hconnect _ ih => exact ih (tidy_connect hlink hw hconnect) hends
  | call call hcall _ ih =>
    obtain ⟨hnext, hcurrent⟩ := tidy_call (hlink _) call hw hcall (hends _ List.mem_cons_self)
    intro x hx
    rcases List.mem_cons.mp hx with rfl | hx
    · exact hcurrent
    · exact ih hnext (fun y hy => hends y (List.mem_cons_of_mem _ hy)) x hx

/-- No packet outlives its connection, in every run of operations and
connections from a new client on: every returned payload was received on the
connection that is open when it is returned, if each connection ends with no
packet of it stashed, and no drain that is cut off by the loss has one to return. -/
theorem packets_stay_with_their_connection {w : World ℕ (Buffers ℕ)}
    {exchanges : List (Exchange (Buffers ℕ))} (hstart : Constructed w)
    (hrun : Cycles (byteLink ℕ) 0 w exchanges) (hends : ∀ x ∈ exchanges, x.EndsEmpty) :
    ∀ x ∈ exchanges, x.Current := by
  have hlink : ∀ j, Owns (byteLink ℕ) (· = j) (ownedBytes (· = j)) := fun j => byteLink_owns (· = j)
  have htidy : Tidy 0 (fun j => ownedBytes (· = j)) w := by
    refine ⟨⟨fun hopen => ?_, fun packet hpacket => ?_⟩, fun _ => hstart.pending⟩
    · rw [hstart.sock] at hopen
      exact absurd hopen Bool.false_ne_true
    · rw [hstart.pending] at hpacket
      exact absurd hpacket List.not_mem_nil
  exact cycles_current hlink htidy hrun hends

/-- A new client. -/
def newClient : World ℕ (Buffers ℕ) :=
  ⟨.disconnected, false, true, [], 1, none, false, 5000, [], Buffers.empty, false, [], 0, [], [], []⟩

/-- Everything sent so far arrives at once. -/
def arriving : Net := ⟨List.replicate 9 (.bytes 100), []⟩

/-- A command answered on a connection, after stops that the stub sends first. -/
def answeredOn (k : ℕ) (stops : List (StubAct ℕ)) : List (Choice ℕ Net) :=
  [{net := arriving, acts := stops, response := [.ack k, .frame stopBody k]}, {net := arriving},
    {net := arriving}]

/-- A connect that is accepted. -/
def connected (k : ℕ) (w : World ℕ (Buffers ℕ)) : World ℕ (Buffers ℕ) :=
  ((connect : Code ℕ Unit).run (disciplined (byteLink ℕ) (OnConnection k)) [] w).2.1

/-- A call along a script. -/
def exchanged (k : ℕ) (call : StubCall) (script : List (Choice ℕ Net)) (w : World ℕ (Buffers ℕ)) :
    Exchange (Buffers ℕ) :=
  ⟨k, call, w, (call.code.run (disciplined (byteLink ℕ) (OnConnection k)) script w).1,
    (call.code.run (disciplined (byteLink ℕ) (OnConnection k)) script w).2.1⟩

/-- The next connection is opened. -/
theorem cycles_connected {k : ℕ} {w : World ℕ (Buffers ℕ)} {rest : List (Exchange (Buffers ℕ))}
    (hfollows : (connect : Code ℕ Unit).Follows (disciplined (byteLink ℕ) (OnConnection k)) [] w)
    (hsock : w.sockOpen = false ∧ (connected k w).sockOpen = true)
    (hrest : Cycles (byteLink ℕ) (k + 1) (connected k w) rest) : Cycles (byteLink ℕ) k w rest := by
  refine .connect (Program.reaches_run hfollows) ?_
  change Cycles _ (if w.sockOpen = false ∧ (connected k w).sockOpen = true then k + 1 else k) _ _
  rw [if_pos hsock]
  exact hrest

/-- A command on a first connection, an answered detach, and a command on a second one. -/
def firstClient : World ℕ (Buffers ℕ) := connected 0 newClient

/-- The answered command. -/
def firstCommand : Exchange (Buffers ℕ) := exchanged 1 (.cmd .whyHalted) (answeredOn 1 []) firstClient

/-- The detach. -/
def firstDetach : Exchange (Buffers ℕ) := exchanged 1 .detach (answeredOn 1 []) firstCommand.after

/-- The command after the second connect. -/
def secondCommand : Exchange (Buffers ℕ) :=
  exchanged 2 (.cmd .whyHalted) (answeredOn 2 []) (connected 1 firstDetach.after)

/-- A command, a detach and a command on the next connection. -/
theorem packets_stay_with_their_connection_twice :
    firstCommand.Current ∧ firstDetach.Current ∧ secondCommand.Current := by
  have hrun : Cycles (byteLink ℕ) 0 newClient [firstCommand, firstDetach, secondCommand] := by
    refine cycles_connected (by decide +kernel) (by decide +kernel) ?_
    refine .call (.cmd .whyHalted) (Program.reaches_run (by decide +kernel)) ?_
    refine .call .detach (Program.reaches_run (by decide +kernel)) ?_
    refine cycles_connected (by decide +kernel) (by decide +kernel) ?_
    exact .call (.cmd .whyHalted) (Program.reaches_run (by decide +kernel)) (.nil _ _)
  have hfirst : firstCommand.EndsEmpty := fun _ hclosed => absurd hclosed (by decide +kernel)
  have hsecond : secondCommand.EndsEmpty := fun _ hclosed => absurd hclosed (by decide +kernel)
  have hdetach : firstDetach.EndsEmpty :=
    fun _ _ => ⟨by decide +kernel, fun hdrains => absurd hdrains (by decide)⟩
  have hcurrent := packets_stay_with_their_connection ⟨rfl, rfl⟩ hrun
    (by simp only [List.forall_mem_cons]; exact ⟨hfirst, hdetach, hsecond, by simp⟩)
  exact ⟨hcurrent _ (by simp), hcurrent _ (by simp), hcurrent _ (by simp)⟩

/-- A command before whose acknowledgement a stop arrives. -/
def overtakenCommand : Exchange (Buffers ℕ) :=
  exchanged 1 (.cmd .whyHalted) (answeredOn 1 [⟨.frame stopBody 1, true⟩]) firstClient

/-- The close that leaves that stop stashed. -/
def staleClose : Exchange (Buffers ℕ) := exchanged 1 .close [] overtakenCommand.after

/-- The wait on the second connection. -/
def staleWait : Exchange (Buffers ℕ) :=
  exchanged 2 (.waitForStop none) [] (connected 1 staleClose.after)

/-- A stop stashed on the first connection is returned on the second one. -/
theorem stashed_stop_outlives_its_connection : Constructed newClient ∧
    Cycles (byteLink ℕ) 0 newClient [overtakenCommand, staleClose, staleWait] ∧
    staleWait.outcome = .ok [framePacket stopBody 1] ∧ staleWait.connection = 2 ∧
    ¬∀ x ∈ [overtakenCommand, staleClose, staleWait], x.Current := by
  have houtcome : staleWait.outcome = .ok [framePacket stopBody 1] := by decide +kernel
  refine ⟨⟨rfl, rfl⟩, ?_, houtcome, rfl, fun hall => ?_⟩
  · refine cycles_connected (by decide +kernel) (by decide +kernel) ?_
    refine .call (.cmd .whyHalted) (Program.reaches_run (by decide +kernel)) ?_
    refine .call .close (Program.reaches_run (by decide +kernel)) ?_
    refine cycles_connected (by decide +kernel) (by decide +kernel) ?_
    exact .call (.waitForStop none) (Program.reaches_run (by decide +kernel)) (.nil _ _)
  · have hcurrent := hall staleWait (by simp) _ houtcome _ (List.mem_singleton_self _)
    have htag : (1 : ℕ) = 2 := hcurrent.1
    omega

end Connections

end DolphinRe.ConnectionCycles
