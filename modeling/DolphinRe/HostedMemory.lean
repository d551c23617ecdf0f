import DolphinRe.MemoryTools
import DolphinRe.MemoryBackends
import DolphinRe.ToolStructure

/-!
# Reads of an unchanging memory

A reader serves a memory when every read inside a region returns the bytes
there. Reads through the attached process do so while it copies what is asked
for. A session without a process goes through the stub, and its packets leave
it without one.
-/

namespace DolphinRe.HostedMemory

open GdbPackets GdbWire GdbTokens EffectProgram SessionMachine GdbClient SessionTools LinkRefinement StubBehaviour
  ToolStructure MemoryWindows MemoryBackends MemoryTools

variable {τ N L C W : Type}

/-- The bytes of a region. -/
def content (memory : ℤ → UInt8) (region : Region) : List UInt8 :=
  window memory (base region) (length region)

/-- Every read inside a region returns the bytes there, and what is assumed stays true. -/
def Serving (M : Machine (signature τ) C W) (I : W → Prop) (memory : ℤ → UInt8) (read : Reader τ) : Prop :=
  ∀ (region : Region) (addr size : ℤ) (w : W), Spans region addr size → I w →
    (read addr size).wp M (fun r v => r = .ok (window memory addr size.toNat) ∧ I v) w

/-- The attached process hands out the bytes of a memory. -/
def Hosts (memory : ℤ → UInt8) : Discipline τ := fun o _ _ answer =>
  match o, answer with
  | .hostRead addr size, r => r = .ok (window memory addr size)
  | _, _ => True

/-- A connected session with the process attached. -/
def Attached (w : World τ L) : Prop := w.state.isConnected = true ∧ w.attached = true

section Readers

variable {link : Link τ N L} {M : Machine (signature τ) (Choice τ N) (World τ L)}

/-- A connected session is left alone. -/
theorem wp_ensureConnected_connected (hM : M.step = World.step link) {w : World τ L}
    (h : w.state.isConnected = true) {Q : Except PyError Unit → World τ L → Prop} (hQ : Q (.ok ()) w) :
    (ensureConnected : Code τ Unit).wp M Q w := by
  unfold ensureConnected
  intro c _
  rw [hM]
  change Program.wp _ (if w.state.isConnected = true then _ else _) _ w
  rw [if_pos h]
  exact hQ

/-- Reads through the attached process serve its memory. -/
theorem serving_hosts (link : Link τ N L) (memory : ℤ → UInt8) :
    Serving (disciplined link (Hosts memory)) Attached memory readMemory := by
  intro region addr size w hspans hw
  obtain ⟨left, hroute⟩ := route_spans hspans
  unfold readMemory
  rw [Program.bind_eq, Program.wp_bind]
  refine wp_ensureConnected_connected rfl hw.1 ?_
  rw [Program.onValue_ok]
  unfold memRead
  intro c _
  change Program.wp _ (if w.attached = true then _ else _) _ w
  rw [if_pos hw.2, hroute]
  intro c' hc'
  have hread : World.hostRead addr size.toNat c' = .ok (window memory addr size.toNat) := hc'.2
  change Program.wp _ (Program.ofExcept (World.hostRead addr size.toNat c')) _ (w.absorb link c'.acts)
  rw [hread, Program.wp_ofExcept]
  refine ⟨rfl, ?_, ?_⟩
  · rw [World.absorb_state]
    exact hw.1
  · rw [World.absorb_attached]
    exact hw.2

/-- Every program has an execution next to such a process. -/
theorem exists_hosted [Inhabited N] (link : Link τ N L) (memory : ℤ → UInt8) {α : Type}
    (p : Program (signature τ) PyError α) (w : World τ L) : ∃ r v, p.Reaches (disciplined link (Hosts memory)) w r v := by
  refine Program.exists_reaches (fun o w => ?_) p w
  cases o with
  | hostRead addr size =>
    let c : Choice τ N := {(default : Choice τ N) with host := some (window memory addr size)}
    have hread : World.hostRead addr size c = .ok (window memory addr size) :=
      if_pos (length_window memory addr size)
    exact ⟨c, trivial, hread⟩
  | _ => exact ⟨default, trivial, trivial⟩

/-- A paused session with the process attached. -/
def attachedWorld : TokenWorld := {pausedWorld with attached := true}

end Readers

section Stub

variable {link : Link τ N L} {M : Machine (signature τ) (Choice τ N) (World τ L)}

/-- A connected session without a process. -/
def Detached (w : World τ L) : Prop := w.state.isConnected = true ∧ w.attached = false

theorem detached_absorb (link : Link τ N L) {w : World τ L} (h : Detached w) (acts : List (StubAct τ)) :
    Detached (w.absorb link acts) := by
  unfold Detached
  rw [World.absorb_state, World.absorb_attached]
  exact h

/-- Commands leave the session connected and detached. -/
theorem keeps_cmd (hM : M.step = World.step link) (command : Command) :
    (cmd command : Code τ (Packet τ)).Keeps M Detached := by
  have hparts := Program.keeps_compositional (ε := PyError) M (Detached (τ := τ) (L := L))
  have hsend : (sendall (.packet command) : Code τ Unit).Keeps M Detached := by
    intro w hw
    rw [wp_sendall, hM]
    intro c _
    have habsorb := detached_absorb link hw c.acts
    change Detached (World.send link (.packet command) c (w.absorb link c.acts)).2
    unfold World.send
    split_ifs <;> exact habsorb
  have hack : (consumeAck : Code τ Unit).Keeps M Detached := by
    intro w hw
    rw [wp_consumeAck, hM]
    intro c _
    have habsorb := detached_absorb link hw c.acts
    change Detached (World.consumeAck link c (w.absorb link c.acts)).2
    unfold World.consumeAck
    split_ifs <;> exact habsorb
  have hread : (readPacketFromWire none : Code τ (Packet τ)).Keeps M Detached := by
    intro w hw
    rw [wp_readPacketFromWire, hM]
    intro c _
    have habsorb := detached_absorb link hw c.acts
    change Detached (World.readPacket link c (w.absorb link c.acts)).2
    unfold World.readPacket
    split_ifs <;> exact habsorb
  exact hparts.bind (hparts.bind hsend fun _ => hack) fun _ => hread

theorem pieces_detached (hM : M.step = World.step link) :
    CommandPieces (τ := τ) (fun _ => True) fun _ p => p.Keeps M Detached :=
  ⟨Program.keeps_compositional M Detached, fun command _ => keeps_cmd hM command⟩

theorem keeps_gdbRead (hM : M.step = World.step link) (addr size : ℤ) :
    (gdbRead addr size : Code τ (List UInt8)).Keeps M Detached := by
  have hpieces := pieces_detached hM
  exact hpieces.parts.bind (hpieces.parts.ofExcept _) fun _ => hpieces.readMem addr size trivial

theorem keeps_gdbWrite (hM : M.step = World.step link) (addr : ℤ) (data : List UInt8) :
    (gdbWrite addr data : Code τ Unit).Keeps M Detached := by
  have hpieces := pieces_detached hM
  exact hpieces.parts.bind (hpieces.parts.ofExcept _) fun _ => hpieces.writeMem addr data trivial

end Stub

end DolphinRe.HostedMemory
