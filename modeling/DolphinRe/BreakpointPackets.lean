import DolphinRe.Footprints
import DolphinRe.PacketNumerals

/-!
# The packets of the breakpoint operations

Ten client operations insert or delete points. Each sends one packet, whose
numeric fields the protocol reads in base sixteen, and the packet denotes the
operation's own point exactly when its size prints alike in both bases.
-/

namespace DolphinRe.BreakpointPackets

open PythonText GdbPackets EffectProgram SessionMachine GdbClient Footprints PacketNumerals

/-- The breakpoint operations of the client. -/
inductive BreakOp where
  | addSwBreakpoint
  | removeSwBreakpoint
  | addHwBreakpoint
  | removeHwBreakpoint
  | addWriteWatchpoint
  | removeWriteWatchpoint
  | addReadWatchpoint
  | removeReadWatchpoint
  | addAccessWatchpoint
  | removeAccessWatchpoint
  deriving DecidableEq, Repr

namespace BreakOp

variable {τ : Type}

/-- What the client runs; the breakpoint operations take no size. -/
def code (addr size : ℤ) : BreakOp → Code τ (Packet τ)
  | addSwBreakpoint => GdbClient.addSwBreakpoint addr
  | removeSwBreakpoint => GdbClient.removeSwBreakpoint addr
  | addHwBreakpoint => GdbClient.addHwBreakpoint addr
  | removeHwBreakpoint => GdbClient.removeHwBreakpoint addr
  | addWriteWatchpoint => GdbClient.addWriteWatchpoint addr size
  | removeWriteWatchpoint => GdbClient.removeWriteWatchpoint addr size
  | addReadWatchpoint => GdbClient.addReadWatchpoint addr size
  | removeReadWatchpoint => GdbClient.removeReadWatchpoint addr size
  | addAccessWatchpoint => GdbClient.addAccessWatchpoint addr size
  | removeAccessWatchpoint => GdbClient.removeAccessWatchpoint addr size

/-- Whether the operation inserts a point. -/
def inserts : BreakOp → Bool
  | addSwBreakpoint => true
  | addHwBreakpoint => true
  | addWriteWatchpoint => true
  | addReadWatchpoint => true
  | addAccessWatchpoint => true
  | _ => false

/-- The kind of the point. -/
def kind : BreakOp → BpKind
  | addSwBreakpoint => .swBp
  | removeSwBreakpoint => .swBp
  | addHwBreakpoint => .hwBp
  | removeHwBreakpoint => .hwBp
  | addWriteWatchpoint => .writeWp
  | removeWriteWatchpoint => .writeWp
  | addReadWatchpoint => .readWp
  | removeReadWatchpoint => .readWp
  | addAccessWatchpoint => .accessWp
  | removeAccessWatchpoint => .accessWp

/-- Whether the caller chooses the size. -/
def sized (op : BreakOp) : Bool :=
  match op.kind with
  | .swBp => false
  | .hwBp => false
  | _ => true

/-- The point the operation is about; breakpoints cover one instruction. -/
def point (op : BreakOp) (addr size : ℤ) : Point := ⟨op.kind, addr, if op.sized then size else 4⟩

/-- Every operation is `_set_break` on its own point. -/
theorem code_eq (op : BreakOp) (addr size : ℤ) :
    (op.code addr size : Code τ (Packet τ)) =
      setBreak op.inserts op.kind (op.point addr size).addr (op.point addr size).size := by
  cases op <;> rfl

end BreakOp

section Packets

variable {τ α : Type}

/-- Accesses that send nothing. -/
def sendless : Op τ → Prop
  | .send _ => False
  | _ => True

/-- A program sends a message first, and no other. -/
def SendsOnly (message : Sent) (p : Code τ α) : Prop :=
  ∃ next, p = .perform (.send message) next ∧ ∀ answer, (next answer).Uses sendless

theorem sendsOnly_setBreak (insert : Bool) (kind : BpKind) (addr size : ℤ) :
    SendsOnly (.packet (.setBreak insert kind addr size))
      (setBreak insert kind addr size : Code τ (Packet τ)) := by
  refine ⟨_, rfl, fun answer => ?_⟩
  have hsent : (Program.ofExcept answer : Code τ Unit).Uses sendless :=
    Program.uses_ofExcept (S := signature τ) _ answer
  have hack : (consumeAck : Code τ Unit).Uses sendless := uses_consumeAck trivial
  have hread : (readPacketFromWire none : Code τ (Packet τ)).Uses sendless :=
    uses_readPacketFromWire trivial
  have hcmd := Program.uses_bind (Program.uses_bind hsent fun _ => hack) fun _ => hread
  refine Program.uses_bind hcmd fun reply => ?_
  split_ifs <;> trivial

/-- The message a program sends first is determined. -/
theorem SendsOnly.unique {message other : Sent} {p : Code τ α} (h : SendsOnly message p)
    (h' : SendsOnly other p) : message = other := by
  obtain ⟨next, hp, -⟩ := h
  obtain ⟨next', hp', -⟩ := h'
  rw [hp] at hp'
  have hop : Op.send message = Op.send other := (Program.perform.inj hp').1
  exact Op.send.inj hop

/-- The operation sends one packet, and by the protocol grammar the packet
inserts or deletes the operation's own point. -/
def Encodes (op : BreakOp) (addr size : ℤ) : Prop :=
  ∃ command, SendsOnly (.packet command) (op.code addr size : Code Unit (Packet Unit)) ∧
    readPoint command.payload = some (op.inserts, op.point addr size)

/-- The packet of an operation. -/
theorem encodes_iff_readPoint (op : BreakOp) (addr size : ℤ) : Encodes op addr size ↔
    readPoint (Command.setBreak op.inserts op.kind (op.point addr size).addr
      (op.point addr size).size).payload = some (op.inserts, op.point addr size) := by
  have hsends : SendsOnly (.packet (.setBreak op.inserts op.kind (op.point addr size).addr
      (op.point addr size).size)) (op.code addr size : Code Unit (Packet Unit)) := by
    rw [op.code_eq]
    exact sendsOnly_setBreak _ _ _ _
  constructor
  · rintro ⟨command, hcommand, hread⟩
    have hsame := Sent.packet.inj (hcommand.unique hsends)
    rw [← hsame]
    exact hread
  · exact fun hread => ⟨_, hsends, hread⟩

/-- For an address and a size of at least one byte, the packet encodes its
arguments exactly when the operation takes no size or the size has one digit. -/
theorem encodes_iff_one_digit (op : BreakOp) (addr : ℕ) (size : ℤ) (hsize : 1 ≤ size) :
    Encodes op addr size ↔ op.sized = false ∨ size < 10 := by
  rw [encodes_iff_readPoint]
  have hpoint : op.point addr size = ⟨op.kind, addr, (op.point addr size).size⟩ := rfl
  have hread := readPoint_payload_iff op.inserts op.kind addr (op.point addr size).size
  rw [← hpoint] at hread
  have haddr : (0 : ℤ) ≤ addr := Int.natCast_nonneg addr
  refine hread.trans ?_
  unfold BreakOp.point
  cases hsized : op.sized with
  | false => simp [haddr]
  | true =>
    simp only [if_true, Bool.true_eq_false, false_or]
    omega

theorem encodes_iff_one_digit_word : Encodes .addWriteWatchpoint (0x80003100 : ℕ) 4 ↔
    BreakOp.addWriteWatchpoint.sized = false ∨ (4 : ℤ) < 10 :=
  encodes_iff_one_digit .addWriteWatchpoint 0x80003100 4 (by decide)

/-- A watchpoint of ten bytes is armed over sixteen. -/
theorem ten_bytes_arm_sixteen : ¬Encodes .addWriteWatchpoint 0x80003100 10 ∧
    readPoint (Command.setBreak true .writeWp 0x80003100 10).payload =
      some (true, ⟨.writeWp, 0x80003100, 16⟩) := by
  have hread : readPoint (Command.setBreak true .writeWp 0x80003100 10).payload =
      some (true, ⟨.writeWp, 0x80003100, 16⟩) := by decide +kernel
  refine ⟨fun h => ?_, hread⟩
  have hown := (encodes_iff_readPoint _ _ _).mp h
  change readPoint (Command.setBreak true .writeWp 0x80003100 10).payload =
    some (true, ⟨.writeWp, 0x80003100, 10⟩) at hown
  rw [hread] at hown
  exact absurd hown (by decide)

end Packets

end DolphinRe.BreakpointPackets
