import DolphinRe.DataReplies
import DolphinRe.HostedMemory
import DolphinRe.WatcherSurvival

/-!
# Reads of exactly the bytes asked for

The attached process reads all bytes asked for or raises. The packet backend
hands on what a reply shows, however much that is. Its reads are exact as long
as every reply taken for data shows as many bytes as were asked for, and then
no tool would notice a check of the length after each read.
-/

namespace DolphinRe.ExactReads

open PythonText GdbPackets GdbWire GdbTokens StopReplies EffectProgram SessionMachine GdbClient SessionTools
  ExecutionTools LinkRefinement StubBehaviour HexNumerals MemoryWindows MemoryBackends DataReplies
  WatcherSurvival MemoryTools Substrings Dictionaries

section Contract

/-- A read raises or returns as many bytes as were asked for. -/
def RaisesOrExact (size : ℤ) (r : Except PyError (List UInt8)) : Prop :=
  ∀ blob, r = .ok blob → (blob.length : ℤ) = size

/-- Number of characters of a reply that are not blanks. -/
def digitCount (text : Str) : ℕ := text.countP fun c => !isAsciiSpace c

/-- A reply that is neither an error nor malformed. -/
def TakenForData (text : Str) : Prop :=
  raiseIfError text [] = .ok () ∧ (fromHex text).isSome = true

/-- To a read that is sent at all, a reply taken for data has two digits for each byte asked for. -/
def Fits (addr size : ℤ) (text : Str) : Prop :=
  (∃ routed, route addr size = .ok routed) → TakenForData text → (digitCount text : ℤ) = 2 * size

/-- Two digits make a byte. -/
theorem digitCount_of_fromHex {text : Str} {blob : List UInt8} (h : fromHex text = some blob) :
    digitCount text = 2 * blob.length := by
  unfold digitCount
  induction text using fromHex.induct generalizing blob with
  | case1 =>
    rw [fromHex, Option.some.injEq] at h
    rw [← h]
    rfl
  | case2 c hspace =>
    rw [fromHex, if_pos hspace, Option.some.injEq] at h
    rw [← h]
    simp [hspace]
  | case3 c hspace =>
    rw [fromHex, if_neg hspace] at h
    exact absurd h (Option.some_ne_none blob).symm
  | case4 c d rest hspace ih =>
    rw [fromHex, if_pos hspace] at h
    rw [List.countP_cons, ih h]
    simp [hspace]
  | case5 c d rest hspace hi lo hlo hhi ih =>
    rw [fromHex, if_neg hspace, hhi, hlo] at h
    obtain ⟨tail, htail, rfl⟩ := Option.map_eq_some_iff.mp h
    have hsecond := not_space_of_hexValue (c := d) (by rw [hlo]; rfl)
    rw [List.countP_cons, List.countP_cons, ih htail]
    simp [hspace, hsecond]
    omega
  | case6 c d rest hspace hnone =>
    rw [fromHex, if_neg hspace] at h
    split at h
    · rename_i hi lo hhi hlo
      exact (hnone hi lo hhi hlo).elim
    · exact absurd h (Option.some_ne_none blob).symm

/-- What is made of a reply does not depend on the request. -/
theorem raiseIfError_context (text context : Str) :
    raiseIfError text context = .ok () ↔ raiseIfError text [] = .ok () := by
  unfold raiseIfError
  cases text with
  | nil => simp
  | cons c rest =>
    dsimp only
    split_ifs
    · simp
    · exact Iff.rfl

/-- A reply is taken for data when it is no error and hexadecimal. -/
theorem dataReply_ok {text context : Str} {blob : List UInt8} :
    dataReply context text = .ok blob ↔ raiseIfError text [] = .ok () ∧ fromHex text = some blob := by
  rw [← raiseIfError_context text context, dataReply, fromHexOrRaise]
  cases raiseIfError text context with
  | error e => simp
  | ok u =>
    cases fromHex text with
    | none => simp
    | some found => simp

/-- A routed read is exact when its reply fits, and only then. -/
theorem exact_iff_fits (addr size : ℤ) (context text : Str) :
    RaisesOrExact size ((route addr size).bind fun _ => dataReply context text) ↔ Fits addr size text := by
  unfold RaisesOrExact Fits
  cases hroute : route addr size with
  | error e =>
    constructor
    · intro _ hsome
      obtain ⟨routed, hrouted⟩ := hsome
      simp at hrouted
    · intro _ blob hblob
      simp [Except.bind] at hblob
  | ok routed =>
    constructor
    · rintro hexact - ⟨herror, hdata⟩
      obtain ⟨blob, hblob⟩ := Option.isSome_iff_exists.mp hdata
      have hlength := hexact blob (dataReply_ok.mpr ⟨herror, hblob⟩)
      have hdigits := digitCount_of_fromHex hblob
      omega
    · intro hfits blob hblob
      obtain ⟨herror, hread⟩ := dataReply_ok.mp hblob
      have hcount := hfits ⟨routed, rfl⟩ ⟨herror, by rw [hread]; rfl⟩
      have hdigits := digitCount_of_fromHex hread
      omega

/-- The attached process is read exactly. -/
theorem attach_exact (backend : AttachBackend) (process : HostProcess) (addr size : ℤ) :
    RaisesOrExact size (backend.read process addr size) := by
  intro blob hblob
  unfold AttachBackend.read AttachBackend.hostAddr at hblob
  cases hroute : route addr size with
  | error e =>
    rw [hroute] at hblob
    simp [bind, Except.bind] at hblob
  | ok routed =>
    have hpositive := (spans_of_route hroute).1.positive
    rw [hroute] at hblob
    have hwindow : ∃ host, blob = window process.bytes host size.toNat := by
      cases hregion : routed.region <;> simp only [hregion, bind, Except.bind, pure, Except.pure] at hblob <;>
        split at hblob
      · exact ⟨_, (Except.ok.inj hblob).symm⟩
      · simp [throw, throwThe, MonadExceptOf.throw] at hblob
      · exact ⟨_, (Except.ok.inj hblob).symm⟩
      · simp [throw, throwThe, MonadExceptOf.throw] at hblob
    obtain ⟨host, rfl⟩ := hwindow
    rw [length_window]
    omega

end Contract

section Replies

variable {τ N L : Type} {link : Link τ N L} {text : Str}

/-- A read decodes the text that it is answered with. -/
theorem wp_gdbRead_answered (addr size : ℤ) (w : World τ L) :
    (gdbRead addr size : Code τ (List UInt8)).wp (disciplined link (answersWith text)) (fun r _ =>
      r = (route addr size).bind fun _ => dataReply (Command.readMem addr size).payload text) w := by
  unfold gdbRead
  rw [Program.bind_eq, Program.wp_bind, Program.wp_ofExcept]
  cases route addr size with
  | error e => rfl
  | ok routed => exact wp_readMem_answered addr size w

/-- Every reply to a memory request fits it. -/
def fittingReplies : Discipline τ := fun o _ w answer =>
  match o, answer with
  | .readPacketFromWire _, r => ∀ addr size packet, lastCommand w.trace = some (.readMem addr size) →
      r = .ok packet → Fits addr size packet.text
  | _, _ => True

variable {M : Machine (signature τ) (Choice τ N) (World τ L)}

/-- A command that went out was sent last. -/
theorem wp_sendall_last (hM : M.step = World.step link) (command : Command) (w : World τ L) :
    (sendall (.packet command) : Code τ Unit).wp M
      (fun r v => r = .ok () → lastCommand v.trace = some command) w := by
  rw [wp_sendall, hM]
  intro c _ hok
  change (World.send link (.packet command) c (w.absorb link c.acts)).1 = .ok () at hok
  change lastCommand (World.send link (.packet command) c (w.absorb link c.acts)).2.trace = some command
  unfold World.send at hok ⊢
  split_ifs at hok ⊢
  simp [World.delivered, lastCommand]

/-- An acknowledgement sends nothing. -/
theorem wp_consumeAck_last (hM : M.step = World.step link) {command : Command} {w : World τ L}
    (hlast : lastCommand w.trace = some command) :
    (consumeAck : Code τ Unit).wp M (fun _ v => lastCommand v.trace = some command) w := by
  rw [wp_consumeAck, hM]
  intro c _
  change lastCommand (World.consumeAck link c (w.absorb link c.acts)).2.trace = some command
  cases hopen : (w.absorb link c.acts).sockOpen with
  | false =>
    rw [World.consumeAck_closed hopen, World.absorb_trace]
    exact hlast
  | true =>
    rw [World.consumeAck_open hopen]
    dsimp only
    rw [World.absorb_trace]
    cases (link.consumeAck c.net (w.absorb link c.acts).link).1 with
    | ok tag => simpa [World.ackEvent, lastCommand] using hlast
    | error e => simpa [World.ackEvent, lastCommand] using hlast

/-- The reply to a memory request fits it. -/
theorem wp_cmd_fitting (addr size : ℤ) (w : World τ L) :
    (cmd (.readMem addr size) : Code τ (Packet τ)).wp (disciplined link fittingReplies)
      (fun r _ => ∀ packet, r = .ok packet → Fits addr size packet.text) w := by
  have hsent : (sendPacket (.readMem addr size) : Code τ Unit).wp (disciplined link fittingReplies)
      (fun r v => r = .ok () → lastCommand v.trace = some (.readMem addr size)) w := by
    unfold sendPacket
    rw [Program.bind_eq, Program.wp_bind]
    refine Program.wp_mono (fun r v hr => ?_) (wp_sendall_last rfl _ w)
    cases r with
    | error e => exact fun hok => by simp at hok
    | ok u =>
      have hack := wp_consumeAck_last (M := disciplined link fittingReplies) rfl (hr rfl)
      rw [Program.onValue_ok]
      refine Program.wp_mono ?_ hack
      exact fun _ _ hlast _ => hlast
  unfold cmd
  rw [Program.bind_eq, Program.wp_bind]
  refine Program.wp_mono (fun r v hr => ?_) hsent
  cases r with
  | error e => exact fun packet hpacket => by simp at hpacket
  | ok u =>
    rw [Program.onValue_ok, wp_readPacketFromWire]
    exact fun c hc packet hpacket => hc.2 addr size packet (hr rfl) hpacket

/-- Reads through the stub are exact. -/
theorem wp_gdbRead_fitting (addr size : ℤ) (w : World τ L) :
    (gdbRead addr size : Code τ (List UInt8)).wp (disciplined link fittingReplies)
      (fun r _ => RaisesOrExact size r) w := by
  unfold gdbRead
  rw [Program.bind_eq, Program.wp_bind, Program.wp_ofExcept]
  cases hroute : route addr size with
  | error e => exact fun blob hblob => by simp at hblob
  | ok routed =>
    change ((cmd (.readMem addr size)).bind fun reply =>
      (Program.ofExcept (raiseIfError reply.text (Command.readMem addr size).payload)).bind fun _ =>
        Program.ofExcept (fromHexOrRaise reply.text) : Code τ (List UInt8)).wp _ _ w
    rw [Program.wp_bind]
    refine Program.wp_mono (fun r v hr => ?_) (wp_cmd_fitting addr size w)
    cases r with
    | error e => exact fun blob hblob => by simp at hblob
    | ok packet =>
      have hexact := (exact_iff_fits addr size (Command.readMem addr size).payload packet.text).mpr
        (hr packet rfl)
      rw [hroute] at hexact
      change RaisesOrExact size (dataReply (Command.readMem addr size).payload packet.text) at hexact
      unfold dataReply at hexact
      rw [Program.onValue_ok, Program.wp_bind, Program.wp_ofExcept]
      cases herror : raiseIfError packet.text (Command.readMem addr size).payload with
      | error e => exact fun blob hblob => by simp at hblob
      | ok u =>
        rw [herror] at hexact
        rw [Program.onValue_ok, Program.wp_ofExcept]
        exact hexact

/-- So are reads of the session, through whichever backend. -/
theorem wp_memRead_fitting (addr size : ℤ) (w : World τ L) :
    (memRead addr size : Code τ (List UInt8)).wp (disciplined link fittingReplies)
      (fun r _ => RaisesOrExact size r) w := by
  unfold memRead
  intro c _
  change Program.wp _ (if w.attached = true then _ else _) _ w
  by_cases hattached : w.attached = true
  · rw [if_pos hattached]
    cases hroute : route addr size with
    | error e => exact fun blob hblob => by simp at hblob
    | ok routed =>
      have hpositive := (spans_of_route hroute).1.positive
      intro c' _
      change Program.wp _ (Program.ofExcept (World.hostRead addr size.toNat c')) _ _
      rw [Program.wp_ofExcept]
      intro blob hblob
      have hlength : blob.length = size.toNat := by
        unfold World.hostRead at hblob
        cases hhost : c'.host with
        | none =>
          rw [hhost] at hblob
          simp at hblob
        | some copied =>
          rw [hhost] at hblob
          dsimp only at hblob
          split_ifs at hblob with hcopied
          rw [← Except.ok.inj hblob]
          exact hcopied
      omega
  · rw [if_neg hattached]
    exact wp_gdbRead_fitting addr size w

end Replies

section Tools

variable {τ N L C W : Type}

/-- A read whose answer is checked for its length. -/
def exactly (read : Reader τ) : Reader τ := fun addr size => do
  let blob ← read addr size
  if (blob.length : ℤ) = size then pure blob
  else throwing (.osError ("read " ++ toString blob.length ++ "/" ++ toString size))

/-- Every read raises or returns as many bytes as were asked for. -/
def Exact (M : Machine (signature τ) C W) (read : Reader τ) : Prop :=
  ∀ addr size w, (read addr size).wp M (fun r _ => RaisesOrExact size r) w

variable {M : Machine (signature τ) C W} {read : Reader τ}

/-- The check never fails. -/
theorem Exact.same (h : Exact M read) (addr size : ℤ) :
    Program.SameRuns M (read addr size) (exactly read addr size) := by
  intro w r v
  have hlength : ∀ blob u, (read addr size).Reaches M w (.ok blob) u → (blob.length : ℤ) = size :=
    fun blob u hreach => Program.reaches_of_wp (h addr size w) hreach blob rfl
  change (read addr size).Reaches M w r v ↔ ((read addr size).bind fun blob =>
    if (blob.length : ℤ) = size then .done blob else throwing _).Reaches M w r v
  rw [Program.reaches_bind]
  constructor
  · intro hreach
    cases r with
    | error e => exact Or.inr ⟨e, hreach, rfl⟩
    | ok blob =>
      refine Or.inl ⟨blob, v, hreach, ?_⟩
      rw [if_pos (hlength blob v hreach)]
      exact ⟨rfl, rfl⟩
  · rintro (⟨blob, u, hreach, hrest⟩ | ⟨e, hreach, rfl⟩)
    · rw [if_pos (hlength blob u hreach)] at hrest
      obtain ⟨rfl, rfl⟩ := hrest
      exact hreach
    · exact hreach

/-- An exact read is checked in vain: of a byte. -/
theorem same_readU8 (h : Exact M read) (addr : ℤ) :
    Program.SameRuns M (readU8 read addr) (readU8 (exactly read) addr) :=
  (h.same addr 1).bind fun _ => Program.sameRuns_refl _

/-- Of a half word. -/
theorem same_readU16 (h : Exact M read) (addr : ℤ) :
    Program.SameRuns M (readU16 read addr) (readU16 (exactly read) addr) :=
  (h.same addr 2).bind fun _ => Program.sameRuns_refl _

/-- Of a word. -/
theorem same_readU32 (h : Exact M read) (addr : ℤ) :
    Program.SameRuns M (readU32 read addr) (readU32 (exactly read) addr) :=
  (h.same addr 4).bind fun _ => Program.sameRuns_refl _

/-- Of a signed word. -/
theorem same_readS32 (h : Exact M read) (addr : ℤ) :
    Program.SameRuns M (readS32 read addr) (readS32 (exactly read) addr) :=
  (h.same addr 4).bind fun _ => Program.sameRuns_refl _

/-- Of a field. -/
theorem same_readKind (h : Exact M read) (name : Str) (ea : ℤ) (kind : FieldKind) :
    Program.SameRuns M (readKind read name ea kind) (readKind (exactly read) name ea kind) := by
  cases kind with
  | u8 => exact (same_readU8 h ea).bind fun _ => Program.sameRuns_refl _
  | u16 => exact (same_readU16 h ea).bind fun _ => Program.sameRuns_refl _
  | u32 => exact (same_readU32 h ea).bind fun _ => Program.sameRuns_refl _
  | s32 => exact (same_readS32 h ea).bind fun _ => Program.sameRuns_refl _
  | f32 =>
    have hblob : Program.SameRuns M (readF32 read ea) (readF32 (exactly read) ea) :=
      (h.same ea 4).bind fun _ => Program.sameRuns_refl _
    exact hblob.bind fun _ => Program.sameRuns_refl _
  | f64 =>
    have hblob : Program.SameRuns M (readF64 read ea) (readF64 (exactly read) ea) :=
      (h.same ea 8).bind fun _ => Program.sameRuns_refl _
    exact hblob.bind fun _ => Program.sameRuns_refl _
  | bytes count => exact (h.same ea count).bind fun _ => Program.sameRuns_refl _
  | unsupported shown => exact Program.sameRuns_refl _

/-- Of a layout. -/
theorem same_readStruct (h : Exact M read) (addr : ℤ) (layout : List LayoutEntry) :
    Program.SameRuns M (readStruct read addr layout) (readStruct (exactly read) addr layout) := by
  unfold readStruct
  generalize ([] : List (Str × FieldValue)) = out
  induction layout generalizing out with
  | nil => exact Program.sameRuns_refl _
  | cons entry layout ih =>
    cases entry with
    | field name kind off => exact (same_readKind h name (addr + off) kind).bind fun _ => ih _
    | malformed shown => exact Program.sameRuns_refl _

/-- Of the chunks of a search. -/
theorem same_searchChunks (h : Exact M read) (base : ℤ) (size : ℕ) (pat : List UInt8) (cursor : ℕ)
    (tail : List UInt8) (hits : List ℤ) :
    Program.SameRuns M (searchChunks read base size pat cursor tail hits)
      (searchChunks (exactly read) base size pat cursor tail hits) := by
  generalize hleft : size - cursor = left
  induction left using Nat.strongRecOn generalizing cursor tail hits with
  | _ left ih =>
    have hchunk : 0 < CHUNK := by decide
    rw [searchChunks, searchChunks]
    by_cases hmore : cursor < size
    · rw [if_pos hmore, if_pos hmore]
      refine (h.same (base + cursor) _).bind fun chunk => ?_
      exact ih (size - (cursor + min CHUNK (size - cursor))) (by omega) _ _ _ rfl
    · rw [if_neg hmore, if_neg hmore]
      exact Program.sameRuns_refl _

/-- Of a region. -/
theorem same_searchMem (h : Exact M read) (patternHex region : Str) :
    Program.SameRuns M (searchMem read patternHex region) (searchMem (exactly read) patternHex region) := by
  refine Program.SameRuns.bind (Program.sameRuns_refl _) fun pat => ?_
  by_cases hempty : pat = []
  · rw [if_pos hempty, if_pos hempty]
    exact Program.sameRuns_refl _
  · rw [if_neg hempty, if_neg hempty]
    refine Program.SameRuns.bind (Program.sameRuns_refl _) fun found => ?_
    exact same_searchChunks h found.1 found.2 pat 0 [] []

/-- The loop of `get_stack` over any reader. -/
def walkStackOver (read : Reader τ) : ℕ → ℕ → List (ℕ × ℕ) → Code τ (List (ℕ × ℕ))
  | 0, _, out => pure out
  | n + 1, sp, out =>
    if sp = 0 then pure out
    else do
      match ← (read sp 8).attempt with
      | .error _ => pure out
      | .ok blob =>
        let prevSp := fromBytesBig (blob.take 4)
        let savedLr := fromBytesBig ((blob.drop 4).take 4)
        if prevSp ≤ sp then pure (out ++ [(sp, savedLr)])
        else walkStackOver read n prevSp (out ++ [(sp, savedLr)])

/-- `get_stack` over any reader. -/
def getStackOver (read : Reader τ) (depth : ℤ) : Code τ (List (ℕ × ℕ)) := do
  ensureConnected
  let gprs ← getGprs
  walkStackOver read depth.toNat ((gprs[1]?).getD 0) []

/-- Over the session's reads this is the walk of the tool. -/
theorem walkStackOver_memRead (n sp : ℕ) (out : List (ℕ × ℕ)) :
    (walkStackOver memRead n sp out : Code τ _) = walkStack n sp out := by
  induction n generalizing sp out with
  | zero => rfl
  | succ n ih =>
    have hrest : walkStackOver memRead n = (walkStack n : ℕ → List (ℕ × ℕ) → Code τ (List (ℕ × ℕ))) :=
      funext fun sp => funext fun out => ih sp out
    rw [walkStackOver, walkStack]
    exact hrest ▸ rfl

/-- And this is the tool. -/
theorem getStackOver_memRead (depth : ℤ) : (getStackOver memRead depth : Code τ _) = getStack depth := by
  unfold getStackOver getStack
  simp only [walkStackOver_memRead]

/-- Of the frames of a stack. -/
theorem same_walkStackOver (h : Exact M read) (n sp : ℕ) (out : List (ℕ × ℕ)) :
    Program.SameRuns M (walkStackOver read n sp out) (walkStackOver (exactly read) n sp out) := by
  induction n generalizing sp out with
  | zero => exact Program.sameRuns_refl _
  | succ n ih =>
    unfold walkStackOver
    by_cases hzero : sp = 0
    · rw [if_pos hzero, if_pos hzero]
      exact Program.sameRuns_refl _
    · rw [if_neg hzero, if_neg hzero]
      refine (h.same sp 8).attempt.bind fun outcome => ?_
      cases outcome with
      | error e => exact Program.sameRuns_refl _
      | ok blob =>
        dsimp only
        split_ifs
        · exact Program.sameRuns_refl _
        · exact ih _ _

/-- A check of the length after each read changes no execution of a memory tool: what it decodes
has its full width. -/
structure Checked (M : Machine (signature τ) C W) : Prop where
  /-- Reads of a byte. -/
  u8 : ∀ addr, Program.SameRuns M (readU8 readMemory addr) (readU8 (exactly readMemory) addr)
  /-- Reads of a half word. -/
  u16 : ∀ addr, Program.SameRuns M (readU16 readMemory addr) (readU16 (exactly readMemory) addr)
  /-- Reads of a word. -/
  u32 : ∀ addr, Program.SameRuns M (readU32 readMemory addr) (readU32 (exactly readMemory) addr)
  /-- Reads of a signed word. -/
  s32 : ∀ addr, Program.SameRuns M (readS32 readMemory addr) (readS32 (exactly readMemory) addr)
  /-- Reads of the fields of a layout. -/
  struct : ∀ addr layout, Program.SameRuns M (readStruct readMemory addr layout)
    (readStruct (exactly readMemory) addr layout)
  /-- Searches of a region. -/
  search : ∀ patternHex region, Program.SameRuns M (searchMem readMemory patternHex region)
    (searchMem (exactly readMemory) patternHex region)
  /-- Walks over the stack. -/
  stack : ∀ depth, Program.SameRuns M (getStack depth) (getStackOver (exactly memRead) depth)

/-- Where reads are exact, no tool needs a check. -/
theorem checked_of_exact (hread : Exact M readMemory) (hmem : Exact M memRead) : Checked M where
  u8 := same_readU8 hread
  u16 := same_readU16 hread
  u32 := same_readU32 hread
  s32 := same_readS32 hread
  struct := same_readStruct hread
  search := same_searchMem hread
  stack depth := by
    rw [← getStackOver_memRead]
    refine Program.SameRuns.bind (Program.sameRuns_refl _) fun _ => ?_
    exact Program.SameRuns.bind (Program.sameRuns_refl _) fun _ => same_walkStackOver hmem _ _ _

end Tools

section Main

variable {τ N L : Type} {link : Link τ N L}

/-- With fitting replies the session's reads are exact. -/
theorem exact_memRead (link : Link τ N L) : Exact (disciplined link fittingReplies) (memRead (τ := τ)) :=
  wp_memRead_fitting

/-- So are those of the memory tools. -/
theorem exact_readMemory (link : Link τ N L) :
    Exact (disciplined link fittingReplies) (readMemory (τ := τ)) := by
  intro addr size w
  refine Program.wp_bind_last (fun e v blob hblob => by simp at hblob) (fun _ v => ?_) w
  exact wp_memRead_fitting addr size v

/-- A read through the stub is exact when the reply fits, and only then, while reads of the
attached process are always exact; where every reply to a memory request fits, no memory tool
decodes anything shorter or longer than what it asked for. -/
theorem gdbRead_exact_iff_fits (link : Link τ N L) (w : World τ L) :
    (∀ addr size text r v, (gdbRead addr size).Reaches (disciplined link (answersWith text)) w r v →
      (RaisesOrExact size r ↔ Fits addr size text)) ∧
    (∀ backend process addr size, RaisesOrExact size (AttachBackend.read backend process addr size)) ∧
    Checked (disciplined link fittingReplies) := by
  refine ⟨fun addr size text r v hreach => ?_, attach_exact, ?_⟩
  · rw [Program.reaches_of_wp (wp_gdbRead_answered addr size w) hreach]
    exact exact_iff_fits addr size _ text
  · exact checked_of_exact (exact_readMemory link) (exact_memRead link)

end Main

section Samples

/-- Two bytes in reply to a request for four: the read returns them, and `read_u32` decodes them. -/
theorem short_reply_is_decoded :
    (∃ v, (gdbRead 0x80000000 4).Reaches (disciplined (tokenLink Origin) (answersWith "0102".toList))
      pausedWorld (.ok [1, 2]) v) ∧
    ¬RaisesOrExact 4 (.ok [1, 2]) ∧
    ∃ v, (readU32 readMemory 0x80000000).Reaches
      (disciplined (tokenLink Origin) (answersWith "0102".toList)) pausedWorld (.ok 0x0102) v := by
  refine ⟨⟨((gdbRead 0x80000000 4).run (disciplined (tokenLink Origin) (answersWith "0102".toList))
      (answeredWith ⟨asciiBytes "0102".toList, by decide⟩) pausedWorld).2.1, ?_⟩, ?_,
    ⟨((readU32 readMemory 0x80000000).run
      (disciplined (tokenLink Origin) (answersWith "0102".toList))
      (answeredWith ⟨asciiBytes "0102".toList, by decide⟩) pausedWorld).2.1, ?_⟩⟩
  · exact Program.reaches_along (by decide +kernel) (by decide +kernel)
  · intro hexact
    exact absurd (hexact [1, 2] rfl) (by decide)
  · exact Program.reaches_along (by decide +kernel) (by decide +kernel)

end Samples

end DolphinRe.ExactReads
