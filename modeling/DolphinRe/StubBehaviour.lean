import DolphinRe.LinkRefinement

/-!
# Provenance of what the stub sends

Statements about pairing tag everything the stub sends with where it comes
from: the command it answers, or the stop it reports. Over the token link the
two readers are then described by the position of the first acknowledgement
and of the first frame.
-/

namespace DolphinRe.StubBehaviour

open GdbPackets GdbWire GdbTokens EffectProgram SessionMachine GdbClient LinkRefinement

/-- Why the target stopped. -/
inductive Cause where
  | interrupt
  | stepped
  | hit (point : Point)
  deriving DecidableEq, Repr

/-- Where a token comes from. -/
inductive Origin where
  /-- Acknowledgement of, or reply to, the command of that number. -/
  | reply (command : ℕ)
  /-- A stop, numbered by the stub. -/
  | stop (number : ℕ) (cause : Cause)
  deriving DecidableEq, Repr

/-- Whether a tag is that of a stop. -/
def Origin.isStop : Origin → Bool
  | .stop _ _ => true
  | .reply _ => false

/-- Tokens of the client's connection, tagged by origin. -/
abbrev Tokens := List (Token Origin)

/-- The world over the token link. -/
abbrev TokenWorld := World Origin Tokens

/-- A paused session with nothing in flight. -/
def freshWorld {L : Type} (unread : L) : World Origin L :=
  ⟨.connectedPaused, false, true, [], 1, none, true, 5000, [], unread, false, [], 0, [], [], []⟩

/-- The same over tokens. -/
def pausedWorld : TokenWorld := freshWorld []

/-- A session that has never been connected. -/
def unconnectedWorld : TokenWorld := {pausedWorld with state := .disconnected, sockOpen := false}

/-- A host without filters and without a disassembler. -/
def plainHost : SessionTools.Host := ⟨fun _ _ => true, fun _ _ => .ok []⟩

/-- The payload of a stop reply. -/
def stopBody : Body := ⟨asciiBytes "T05".toList, by decide⟩

/-- The payload of the reply to the heartbeat. -/
def threadBody : Body := ⟨asciiBytes "QC1".toList, by decide⟩

/-- The payload `OK`. -/
def okBody : Body := ⟨asciiBytes "OK".toList, by decide⟩

/-- A framed stop reply. -/
def isStopFrame : Token Origin → Bool
  | .frame _ (.stop _ _) => true
  | _ => false

/-- A read ends well or times out. -/
def onlyTimesOut {α : Type} : Except PyError α → Bool
  | .ok _ => true
  | .error e => isTimeout e

/-- The stop replies among tokens, as packets. -/
def stopPackets (tokens : Tokens) : List (Packet Origin) :=
  tokens.filterMap fun
    | .frame body (.stop n cause) => some (framePacket body (.stop n cause))
    | _ => none

/-- The command replies among tokens, as packets. -/
def replyPackets (tokens : Tokens) : List (Packet Origin) :=
  tokens.filterMap fun
    | .frame body (.reply n) => some (framePacket body (.reply n))
    | _ => none

@[simp] theorem stopPackets_append (ts us : Tokens) :
    stopPackets (ts ++ us) = stopPackets ts ++ stopPackets us :=
  List.filterMap_append

@[simp] theorem replyPackets_append (ts us : Tokens) :
    replyPackets (ts ++ us) = replyPackets ts ++ replyPackets us :=
  List.filterMap_append

@[simp] theorem stopPackets_nil : stopPackets [] = [] := rfl

@[simp] theorem replyPackets_nil : replyPackets [] = [] := rfl

/-- Stop frames hold no command reply. -/
theorem replyPackets_of_stops {ts : Tokens} (h : ∀ t ∈ ts, isStopFrame t = true) :
    replyPackets ts = [] := by
  refine List.filterMap_eq_nil_iff.mpr fun t ht => ?_
  have hstop := h t ht
  cases t with
  | frame body tag => cases tag <;> simp_all [isStopFrame]
  | ack tag => rfl
  | stray byte tag => rfl

/-- Through stop frames, an acknowledgement read either reaches the next
acknowledgement and stashes every stop before it, or fails. -/
theorem takeAck_through_stops {before : Tokens} (h : ∀ t ∈ before, isStopFrame t = true)
    (ending : Ending) (arrived : Option ℕ) (fails : List Bool) (tag : Origin) (rest : Tokens) :
    takeAck ending arrived fails (before ++ .ack tag :: rest) = (.ok tag, stopPackets before, rest) ∨
      ∃ e, (takeAck ending arrived fails (before ++ .ack tag :: rest)).1 = .error e := by
  induction before generalizing arrived fails with
  | nil =>
    by_cases harrived : arrived = some 0
    · exact Or.inr ⟨ending.error, by simp [takeAck, harrived]⟩
    · exact Or.inl (by simp [takeAck, harrived])
  | cons t before ih =>
    have hstop := h t List.mem_cons_self
    cases t with
    | ack tag => simp [isStopFrame] at hstop
    | stray byte tag => simp [isStopFrame] at hstop
    | frame body origin =>
      cases origin with
      | reply n => simp [isStopFrame] at hstop
      | stop n cause =>
        by_cases harrived : arrived = some 0
        · exact Or.inr ⟨ending.error, by simp [takeAck, harrived]⟩
        · by_cases hfails : fails.headD false = true
          · exact Or.inr ⟨.connectionLost "ack send failed", by
              rw [List.cons_append, takeAck, if_neg harrived]
              dsimp only
              rw [if_pos hfails]⟩
          · have hrest := ih (fun u hu => h u (List.mem_cons_of_mem _ hu))
              (arrived.map (· - 1)) fails.tail
            rw [List.cons_append, takeAck, if_neg harrived]
            dsimp only
            rw [if_neg hfails]
            rcases hrest with hok | ⟨e, herror⟩
            · left
              rw [hok]
              rfl
            · right
              exact ⟨e, herror⟩

/-- A frame at the head is the packet read, or the read fails. -/
theorem takeFrame_head (net : TokenNet) (body : Body) (tag : Origin) (rest : Tokens) :
    takeFrame net (.frame body tag :: rest) = (.ok (framePacket body tag), rest) ∨
      ∃ e, (takeFrame net (.frame body tag :: rest)).1 = .error e := by
  unfold takeFrame firstFrame
  by_cases harrived : net.arrived = some 0
  · exact Or.inr ⟨net.ending.error, by rw [if_pos harrived]⟩
  · rw [if_neg harrived]
    dsimp only
    by_cases hfails : net.ackFails.headD false = true
    · exact Or.inr ⟨.connectionLost "ack send failed", by rw [if_pos hfails]⟩
    · exact Or.inl (by rw [if_neg hfails])

/-- Without unread tokens a packet read fails. -/
theorem takeFrame_nil (net : TokenNet) : ∃ e, (takeFrame net ([] : Tokens)).1 = .error e :=
  ⟨net.ending.error, rfl⟩

/-- A packet read that times out leaves every token in place. -/
theorem takeFrame_timeout (net : TokenNet) (tokens : Tokens) {e : PyError}
    (h : (takeFrame net tokens).1 = .error e) (ht : isTimeout e = true) :
    (takeFrame net tokens).2 = tokens := by
  unfold takeFrame at h ⊢
  split at h
  · rename_i hnone
    simp only [Except.error.injEq] at h
    subst h
    cases hending : net.ending with
    | timeout => rfl
    | reset => simp [hending, Ending.error, connectionReset, isTimeout] at ht
    | lost message => simp [hending, Ending.error, isTimeout] at ht
  · split_ifs at h with hfails
    · simp only [Except.error.injEq] at h
      subst h
      simp [isTimeout] at ht

end DolphinRe.StubBehaviour
