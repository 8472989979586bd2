import QuicNfs.Transport.QuicClient

/-!
# QuicNfs — the invariant of the QUIC client

A stream belongs to one call at a time, from its allocation to its release, and is
empty when it changes hands: the reply of the last call was read to its end before
that call returned.

* `Exchange` — where the exchange of call and reply on a stream stands;
* `QuicClient.Inv` — the flags of the pool, the queue, the list of contexts and the
  contents of the streams fit together;
* `QuicClient.Inv.frame` — what has to be checked for a step that changes one call.
-/

namespace QuicNfs.Transport

open Kernel Lib RecordMarkingReceivingContext Function

variable {Conn Msg : Type}

/-! ## Where an exchange stands -/

namespace Point

def Unfinished : Point Msg → Prop
  | returned _ => False
  | _ => True

/-- The context of the call is in the list. -/
def Registered : Point Msg → Prop
  | awaitsReply | decoded _ => True
  | _ => False

/-- The reply was decoded. -/
def Answered : Point Msg → Prop
  | decoded _ | removed _ => True
  | _ => False

def result : Point Msg → Option Msg
  | decoded r | removed r | returned r => r
  | _ => none

theorem Registered.unfinished {point : Point Msg} (h : point.Registered) : point.Unfinished := by
  cases point with
  | returned _ => exact h
  | _ => trivial

end Point

/-- The call has the stream and has not returned. -/
def ClientCall.Holds (call : ClientCall Conn Msg) (streamId : Nat) : Prop :=
  call.context.allocatedStream = some streamId ∧ call.point.Unfinished

/-- The receiving context of the call, or the one it would get. -/
def ClientCall.receiving (call : ClientCall Conn Msg) (conn : Conn) (streamId : Nat) :
    RecordMarkingReceivingContext Conn :=
  call.context.rmReceivingContext.getD (createRmReceivingContext conn streamId)

/-- Where the exchange of a call stands, and what is on its stream. -/
inductive Exchange (conn : Conn) (c streamId : Nat) (call : ClientCall Conn Msg) : Line → Prop
  /-- Nothing was sent, or nothing that the server could answer. -/
  | quiet (hReply : call.reply = none)
      (hFresh : call.receiving conn streamId = createRmReceivingContext conn streamId)
      (hFinished : call.context.finished = false) :
      Exchange conn c streamId call {}
  | asked (hSent : call.context.callRpcMsgSuccessfullySent = true) (hReply : call.reply = none)
      (hFresh : call.receiving conn streamId = createRmReceivingContext conn streamId)
      (hFinished : call.context.finished = false) :
      Exchange conn c streamId call { unanswered := [c] }
  /-- Part of the reply may have been read. -/
  | replied {record incoming : Bytes} (hSent : call.context.callRpcMsgSuccessfullySent = true)
      (hReply : call.reply = some record)
      (hAwaits : Awaits (call.receiving conn streamId) incoming record)
      (hFinished : call.context.finished = false) :
      Exchange conn c streamId call { incoming }
  | complete {record : Bytes} {rm : RecordMarkingReceivingContext Conn}
      (hSent : call.context.callRpcMsgSuccessfullySent = true)
      (hReply : call.reply = some record)
      (hReceived : call.context.replyRpcMsgSuccessfullyReceived = true)
      (hContext : call.context.rmReceivingContext = some rm) (hCompleted : Completed rm record)
      (hFinished : call.context.finished = true) :
      Exchange conn c streamId call {}

/-- Only the context and the reply matter. -/
theorem Exchange.congr {conn : Conn} {c streamId : Nat} {call call' : ClientCall Conn Msg}
    {line : Line} (h : Exchange conn c streamId call line) (hContext : call'.context = call.context)
    (hReply : call'.reply = call.reply) : Exchange conn c streamId call' line := by
  have hReceiving : call'.receiving conn streamId = call.receiving conn streamId := by
    rw [ClientCall.receiving, ClientCall.receiving, hContext]
  cases h with
  | quiet hReply₀ hFresh hFinished =>
    exact .quiet (hReply.trans hReply₀) (hReceiving.trans hFresh) (hContext ▸ hFinished)
  | asked hSent hReply₀ hFresh hFinished =>
    exact .asked (hContext ▸ hSent) (hReply.trans hReply₀) (hReceiving.trans hFresh)
      (hContext ▸ hFinished)
  | replied hSent hReply₀ hAwaits hFinished =>
    exact .replied (hContext ▸ hSent) (hReply.trans hReply₀) (hReceiving ▸ hAwaits)
      (hContext ▸ hFinished)
  | complete hSent hReply₀ hReceived hRm hCompleted hFinished =>
    exact .complete (hContext ▸ hSent) (hReply.trans hReply₀) (hContext ▸ hReceived)
      (hContext ▸ hRm) hCompleted (hContext ▸ hFinished)

/-- A finished exchange leaves nothing on the stream. -/
theorem Exchange.line_of_finished {conn : Conn} {c streamId : Nat} {call : ClientCall Conn Msg}
    {line : Line} (h : Exchange conn c streamId call line)
    (hFinished : call.context.finished = true) : line = {} := by
  cases h with
  | quiet | complete => rfl
  | asked _ _ _ hNot => rw [hFinished] at hNot; cases hNot
  | replied _ _ _ hNot => rw [hFinished] at hNot; cases hNot

/-! ## The invariant -/

namespace QuicClient

def InUse (client : QuicClient Conn Msg) (streamId : Nat) : Prop :=
  ∃ stream ∈ client.auxiliaryStreams, stream.id = streamId ∧ stream.streamInUse = true

def HeldBy (client : QuicClient Conn Msg) (c streamId : Nat) : Prop :=
  ∃ call, client.calls c = some call ∧ call.Holds streamId

/-- A call fits the rest of the state. -/
structure CallOk (deserialize : Bytes → Option Msg) (client : QuicClient Conn Msg) (c : Nat)
    (call : ClientCall Conn Msg) : Prop where
  auxiliary : call.context.useAuxiliaryStream = true
  queued : c ∈ client.streamAllocationQueue ↔
    call.point = .awaitsStream ∧ call.context.streamAllocationFinished = false
  registered : c ∈ client.streamContexts ↔ call.point.Registered
  unallocated : call.context.streamAllocationFinished = false → call.context.allocatedStream = none
  allocated : call.context.allocatedStream.isSome = call.context.successfullyAllocatedStream
  hasStream : call.point.Registered → call.context.allocatedStream.isSome
  untouched : call.context.allocatedStream = none → call.reply = none ∧
    call.context.rmReceivingContext = none ∧ call.context.finished = false
  held {streamId} : call.Holds streamId → client.InUse streamId
  exchange {streamId} : call.Holds streamId →
    Exchange client.quicConnection c streamId call (client.lines streamId)
  /-- Nothing was sent, or the record of the call, once and on its stream. -/
  sends : (call.context.attemptedCallRpcMsgSend = false ∧
      call.context.callRpcMsgSuccessfullySent = false ∧ call.sends = []) ∨
    (call.context.attemptedCallRpcMsgSend = true ∧ ∃ streamId,
      call.context.allocatedStream = some streamId ∧
        call.sends = [(streamId, call.context.callRpcMsg)])
  finished : call.point.Answered → call.context.finished = true
  result {m} : call.point.result = some m →
    ∃ record, call.reply = some record ∧ deserialize record = some m

structure Inv (deserialize : Bytes → Option Msg) (client : QuicClient Conn Msg) : Prop where
  /-- The event loop thread has not died in a callback. -/
  unlocked : client.streamContextsListLocked = false
  ids : (client.auxiliaryStreams.map Stream.id).Nodup
  count : client.auxiliaryStreams.length ≤ MAX_STREAMS_PER_CONNECTION
  queue : client.streamAllocationQueue.Nodup
  contexts : client.streamContexts.Nodup
  known {c} : c ∈ client.streamAllocationQueue ∨ c ∈ client.streamContexts → (client.calls c).isSome
  ok {c call} : client.calls c = some call → CallOk deserialize client c call
  /-- A stream has one holder at most. -/
  unique {c c' streamId} : client.HeldBy c streamId → client.HeldBy c' streamId → c = c'
  /-- A stream without a holder is empty. -/
  empty {streamId} : (∀ c, ¬client.HeldBy c streamId) → client.lines streamId = {}

section Holders

variable {deserialize : Bytes → Option Msg} {client : QuicClient Conn Msg} {c streamId : Nat}
  {call : ClientCall Conn Msg}

theorem heldBy_iff (hCall : client.calls c = some call) :
    client.HeldBy c streamId ↔ call.Holds streamId := by
  simp [HeldBy, hCall]

theorem CallOk.unqueued (h : CallOk deserialize client c call)
    (hPoint : call.point ≠ .awaitsStream) : c ∉ client.streamAllocationQueue :=
  fun hMem => hPoint (h.queued.mp hMem).1

end Holders

/-- A step that changes one call, and nothing that concerns the others. -/
structure Frame (client client' : QuicClient Conn Msg) (c : Nat) (call : ClientCall Conn Msg) :
    Prop where
  connection : client'.quicConnection = client.quicConnection
  lock : client'.streamContextsListLocked = client.streamContextsListLocked
  calls : client'.calls = Function.update client.calls c (some call)
  queue {c'} : c' ≠ c → (c' ∈ client'.streamAllocationQueue ↔ c' ∈ client.streamAllocationQueue)
  contexts {c'} : c' ≠ c → (c' ∈ client'.streamContexts ↔ c' ∈ client.streamContexts)
  inUse {streamId} : client.InUse streamId → ¬client.HeldBy c streamId → client'.InUse streamId
  lines {streamId} : ¬call.Holds streamId → client'.lines streamId = client.lines streamId
  /-- A stream is taken only if nobody holds it, … -/
  taken {streamId} : call.Holds streamId →
    client.HeldBy c streamId ∨ ∀ c', ¬client.HeldBy c' streamId
  /-- … and given back empty. -/
  given {streamId} : client.HeldBy c streamId → ¬call.Holds streamId → client.lines streamId = {}

section Frame

variable {deserialize : Bytes → Option Msg} {client client' : QuicClient Conn Msg} {c : Nat}
  {call : ClientCall Conn Msg}

theorem Frame.heldBy_self (h : Frame client client' c call) {streamId : Nat} :
    client'.HeldBy c streamId ↔ call.Holds streamId := by
  unfold HeldBy
  rw [h.calls, update_self]
  simp

theorem Frame.heldBy_other (h : Frame client client' c call) {c' streamId : Nat} (hne : c' ≠ c) :
    client'.HeldBy c' streamId ↔ client.HeldBy c' streamId := by
  unfold HeldBy
  rw [h.calls, update_of_ne hne]

/-- The invariant only has to be checked for what the step changes. -/
theorem Inv.frame (h : Inv deserialize client) (hFrame : Frame client client' c call)
    (hOk : CallOk deserialize client' c call)
    (hIds : (client'.auxiliaryStreams.map Stream.id).Nodup)
    (hCount : client'.auxiliaryStreams.length ≤ MAX_STREAMS_PER_CONNECTION)
    (hQueue : client'.streamAllocationQueue.Nodup) (hContexts : client'.streamContexts.Nodup) :
    Inv deserialize client' := by
  -- a stream of another call is not the changed one's
  have hApart : ∀ {c' streamId}, c' ≠ c → client.HeldBy c' streamId → ¬call.Holds streamId := by
    intro c' streamId hne hOther hHolds
    rcases hFrame.taken hHolds with hSame | hNobody
    · exact hne (h.unique hOther hSame)
    · exact hNobody c' hOther
  refine ⟨hFrame.lock.trans h.unlocked, hIds, hCount, hQueue, hContexts, ?_, ?_, ?_, ?_⟩
  · intro c' hMem
    rw [hFrame.calls]
    by_cases hne : c' = c
    · subst hne
      rw [update_self]
      rfl
    · rw [update_of_ne hne]
      rw [hFrame.queue hne, hFrame.contexts hne] at hMem
      exact h.known hMem
  · intro c' call' hCall'
    rw [hFrame.calls] at hCall'
    by_cases hne : c' = c
    · subst hne
      rw [update_self] at hCall'
      cases hCall'
      exact hOk
    · rw [update_of_ne hne] at hCall'
      have hOther := h.ok hCall'
      refine { hOther with
        queued := (hFrame.queue hne).trans hOther.queued
        registered := (hFrame.contexts hne).trans hOther.registered
        held := fun hHolds => ?_
        exchange := fun hHolds => ?_ }
      · refine hFrame.inUse (hOther.held hHolds) fun hSame => hne ?_
        exact h.unique ⟨call', hCall', hHolds⟩ hSame
      · rw [hFrame.connection, hFrame.lines (hApart hne ⟨call', hCall', hHolds⟩)]
        exact hOther.exchange hHolds
  · intro c₁ c₂ streamId h₁ h₂
    by_cases hne₁ : c₁ = c <;> by_cases hne₂ : c₂ = c
    · rw [hne₁, hne₂]
    · subst hne₁
      exact absurd (hFrame.heldBy_self.mp h₁) (hApart hne₂ ((hFrame.heldBy_other hne₂).mp h₂))
    · subst hne₂
      exact absurd (hFrame.heldBy_self.mp h₂) (hApart hne₁ ((hFrame.heldBy_other hne₁).mp h₁))
    · exact h.unique ((hFrame.heldBy_other hne₁).mp h₁) ((hFrame.heldBy_other hne₂).mp h₂)
  · intro streamId hNobody
    have hNot : ¬call.Holds streamId := fun hHolds => hNobody c (hFrame.heldBy_self.mpr hHolds)
    rw [hFrame.lines hNot]
    by_cases hBefore : client.HeldBy c streamId
    · exact hFrame.given hBefore hNot
    · refine h.empty fun c' hHeld => ?_
      by_cases hne : c' = c
      · subst hne
        exact hBefore hHeld
      · exact hNobody c' ((hFrame.heldBy_other hne).mpr hHeld)

end Frame

end QuicClient

end QuicNfs.Transport
