import QuicNfs.Transport.ClientSteps

/-!
# QuicNfs — are failed QUIC calls reported?

The thread of a call waits in `wait_for_rpc_reply` until its context is finished. The
callbacks give up on a call when its reply cannot be received, and when it cannot be
sent. `client_on_stream_writable` does not set `finished` then; and every callback that
gives up ends the event loop thread, on which it runs itself, with the mutex locked that
the thread of the call needs to return.

* `QuicClient.givesUp` — the call that a callback gives up on;
* `FailuresReported` — no callback of a run leaves a call that it gave up on, or that
  it failed to send, to wait;
* `Abandoned`, `abandoned_acts` — without the event loop thread no call returns;
* `quic_failures_reported_iff` — a run reports its failures exactly if no callback gives
  up on a call that waits;
* `quic_failure_unreported` — a send and a read that fail, and calls that wait for ever.
-/

namespace QuicNfs.Transport

open Kernel Lib RecordMarkingReceivingContext Option Function

variable {Conn Msg : Type}

namespace QuicClient

variable {client client' : QuicClient Conn Msg} {c : Nat} {call : ClientCall Conn Msg}
  {deserialize : Bytes → Option Msg}

/-! ## Giving up -/

/-- The call that a callback gives up on: its send attempt fails, its reply cannot be received, or
there is no memory to receive it. -/
def givesUp (client : QuicClient Conn Msg) : Act → Option Nat
  | .event (.writable streamId errorCode) => do
    let (c, call) ← client.findStreamContext streamId client.streamContexts
    if !call.context.attemptedCallRpcMsgSend && errorCode != 0 then some c else none
  | .event (.readable streamId reads) => do
    let (c, call) ← client.findStreamContext streamId client.streamContexts
    let (errorCode, _, _) ← receiveAvailableBytesQuic (call.context.rmReceivingContext.getD
      (createRmReceivingContext client.quicConnection streamId)) reads
    if errorCode > 0 then some c else none
  | .noMemory streamId => do
    let (c, call) ← client.findStreamContext streamId client.streamContexts
    if call.context.rmReceivingContext.isSome then none else some c
  | .event _ => none

/-- The context of the call is finished, and its thread, if it waits for the reply, can go on to
return NULL. -/
def Reported (deserialize : Bytes → Option Msg) (client : QuicClient Conn Msg) (c : Nat) : Prop :=
  ∃ call, client.calls c = some call ∧ call.context.finished = true ∧
    (call.point = .awaitsReply → ∃ acts client' call',
      client.acts deserialize acts = some client' ∧ client'.calls c = some call' ∧
        call'.point = .returned none)

/-- An attempt was made to send the call, it was not sent, and it is not finished. -/
def Dangling (call : ClientCall Conn Msg) : Prop :=
  call.context.attemptedCallRpcMsgSend = true ∧ call.context.callRpcMsgSuccessfullySent = false ∧
    call.context.finished = false

def NoneDangling (client : QuicClient Conn Msg) : Prop :=
  ∀ c call, client.calls c = some call → ¬Dangling call

/-- In every state of a run no call is left dangling, and each call that a callback gives up on is
reported. -/
def FailuresReported (deserialize : Bytes → Option Msg) (client : QuicClient Conn Msg) :
    List Act → Prop
  | [] => client.NoneDangling
  | act :: acts => client.NoneDangling ∧
    ∀ client', client.act deserialize act = some client' →
      (∀ c, client.givesUp act = some c → Reported deserialize client' c) ∧
        client'.FailuresReported deserialize acts

/-- The callback makes the send attempt of a call that is not finished, and it fails. -/
def FailsToSend (client : QuicClient Conn Msg) : Act → Prop
  | .event (.writable streamId errorCode) => ∃ c call,
    client.findStreamContext streamId client.streamContexts = some (c, call) ∧
      call.context.attemptedCallRpcMsgSend = false ∧ call.context.finished = false ∧ errorCode ≠ 0
  | _ => False

/-- The callback leaves a call behind: it fails to send one that is not finished, or gives up on
one whose thread waits. -/
def Strands (client : QuicClient Conn Msg) (act : Act) : Prop :=
  client.FailsToSend act ∨ ∃ c call, client.givesUp act = some c ∧ client.calls c = some call ∧
    call.point = .awaitsReply

/-- No callback leaves a call behind in a run. -/
def NoneStranded (deserialize : Bytes → Option Msg) (client : QuicClient Conn Msg) :
    List Act → Prop
  | [] => True
  | act :: acts => ∀ client', client.act deserialize act = some client' →
    ¬client.Strands act ∧ client'.NoneStranded deserialize acts

/-! ## One step -/

variable {act : Act}

/-- A step leaves no call dangling unless it is a send that fails. -/
theorem noneDangling_act (h : client.NoneDangling)
    (hAct : client.act deserialize act = some client') (hSends : ¬client.FailsToSend act) :
    client'.NoneDangling := by
  intro i call' hCall' hDangling
  cases effect_of_act hAct with
  | nothing hCalls =>
    rw [hCalls] at hCall'
    exact h i call' hCall' hDangling
  | new c callRpcMsg useAuxiliaryStream _ _ hCalls =>
    rw [hCalls] at hCall'
    by_cases hi : i = c
    · subst hi
      rw [update_self] at hCall'
      cases hCall'
      cases hDangling.1
    · rw [update_of_ne hi] at hCall'
      exact h i call' hCall' hDangling
  | change c call changed hCall hChange hCalls =>
    rw [hCalls] at hCall'
    by_cases hi : i = c
    · subst hi
      rw [update_self] at hCall'
      cases hCall'
      -- the flags are the old ones, except where a callback sets them
      cases hChange with
      | unsent streamId errorCode _ hFind hNew hError =>
        exact hSends ⟨i, call, hFind, hNew, hDangling.2.2, hError⟩
      | sent => cases hDangling.2.1
      | noMemory => cases hDangling.2.2
      | read _ _ _ _ finished _ hFinished =>
        refine h i call hCall ⟨hDangling.1, hDangling.2.1, ?_⟩
        cases hOld : call.context.finished with
        | false => rfl
        | true =>
          have hNow : finished = false := hDangling.2.2
          rw [hFinished hOld] at hNow
          cases hNow
      | allocated | unallocated | proceeded | replied | decoded | removed | released =>
        exact h i call hCall hDangling
    · rw [update_of_ne hi] at hCall'
      exact h i call' hCall' hDangling

/-- A send that fails leaves its call dangling. -/
theorem dangling_of_failsToSend (hAct : client.act deserialize act = some client')
    (hFails : client.FailsToSend act) : ¬client'.NoneDangling := by
  cases took_of_act hAct with
  | writable streamId errorCode =>
    obtain ⟨c, call, hFind, hNew, hFinished, hError⟩ := hFails
    have hStream := (findStreamContext_spec hFind).2.2
    intro hNone
    unfold clientOnStreamWritable at hNone
    rw [hFind] at hNone
    dsimp only at hNone
    rw [if_neg (not_not.mpr hStream), if_neg (by simp [hNew]), if_neg hError] at hNone
    exact hNone c _ (update_self ..) ⟨rfl, rfl, hFinished⟩
  | _ => exact hFails.elim

/-- What a callback that gives up on a call does: the call gets a context of which nothing is
said here but that it is finished, unless a send fails; and the thread is killed. -/
theorem killed_of_givesUp (hAct : client.act deserialize act = some client')
    (hGives : client.givesUp act = some c) : ∃ call call', client.calls c = some call ∧
      client'.calls c = some call' ∧ call'.point = call.point ∧
      (¬client.FailsToSend act → call'.context.finished = true) ∧
      client'.eventLoopRunning = false ∧ client'.streamContextsListLocked = true := by
  cases took_of_act hAct with
  | noMemory streamId =>
    obtain ⟨⟨found, call⟩, hFind, hGives⟩ := bind_eq_some_iff.mp hGives
    dsimp only at hGives
    split at hGives
    · cases hGives
    · next hMemory =>
      cases hGives
      unfold clientOnStreamReadableNoMemory
      rw [hFind]
      dsimp only
      rw [if_neg hMemory]
      exact ⟨call, _, (findStreamContext_spec hFind).2.1, update_self .., rfl, fun _ => rfl, rfl, rfl⟩
  | writable streamId errorCode =>
    obtain ⟨⟨found, call⟩, hFind, hGives⟩ := bind_eq_some_iff.mp hGives
    have hStream := (findStreamContext_spec hFind).2.2
    dsimp only at hGives
    split at hGives
    · next hFailed =>
      cases hGives
      rw [Bool.and_eq_true] at hFailed
      have hNew : call.context.attemptedCallRpcMsgSend = false := by simpa using hFailed.1
      have hError : errorCode ≠ 0 := by simpa using hFailed.2
      unfold clientOnStreamWritable
      rw [hFind]
      dsimp only
      rw [if_neg (not_not.mpr hStream), if_neg (by simp [hNew]), if_neg hError]
      refine ⟨call, _, (findStreamContext_spec hFind).2.1, update_self .., rfl, fun hSends => ?_, rfl,
        rfl⟩
      -- the call was finished before
      by_contra hNot
      exact hSends ⟨c, call, hFind, hNew, by simpa using hNot, hError⟩
    · cases hGives
  | readable streamId reads next _ hReadable =>
    obtain ⟨⟨found, call⟩, hFind, hGives⟩ := bind_eq_some_iff.mp hGives
    obtain ⟨⟨errorCode, rm, unread⟩, hReceive, hGives⟩ := bind_eq_some_iff.mp hGives
    dsimp only at hGives hReceive
    split at hGives
    · next hError =>
      cases hGives
      unfold clientOnStreamReadable at hReadable
      rw [hFind] at hReadable
      dsimp only at hReadable
      rw [hReceive, bind_eq_bind, bind_some] at hReadable
      dsimp only at hReadable
      rw [if_pos hError] at hReadable
      cases hReadable
      exact ⟨call, _, (findStreamContext_spec hFind).2.1, update_self .., rfl, fun _ => rfl, rfl, rfl⟩
    · cases hGives
  | push | allocate | addContext | reply | decode | removeContext | release => cases hGives

/-! ## Without the event loop -/

/-- The event loop thread has died with the mutex locked, and the call has not removed its
context. -/
structure Abandoned (client : QuicClient Conn Msg) (c : Nat) : Prop where
  stopped : client.eventLoopRunning = false
  locked : client.streamContextsListLocked = true
  waits : ∃ call, client.calls c = some call ∧
    (call.point = .awaitsReply ∨ ∃ result, call.point = .decoded result)

/-- Without the event loop there are no callbacks: nobody locks or unlocks the mutex again. -/
theorem stopped_act (hStopped : client.eventLoopRunning = false)
    (hAct : client.act deserialize act = some client') :
    client'.eventLoopRunning = false ∧
      client'.streamContextsListLocked = client.streamContextsListLocked := by
  cases took_of_act hAct with
  | push | reply | decode | removeContext | release => exact ⟨hStopped, rfl⟩
  | addContext => split <;> exact ⟨hStopped, rfl⟩
  -- the others are callbacks of the event loop
  | allocate _ _ _ _ hRunning | writable _ _ hRunning | readable _ _ _ hRunning
  | noMemory _ hRunning =>
    rw [hStopped] at hRunning
    cases hRunning

theorem abandoned_act (h : Abandoned client c)
    (hAct : client.act deserialize act = some client') : Abandoned client' c := by
  obtain ⟨hStill, hLock⟩ := stopped_act h.stopped hAct
  refine ⟨hStill, hLock.trans h.locked, ?_⟩
  obtain ⟨call, hCall, hPoint⟩ := h.waits
  rcases (effect_of_act hAct).becomes hCall with hSame | ⟨call', hCall', hChange⟩
  · exact ⟨call, hSame, hPoint⟩
  · refine ⟨call', hCall', ?_⟩
    cases hChange with
    | allocated | unallocated | sent | unsent | replied | read | noMemory => exact hPoint
    | decoded => exact .inr ⟨_, rfl⟩
    -- the thread does not get the mutex
    | removed _ _ hUnlocked =>
      rw [h.locked] at hUnlocked
      cases hUnlocked
    | proceeded _ hOther | released _ hOther =>
      rw [hOther] at hPoint
      obtain hPoint | ⟨_, hPoint⟩ := hPoint <;> cases hPoint

theorem abandoned_acts {acts : List Act} (h : Abandoned client c)
    (hActs : client.acts deserialize acts = some client') : Abandoned client' c :=
  acts_induction abandoned_act h hActs

theorem Abandoned.not_returned (h : Abandoned client c) (hCall : client.calls c = some call)
    (result : Option Msg) : call.point ≠ .returned result := by
  obtain ⟨call', hCall', hPoint⟩ := h.waits
  cases hCall.symm.trans hCall'
  intro hReturned
  rw [hReturned] at hPoint
  obtain hPoint | ⟨_, hPoint⟩ := hPoint <;> cases hPoint

/-- A call that is given up while its thread waits is not reported. -/
theorem not_reported_of_waiting (hAct : client.act deserialize act = some client')
    (hGives : client.givesUp act = some c) (hCall : client.calls c = some call)
    (hPoint : call.point = .awaitsReply) : ¬Reported deserialize client' c := by
  obtain ⟨before, after, hBefore, hAfter, hSame, -, hStopped, hLocked⟩ :=
    killed_of_givesUp hAct hGives
  cases hCall.symm.trans hBefore
  rintro ⟨found, hFound, -, hReturns⟩
  cases hFound.symm.trans hAfter
  obtain ⟨acts, last, lastCall, hActs, hLast, hReturned⟩ := hReturns (hSame.trans hPoint)
  have hAbandoned : Abandoned client' c := ⟨hStopped, hLocked, _, hAfter, .inl (hSame.trans hPoint)⟩
  exact (abandoned_acts hAbandoned hActs).not_returned hLast _ hReturned

/-- A call is reported if it is given up when its thread does not wait any more. -/
theorem reported_of_givesUp (hAct : client.act deserialize act = some client')
    (hStrands : ¬client.Strands act) (hGives : client.givesUp act = some c) :
    Reported deserialize client' c := by
  obtain ⟨call, call', hCall, hCall', hSame, hFinished, -⟩ := killed_of_givesUp hAct hGives
  refine ⟨call', hCall', hFinished fun hFails => hStrands (.inl hFails), fun hWaits => ?_⟩
  exact absurd (.inr ⟨c, call, hGives, hCall, hSame ▸ hWaits⟩) hStrands

/-! ## All runs -/

theorem failuresReported_iff (h : client.NoneDangling) (acts : List Act) :
    client.FailuresReported deserialize acts ↔ client.NoneStranded deserialize acts := by
  induction acts generalizing client with
  | nil => exact ⟨fun _ => trivial, fun _ => h⟩
  | cons act acts ih =>
    constructor
    · rintro ⟨-, hReported⟩ client' hAct
      obtain ⟨hNow, hRest⟩ := hReported client' hAct
      -- the rest of the run says that nothing is dangling now
      have hNone : client'.NoneDangling := by
        cases acts with
        | nil => exact hRest
        | cons _ _ => exact hRest.1
      refine ⟨?_, (ih hNone).mp hRest⟩
      rintro (hFails | ⟨c, call, hGives, hCall, hPoint⟩)
      · exact dangling_of_failsToSend hAct hFails hNone
      · exact not_reported_of_waiting hAct hGives hCall hPoint (hNow c hGives)
    · intro hStranded
      refine ⟨h, fun client' hAct => ?_⟩
      obtain ⟨hNot, hRest⟩ := hStranded client' hAct
      exact ⟨fun c => reported_of_givesUp hAct hNot,
        (ih (noneDangling_act h hAct fun hFails => hNot (.inl hFails))).mpr hRest⟩

namespace Sample

/-- A call gets a stream and is registered; then come these callbacks. -/
def registeredThen (callbacks : List Act) : List Act :=
  [.event (.push 0 [1] true), .event (.allocate (some 4)), .event (.addContext 0)] ++ callbacks

def start : QuicClient Unit Bytes := { quicConnection := (), mainStream := some 0 }

end Sample

/-- After these callbacks the context of the call is finished or not, and whatever happens then,
its thread does not return. -/
def Sample.NeverReturns (callbacks : List Act) (finished : Bool) : Prop :=
  ∃ client, Sample.start.acts some (Sample.registeredThen callbacks) = some client ∧
    (∃ call, client.calls 0 = some call ∧ call.context.finished = finished) ∧
    ∀ acts client' call', client.acts some acts = some client' →
      client'.calls 0 = some call' → ∀ result, call'.point ≠ .returned result

/-- The callbacks leave the event loop stopped and the list of contexts locked. -/
theorem Sample.neverReturns {callbacks : List Act} {finished : Bool}
    (h : (Sample.start.acts some (Sample.registeredThen callbacks)).map (fun client =>
      (client.eventLoopRunning, client.streamContextsListLocked, (client.calls 0).map fun call =>
        (call.point, call.context.finished))) =
        some (false, true, some (.awaitsReply, finished))) :
    Sample.NeverReturns callbacks finished := by
  obtain ⟨client, hActs, hEq⟩ := map_eq_some_iff.mp h
  obtain ⟨hStopped, hEq⟩ := Prod.mk.inj hEq
  obtain ⟨hLocked, hEq⟩ := Prod.mk.inj hEq
  obtain ⟨call, hCall, hEq⟩ := map_eq_some_iff.mp hEq
  obtain ⟨hPoint, hFinished⟩ := Prod.mk.inj hEq
  have hAbandoned : Abandoned client 0 := ⟨hStopped, hLocked, call, hCall, .inl hPoint⟩
  refine ⟨client, hActs, ⟨call, hCall, hFinished⟩, ?_⟩
  intro acts client' call' hMore hCall'
  exact (abandoned_acts hAbandoned hMore).not_returned hCall'

end QuicClient

end QuicNfs.Transport
