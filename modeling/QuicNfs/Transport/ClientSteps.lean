import QuicNfs.Transport.QuicClient

/-!
# QuicNfs — what a step of the QUIC client does to a call

`QuicClient.step` has a case for each thread and callback. Whatever the step, it
changes one call at most, and `CallChange` lists what can become of that call. The
callbacks come with all results here: sends that fail, reads that are not a reply,
and no memory for the receiving context.

* `Act` and `QuicClient.act` — the steps, with the branch of
  `client_on_stream_readable` that finds no memory;
* `Took` and `took_of_act` — one inversion for all of them, with what the step found;
* `ActEffect` and `effect_of_act` — what that is to the calls;
* `CallChange` — the changes of a call.
-/

namespace QuicNfs.Transport

open Kernel Lib RecordMarkingReceivingContext Option

variable {Conn Msg : Type}

namespace QuicClient

variable {client client' : QuicClient Conn Msg} {c : Nat} {call : ClientCall Conn Msg}
  {deserialize : Bytes → Option Msg}

/-- `create_rm_receiving_context` fails: the call is given up. A call that has a receiving
context does not need the memory. -/
def clientOnStreamReadableNoMemory (client : QuicClient Conn Msg) (streamId : Nat) :
    QuicClient Conn Msg :=
  match client.findStreamContext streamId client.streamContexts with
  | none => client
  | some (c, call) =>
    if call.context.rmReceivingContext.isSome then client
    else (client.setCall c { call with context := { call.context with
      replyRpcMsgSuccessfullyReceived := false
      finished := true } }).killEventLoopThread

/-- A step, with what the callbacks are given. -/
inductive Act where
  | event (event : Event)
  /-- The stream is readable and there is no memory. -/
  | noMemory (streamId : Nat)
deriving DecidableEq, Repr

def act (deserialize : Bytes → Option Msg) (client : QuicClient Conn Msg) :
    Act → Option (QuicClient Conn Msg)
  | .event event => client.step deserialize event
  | .noMemory streamId =>
    if client.eventLoopRunning then some (client.clientOnStreamReadableNoMemory streamId) else none

/-- A sequence of steps, nothing assumed of them. -/
def acts (deserialize : Bytes → Option Msg) (client : QuicClient Conn Msg) :
    List Act → Option (QuicClient Conn Msg)
  | [] => some client
  | act :: rest => do
    let client ← client.act deserialize act
    client.acts deserialize rest

/-- What every step keeps, every run keeps. -/
theorem acts_induction {P : QuicClient Conn Msg → Prop} (hStep : ∀ {client client' act}, P client →
    client.act deserialize act = some client' → P client') {acts : List Act} (h : P client)
    (hActs : client.acts deserialize acts = some client') : P client' := by
  induction acts generalizing client with
  | nil =>
    cases hActs
    exact h
  | cons act acts ih =>
    obtain ⟨next, hAct, hRest⟩ := bind_eq_some_iff.mp hActs
    exact ih (hStep h hAct) hRest

/-! ## What a step found -/

/-- The steps that were taken, with all that they tested and the state they led to. -/
inductive Took (deserialize : Bytes → Option Msg) (client : QuicClient Conn Msg) :
    Act → QuicClient Conn Msg → Prop
  | push (c : Nat) (callRpcMsg : Bytes) (useAuxiliaryStream : Bool) (hNone : client.calls c = none) :
      Took deserialize client (.event (.push c callRpcMsg useAuxiliaryStream))
        { client.setCall c { context := { useAuxiliaryStream, callRpcMsg } } with
          streamAllocationQueue := client.streamAllocationQueue ++ [c] }
  | allocate (newStream : Option Nat) (c : Nat) (queue : List Nat) (call : ClientCall Conn Msg)
      (hRunning : client.eventLoopRunning = true)
      (hFront : client.streamAllocationQueue = c :: queue) (hCall : client.calls c = some call) :
      Took deserialize client (.event (.allocate newStream))
        ({ client with streamAllocationQueue := queue }.allocateStream c call newStream)
  | addContext (c : Nat) (call : ClientCall Conn Msg) (hCall : client.calls c = some call)
      (hPoint : call.point = .awaitsStream)
      (hFinished : call.context.streamAllocationFinished = true)
      (hFree : call.context.streamAllocatorLocked = false) :
      Took deserialize client (.event (.addContext c))
        (if call.context.successfullyAllocatedStream then
          { client.setCall c { call with point := .awaitsReply } with
            streamContexts := if client.streamContextsListLocked then client.streamContexts
              else c :: client.streamContexts }
        else client.setCall c { call with point := .returned none })
  | writable (streamId errorCode : Nat) (hRunning : client.eventLoopRunning = true) :
      Took deserialize client (.event (.writable streamId errorCode))
        (client.clientOnStreamWritable streamId errorCode)
  | reply (streamId : Nat) (record : Bytes) (c : Nat) (unanswered : List Nat)
      (call : ClientCall Conn Msg) (hLine : (client.lines streamId).unanswered = c :: unanswered)
      (hCall : client.calls c = some call) :
      Took deserialize client (.event (.reply streamId record))
        ((client.setCall c { call with reply := some record }).setLine streamId
          ⟨unanswered, (client.lines streamId).incoming ++ encodeRecord record⟩)
  | readable (streamId : Nat) (reads : List Bytes) (next : QuicClient Conn Msg)
      (hRunning : client.eventLoopRunning = true)
      (hReadable : client.clientOnStreamReadable streamId reads = some next) :
      Took deserialize client (.event (.readable streamId reads)) next
  | noMemory (streamId : Nat) (hRunning : client.eventLoopRunning = true) :
      Took deserialize client (.noMemory streamId) (client.clientOnStreamReadableNoMemory streamId)
  | decode (c : Nat) (call : ClientCall Conn Msg) (hCall : client.calls c = some call)
      (hPoint : call.point = .awaitsReply) (hFinished : call.context.finished = true) :
      Took deserialize client (.event (.decode c))
        (client.setCall c { call with point := .decoded (replyOf deserialize call.context) })
  | removeContext (c : Nat) (call : ClientCall Conn Msg) (streamId : Nat) (result : Option Msg)
      (hCall : client.calls c = some call)
      (hStream : call.context.allocatedStream = some streamId)
      (hPoint : call.point = .decoded result)
      (hUnlocked : client.streamContextsListLocked = false) :
      Took deserialize client (.event (.removeContext c))
        { client.setCall c { call with point := .removed result } with
          streamContexts := client.removeStreamContext streamId client.streamContexts }
  | release (c : Nat) (call : ClientCall Conn Msg) (streamId : Nat) (result : Option Msg)
      (hCall : client.calls c = some call)
      (hStream : call.context.allocatedStream = some streamId)
      (hPoint : call.point = .removed result) :
      Took deserialize client (.event (.release c))
        { client.setCall c { call with point := .returned result } with
          auxiliaryStreams := modifyFirst (fun stream => stream.id = streamId)
            (fun stream => { stream with streamInUse := false }) client.auxiliaryStreams }

/-- **One step.** The only proof that goes through the branches of `step`. -/
theorem took_of_act {act : Act} (h : client.act deserialize act = some client') :
    Took deserialize client act client' := by
  cases act with
  | noMemory streamId =>
    rw [QuicClient.act] at h
    split at h
    · next hRunning =>
      cases h
      exact .noMemory streamId hRunning
    · cases h
  | event event =>
    rw [QuicClient.act] at h
    cases event with
    | push c callRpcMsg useAuxiliaryStream =>
      rw [step] at h
      split at h
      · cases h
      · next hNew =>
        cases h
        exact .push c callRpcMsg useAuxiliaryStream (by simpa using hNew)
    | allocate newStream =>
      rw [step] at h
      split at h
      · cases h
      · next c queue hFront =>
        split at h
        · next hRunning =>
          obtain ⟨call, hCall, rfl⟩ := map_eq_some_iff.mp h
          exact .allocate newStream c queue call hRunning hFront hCall
        · cases h
    | addContext c =>
      obtain ⟨call, hCall, h⟩ := bind_eq_some_iff.mp h
      split at h
      · next hPoint =>
        split at h
        · next hReady =>
          rw [Bool.and_eq_true] at hReady
          have hFree : call.context.streamAllocatorLocked = false := by simpa using hReady.2
          rw [← apply_ite some] at h
          cases h
          exact .addContext c call hCall hPoint hReady.1 hFree
        · cases h
      · cases h
    | writable streamId errorCode =>
      rw [step] at h
      split at h
      · next hRunning =>
        cases h
        exact .writable streamId errorCode hRunning
      · cases h
    | reply streamId record =>
      rw [step] at h
      split at h
      · cases h
      · next c unanswered hLine =>
        obtain ⟨call, hCall, rfl⟩ := map_eq_some_iff.mp h
        exact .reply streamId record c unanswered call hLine hCall
    | readable streamId reads =>
      rw [step] at h
      split at h
      · next hRunning => exact .readable streamId reads client' hRunning h
      · cases h
    | decode c =>
      obtain ⟨call, hCall, h⟩ := bind_eq_some_iff.mp h
      split at h
      · next hPoint =>
        split at h
        · next hFinished =>
          cases h
          exact .decode c call hCall hPoint hFinished
        · cases h
      · cases h
    | removeContext c =>
      obtain ⟨call, hCall, h⟩ := bind_eq_some_iff.mp h
      obtain ⟨streamId, hStream, h⟩ := bind_eq_some_iff.mp h
      split at h
      · next result hPoint =>
        split at h
        · cases h
        · next hUnlocked =>
          cases h
          exact .removeContext c call streamId result hCall hStream hPoint (by simpa using hUnlocked)
      · cases h
    | release c =>
      obtain ⟨call, hCall, h⟩ := bind_eq_some_iff.mp h
      obtain ⟨streamId, hStream, h⟩ := bind_eq_some_iff.mp h
      split at h
      · next result hPoint =>
        cases h
        exact .release c call streamId result hCall hStream hPoint
      · cases h

/-! ## The changes of a call -/

theorem findStreamContext_spec {streamId : Nat} {contexts : List Nat}
    (h : client.findStreamContext streamId contexts = some (c, call)) :
    c ∈ contexts ∧ client.calls c = some call ∧ call.context.allocatedStream = some streamId := by
  induction contexts with
  | nil => cases h
  | cons c' contexts ih =>
    rw [findStreamContext] at h
    split at h
    · cases h
    · next call' hCall' =>
      split at h
      · cases h
      · next id hId =>
        split at h
        · next hSame =>
          cases h
          exact ⟨by simp, hCall', hSame ▸ hId⟩
        · obtain ⟨hMem, hRest⟩ := ih h
          exact ⟨List.mem_cons_of_mem _ hMem, hRest⟩

/-- What a step can make of a call, and what it then found. -/
inductive CallChange (deserialize : Bytes → Option Msg) (client : QuicClient Conn Msg) (c : Nat)
    (call : ClientCall Conn Msg) : Act → ClientCall Conn Msg → Prop
  /-- The front of the queue was given a stream. -/
  | allocated (newStream : Option Nat) (queue : List Nat) (streamId : Nat)
      (hFront : client.streamAllocationQueue = c :: queue) :
      CallChange deserialize client c call (.event (.allocate newStream))
        { call with context := { call.context with
          allocatedStream := some streamId
          successfullyAllocatedStream := true
          streamAllocationFinished := true } }
  /-- There was no stream for the front of the queue. -/
  | unallocated (newStream : Option Nat) (queue : List Nat)
      (hFront : client.streamAllocationQueue = c :: queue) :
      CallChange deserialize client c call (.event (.allocate newStream))
        { call with context := { call.context with
          successfullyAllocatedStream := false
          streamAllocationFinished := true
          streamAllocatorLocked := true } }
  /-- The thread of the call saw that the allocation was finished. -/
  | proceeded (point : Point Msg) (hPoint : call.point = .awaitsStream)
      (hFinished : call.context.streamAllocationFinished = true)
      (hFree : call.context.streamAllocatorLocked = false)
      (hNext : point = if call.context.successfullyAllocatedStream then .awaitsReply
        else .returned none) :
      CallChange deserialize client c call (.event (.addContext c)) { call with point }
  | sent (streamId : Nat) (hStream : call.context.allocatedStream = some streamId)
      (hNew : call.context.attemptedCallRpcMsgSend = false) :
      CallChange deserialize client c call (.event (.writable streamId 0)) (call.sentOn streamId)
  | unsent (streamId errorCode : Nat) (hStream : call.context.allocatedStream = some streamId)
      (hFind : client.findStreamContext streamId client.streamContexts = some (c, call))
      (hNew : call.context.attemptedCallRpcMsgSend = false) (hError : errorCode ≠ 0) :
      CallChange deserialize client c call (.event (.writable streamId errorCode))
        { call with context := { call.context with
          attemptedCallRpcMsgSend := true
          callRpcMsgSuccessfullySent := false } }
  | replied (streamId : Nat) (record : Bytes) :
      CallChange deserialize client c call (.event (.reply streamId record))
        { call with reply := some record }
  /-- The stream was read, with or without success; a finished call stays finished. -/
  | read (streamId : Nat) (reads : List Bytes) (rm : RecordMarkingReceivingContext Conn)
      (received finished : Bool) (hStream : call.context.allocatedStream = some streamId)
      (hFinished : call.context.finished = true → finished = true) :
      CallChange deserialize client c call (.event (.readable streamId reads))
        { call with context := { call.context with
          rmReceivingContext := some rm
          replyRpcMsgSuccessfullyReceived := received
          finished := finished } }
  | noMemory (streamId : Nat) (hStream : call.context.allocatedStream = some streamId) :
      CallChange deserialize client c call (.noMemory streamId)
        { call with context := { call.context with
          replyRpcMsgSuccessfullyReceived := false
          finished := true } }
  | decoded (hPoint : call.point = .awaitsReply) (hFinished : call.context.finished = true) :
      CallChange deserialize client c call (.event (.decode c))
        { call with point := .decoded (replyOf deserialize call.context) }
  | removed (result : Option Msg) (hPoint : call.point = .decoded result)
      (hUnlocked : client.streamContextsListLocked = false) :
      CallChange deserialize client c call (.event (.removeContext c))
        { call with point := .removed result }
  | released (result : Option Msg) (hPoint : call.point = .removed result) :
      CallChange deserialize client c call (.event (.release c))
        { call with point := .returned result }

/-- The queue gets longer by a push, and shorter by an allocation. -/
def Act.queueAfter : Act → List Nat → List Nat
  | .event (.push c _ _), queue => queue ++ [c]
  | .event (.allocate _), queue => queue.tail
  | _, queue => queue

/-- What a step does to the calls: nothing, a new one, or a change of one. -/
inductive ActEffect (deserialize : Bytes → Option Msg) (client client' : QuicClient Conn Msg)
    (act : Act) : Prop
  | nothing (hCalls : client'.calls = client.calls)
      (hQueue : client'.streamAllocationQueue = act.queueAfter client.streamAllocationQueue)
  | new (c : Nat) (callRpcMsg : Bytes) (useAuxiliaryStream : Bool)
      (hAct : act = .event (.push c callRpcMsg useAuxiliaryStream)) (hNone : client.calls c = none)
      (hCalls : client'.calls = Function.update client.calls c
        (some { context := { useAuxiliaryStream, callRpcMsg } }))
      (hQueue : client'.streamAllocationQueue = act.queueAfter client.streamAllocationQueue)
  | change (c : Nat) (call call' : ClientCall Conn Msg) (hCall : client.calls c = some call)
      (hChange : CallChange deserialize client c call act call')
      (hCalls : client'.calls = Function.update client.calls c (some call'))
      (hQueue : client'.streamAllocationQueue = act.queueAfter client.streamAllocationQueue)

theorem effect_allocateStream {newStream : Option Nat} {queue : List Nat}
    (hFront : client.streamAllocationQueue = c :: queue) (hCall : client.calls c = some call) :
    ActEffect deserialize client
      ({ client with streamAllocationQueue := queue }.allocateStream c call newStream)
      (.event (.allocate newStream)) := by
  have hQueue : queue = client.streamAllocationQueue.tail := by rw [hFront]; rfl
  unfold allocateStream
  split
  · split
    · exact .change c call _ hCall (.unallocated newStream queue hFront) rfl hQueue
    · next streamId streams _ =>
      exact .change c call _ hCall (.allocated newStream queue streamId hFront) rfl hQueue
  · split
    · exact .change c call _ hCall (.unallocated newStream queue hFront) rfl hQueue
    · next streamId _ =>
      exact .change c call _ hCall (.allocated newStream queue streamId hFront) rfl hQueue

theorem effect_writable (streamId errorCode : Nat) :
    ActEffect deserialize client (client.clientOnStreamWritable streamId errorCode)
      (.event (.writable streamId errorCode)) := by
  unfold clientOnStreamWritable
  split
  · exact .nothing rfl rfl
  · next c call hFind =>
    obtain ⟨-, hCall, hStream⟩ := findStreamContext_spec hFind
    -- the context was found by its stream
    rw [if_neg (not_not.mpr hStream)]
    split
    · exact .nothing rfl rfl
    · next hNew =>
      have hNew : call.context.attemptedCallRpcMsgSend = false := by simpa using hNew
      split
      · next hCode =>
        subst hCode
        exact .change c call _ hCall (.sent streamId hStream hNew) rfl rfl
      · next hCode =>
        exact .change c call _ hCall (.unsent streamId errorCode hStream hFind hNew hCode) rfl rfl

theorem effect_readable {streamId : Nat} {reads : List Bytes}
    (h : client.clientOnStreamReadable streamId reads = some client') :
    ActEffect deserialize client client' (.event (.readable streamId reads)) := by
  unfold clientOnStreamReadable at h
  split at h
  · cases h
    exact .nothing rfl rfl
  · next c call hFind =>
    obtain ⟨-, hCall, hStream⟩ := findStreamContext_spec hFind
    obtain ⟨⟨errorCode, rm, unread⟩, -, h⟩ := bind_eq_some_iff.mp h
    dsimp only at h
    split at h
    · cases h
      exact .change c call _ hCall (.read streamId reads rm false true hStream fun _ => rfl) rfl rfl
    · split at h
      · cases h
        exact .change c call _ hCall (.read streamId reads rm true true hStream fun _ => rfl) rfl rfl
      · cases h
        exact .change c call _ hCall (.read streamId reads rm
          call.context.replyRpcMsgSuccessfullyReceived call.context.finished hStream id) rfl rfl

theorem effect_noMemory (streamId : Nat) :
    ActEffect deserialize client (client.clientOnStreamReadableNoMemory streamId)
      (.noMemory streamId) := by
  unfold clientOnStreamReadableNoMemory
  split
  · exact .nothing rfl rfl
  · next c call hFind =>
    obtain ⟨-, hCall, hStream⟩ := findStreamContext_spec hFind
    split
    · exact .nothing rfl rfl
    · exact .change c call _ hCall (.noMemory streamId hStream) rfl rfl

theorem effect_of_act {act : Act} (h : client.act deserialize act = some client') :
    ActEffect deserialize client client' act := by
  cases took_of_act h with
  | push c callRpcMsg useAuxiliaryStream hNone =>
    exact .new c callRpcMsg useAuxiliaryStream rfl hNone rfl rfl
  | allocate newStream c queue call _ hFront hCall => exact effect_allocateStream hFront hCall
  | addContext c call hCall hPoint hFinished hFree =>
    split
    · next hSuccess =>
      exact .change c call _ hCall
        (.proceeded .awaitsReply hPoint hFinished hFree (by rw [if_pos hSuccess])) rfl rfl
    · next hFailed =>
      exact .change c call _ hCall
        (.proceeded (.returned none) hPoint hFinished hFree (by rw [if_neg hFailed])) rfl rfl
  | writable streamId errorCode => exact effect_writable streamId errorCode
  | reply streamId record c unanswered call _ hCall =>
    exact .change c call _ hCall (.replied streamId record) rfl rfl
  | readable streamId reads _ _ hReadable => exact effect_readable hReadable
  | noMemory streamId => exact effect_noMemory streamId
  | decode c call hCall hPoint hFinished =>
    exact .change c call _ hCall (.decoded hPoint hFinished) rfl rfl
  | removeContext c call streamId result hCall _ hPoint hUnlocked =>
    exact .change c call _ hCall (.removed result hPoint hUnlocked) rfl rfl
  | release c call streamId result hCall _ hPoint =>
    exact .change c call _ hCall (.released result hPoint) rfl rfl

theorem ActEffect.queue {act : Act} (h : ActEffect deserialize client client' act) :
    client'.streamAllocationQueue = act.queueAfter client.streamAllocationQueue := by
  cases h with
  | nothing _ hQueue => exact hQueue
  | new _ _ _ _ _ _ hQueue => exact hQueue
  | change _ _ _ _ _ _ hQueue => exact hQueue

/-- What becomes of a call: it stays as it is or changes. -/
theorem ActEffect.becomes {act : Act} (h : ActEffect deserialize client client' act)
    (hCall : client.calls c = some call) :
    client'.calls c = some call ∨
      ∃ call', client'.calls c = some call' ∧ CallChange deserialize client c call act call' := by
  cases h with
  | nothing hCalls hQueue =>
    rw [hCalls]
    exact .inl hCall
  | new c₀ callRpcMsg useAuxiliaryStream hAct hNone hCalls hQueue =>
    have hne : c ≠ c₀ := by
      rintro rfl
      rw [hCall] at hNone
      cases hNone
    rw [hCalls, Function.update_of_ne hne]
    exact .inl hCall
  | change c₀ call₀ call₀' hCall₀ hChange hCalls hQueue =>
    by_cases hSame : c = c₀
    · subst hSame
      cases hCall.symm.trans hCall₀
      exact .inr ⟨call₀', by rw [hCalls, Function.update_self], hChange⟩
    · rw [hCalls, Function.update_of_ne hSame]
      exact .inl hCall

end QuicClient

end QuicNfs.Transport
