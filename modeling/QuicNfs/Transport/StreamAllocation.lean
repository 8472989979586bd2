import QuicNfs.Transport.ClientSteps

/-!
# QuicNfs — does the stream allocator answer?

`async_stream_allocator_callback` takes the calls from the queue one after the
other and gives each a stream of the pool, a new one, or none. The thread of a call
waits until its allocation is finished, and needs the mutex of its context to see
it. `allocate_stream` returns with that mutex locked when there is no stream.

* `QuicClient.asyncStreamAllocatorCallback` — the callback;
* `Queued`, `queued_acts` — what is in the queue, in every state that is reached;
* `Supplied` — the pool as two numbers: is there a stream for each of some calls?
* `allocateQueue_spec` — what becomes of the calls of the queue;
* `stream_allocation_answers_iff` — all of them are answered exactly if there is a
  stream for each;
* `stream_allocation_stuck` — ten streams in use, and a call that waits for ever.
-/

namespace QuicNfs.Transport

open Kernel Lib RecordMarkingReceivingContext List Option Function

variable {Conn Msg : Type}

namespace QuicClient

variable {client client' : QuicClient Conn Msg} {c : Nat} {call : ClientCall Conn Msg}
  {deserialize : Bytes → Option Msg}

/-! ## The callback -/

/-- The loop over the queue. `newStream c` is what `create_new_stream` returns if it is called
for the call `c`. -/
def allocateQueue (newStream : Nat → Option Nat) : List Nat → QuicClient Conn Msg →
    QuicClient Conn Msg
  | [], client => client
  | c :: queue, client =>
    match client.calls c with
    | none => allocateQueue newStream queue { client with streamAllocationQueue := queue }
    | some call => allocateQueue newStream queue
        ({ client with streamAllocationQueue := queue }.allocateStream c call (newStream c))

def asyncStreamAllocatorCallback (newStream : Nat → Option Nat) (client : QuicClient Conn Msg) :
    QuicClient Conn Msg :=
  allocateQueue newStream client.streamAllocationQueue client

/-! ## What is in the queue -/

/-- The queue holds different calls, with contexts as `create_client_stream_context` makes
them. -/
structure Queued (client : QuicClient Conn Msg) : Prop where
  nodup : client.streamAllocationQueue.Nodup
  fresh {i} : i ∈ client.streamAllocationQueue → ∃ call callRpcMsg useAuxiliaryStream,
    client.calls i = some call ∧ call.point = .awaitsStream ∧
      call.context = { useAuxiliaryStream, callRpcMsg }

/-- A call in the queue is changed by its allocation, or by the server. -/
theorem CallChange.queued {act : Act} {call' : ClientCall Conn Msg}
    (h : CallChange deserialize client c call act call') {callRpcMsg : Bytes}
    {useAuxiliaryStream : Bool} (hPoint : call.point = .awaitsStream)
    (hContext : call.context = { useAuxiliaryStream, callRpcMsg }) :
    (∃ newStream queue, act = .event (.allocate newStream) ∧
      client.streamAllocationQueue = c :: queue) ∨
    (call'.point = call.point ∧ call'.context = call.context) := by
  obtain ⟨context, point, sends, reply⟩ := call
  obtain rfl : point = _ := hPoint
  obtain rfl : context = _ := hContext
  cases h with
  | allocated newStream queue streamId hFront => exact .inl ⟨newStream, queue, rfl, hFront⟩
  | unallocated newStream queue hFront => exact .inl ⟨newStream, queue, rfl, hFront⟩
  | replied streamId record => exact .inr ⟨rfl, rfl⟩
  -- the allocation of a call in the queue is not finished, and it has no stream
  | proceeded point _ hFinished => cases hFinished
  | sent streamId hStream => cases hStream
  | unsent streamId errorCode hStream => cases hStream
  | read streamId reads rm received finished hStream => cases hStream
  | noMemory streamId hStream => cases hStream
  -- and its thread waits
  | decoded hOther => cases hOther
  | removed result hOther => cases hOther
  | released result hOther => cases hOther

/-- The calls that stay in the queue stay as they were. -/
theorem Queued.kept {act : Act} (h : Queued client)
    (hEffect : ActEffect deserialize client client' act) {i : Nat}
    (hOld : i ∈ client.streamAllocationQueue) (hNew : i ∈ client'.streamAllocationQueue) :
    ∃ call callRpcMsg useAuxiliaryStream, client'.calls i = some call ∧
      call.point = .awaitsStream ∧ call.context = { useAuxiliaryStream, callRpcMsg } := by
  obtain ⟨call, callRpcMsg, useAuxiliaryStream, hCall, hPoint, hContext⟩ := h.fresh hOld
  rcases hEffect.becomes hCall with hSame | ⟨call', hCall', hChange⟩
  · exact ⟨call, callRpcMsg, useAuxiliaryStream, hSame, hPoint, hContext⟩
  · rcases hChange.queued hPoint hContext with ⟨newStream, queue, rfl, hFront⟩ | ⟨hP, hC⟩
    · -- it was the front of the queue and is not in the rest
      rw [hEffect.queue, hFront] at hNew
      have hNodup := h.nodup
      rw [hFront, nodup_cons] at hNodup
      exact absurd hNew hNodup.1
    · exact ⟨call', callRpcMsg, useAuxiliaryStream, hCall', hP.trans hPoint, hC.trans hContext⟩

theorem queued_push (h : Queued client) (hNone : client.calls c = none) (callRpcMsg : Bytes)
    (useAuxiliaryStream : Bool) :
    Queued { client.setCall c { context := { useAuxiliaryStream, callRpcMsg } } with
      streamAllocationQueue := client.streamAllocationQueue ++ [c] } := by
  have hNotMem : c ∉ client.streamAllocationQueue := by
    intro hMem
    obtain ⟨call, _, _, hCall, _⟩ := h.fresh hMem
    rw [hNone] at hCall
    cases hCall
  refine ⟨?_, fun {i} hi => ?_⟩
  · refine nodup_append.mpr ⟨h.nodup, by simp, fun i hi j hj hij => hNotMem ?_⟩
    rw [← mem_singleton.mp hj, ← hij]
    exact hi
  · by_cases hc : i = c
    · subst hc
      exact ⟨_, callRpcMsg, useAuxiliaryStream, update_self .., rfl, rfl⟩
    · have hOld : i ∈ client.streamAllocationQueue :=
        (mem_append.mp hi).resolve_right (by simpa using hc)
      obtain ⟨call, m, u, hCall, hPoint, hContext⟩ := h.fresh hOld
      exact ⟨call, m, u, (update_of_ne hc ..).trans hCall, hPoint, hContext⟩

theorem queued_act {act : Act} (h : Queued client)
    (hAct : client.act deserialize act = some client') : Queued client' := by
  by_cases hPush : ∃ c callRpcMsg useAuxiliaryStream,
      act = .event (.push c callRpcMsg useAuxiliaryStream)
  · obtain ⟨c, callRpcMsg, useAuxiliaryStream, rfl⟩ := hPush
    rw [QuicClient.act, step] at hAct
    split at hAct
    · cases hAct
    · next hNew =>
      cases hAct
      exact queued_push h (by simpa using hNew) callRpcMsg useAuxiliaryStream
  · -- otherwise the queue is a part of what it was
    have hEffect := effect_of_act hAct
    have hSublist : client'.streamAllocationQueue.Sublist client.streamAllocationQueue := by
      rw [hEffect.queue]
      unfold Act.queueAfter
      split
      · exact absurd ⟨_, _, _, rfl⟩ hPush
      · exact tail_sublist _
      · exact List.Sublist.refl _
    exact ⟨h.nodup.sublist hSublist, fun hi => h.kept hEffect (hSublist.subset hi) hi⟩

/-- In every run, the calls in the queue wait. -/
theorem queued_acts {acts : List Act} (h : Queued client)
    (hActs : client.acts deserialize acts = some client') : Queued client' :=
  acts_induction queued_act h hActs

/-- Two calls, of which one gets a stream. -/
theorem queued_two_calls : Queued ((({ quicConnection := (), mainStream := none } :
    QuicClient Unit Bytes).acts some [.event (.push 0 [1] true), .event (.push 1 [2] true),
      .event (.allocate (some 5))]).get rfl) :=
  queued_acts ⟨List.nodup_nil, fun h => absurd h List.not_mem_nil⟩ (Option.some_get _).symm

/-! ## The pool as two numbers -/

/-- How many streams of the pool are not in use. -/
def freeStreams (streams : List Stream) : Nat := streams.countP fun stream => !stream.streamInUse

/-- Is there a stream for each of some calls? Each says if it wants an auxiliary stream, and what
`create_new_stream` returns if it comes to that. -/
def Supplied (hasMainStream : Bool) : Nat → Nat → List (Bool × Option Nat) → Prop
  | _, _, [] => True
  | free, total, (false, _) :: calls => hasMainStream = true ∧ Supplied hasMainStream free total calls
  | free + 1, total, (true, _) :: calls => Supplied hasMainStream free total calls
  | 0, total, (true, newStream) :: calls =>
    total ≠ MAX_STREAMS_PER_CONNECTION ∧ newStream.isSome = true ∧
      Supplied hasMainStream 0 (total + 1) calls

theorem getAvailableAuxiliaryStream_free (newStream : Option Nat) {streams : List Stream} {n : Nat}
    (hFree : freeStreams streams = n + 1) :
    ∃ streamId streams', getAvailableAuxiliaryStream newStream streams = some (streamId, streams') ∧
      freeStreams streams' = n ∧ streams'.length = streams.length := by
  cases hFind : streams.find? fun stream => !stream.streamInUse with
  | none =>
    have hNone : freeStreams streams = 0 := countP_eq_zero.mpr (find?_eq_none.mp hFind)
    omega
  | some stream =>
    unfold getAvailableAuxiliaryStream
    rw [hFind]
    refine ⟨stream.id, _, rfl, ?_, length_modifyFirst _ _ _⟩
    have hCount := countP_modifyFirst_of_unmade
      (f := fun stream : Stream => { stream with streamInUse := true }) (fun _ => rfl) hFind
    unfold freeStreams at hFree ⊢
    omega

theorem getAvailableAuxiliaryStream_none (newStream : Option Nat) {streams : List Stream}
    (hFree : freeStreams streams = 0) :
    getAvailableAuxiliaryStream newStream streams =
      if streams.length = MAX_STREAMS_PER_CONNECTION then none
      else newStream.map fun id => (id, ⟨id, true⟩ :: streams) := by
  have hFind : streams.find? (fun stream => !stream.streamInUse) = none :=
    find?_eq_none.mpr (countP_eq_zero.mp hFree)
  rw [getAvailableAuxiliaryStream, hFind]

/-! ## What becomes of the calls -/

/-- A call whose allocation is finished, and whose thread has not seen it yet. It has a stream if
the allocation succeeded, and its mutex is still locked if it did not. -/
structure AllocationDone (call : ClientCall Conn Msg) : Prop where
  point : call.point = .awaitsStream
  finished : call.context.streamAllocationFinished = true
  attached : call.context.allocatedStream.isSome = call.context.successfullyAllocatedStream
  locked : call.context.streamAllocatorLocked = !call.context.successfullyAllocatedStream

/-- **One round of the loop.** The allocation succeeds if there is a stream, and then leaves the
supply for the others. -/
theorem allocateStream_supplied (newStream : Option Nat) {callRpcMsg : Bytes}
    {useAuxiliaryStream : Bool} (hPoint : call.point = .awaitsStream)
    (hContext : call.context = { useAuxiliaryStream, callRpcMsg }) (client : QuicClient Conn Msg) :
    ∃ call', (client.allocateStream c call newStream).calls =
        update client.calls c (some call') ∧ AllocationDone call' ∧
      (client.allocateStream c call newStream).mainStream = client.mainStream ∧
      (client.allocateStream c call newStream).streamAllocationQueue =
        client.streamAllocationQueue ∧
      ∀ calls, Supplied client.mainStream.isSome (freeStreams client.auxiliaryStreams)
          client.auxiliaryStreams.length ((useAuxiliaryStream, newStream) :: calls) ↔
        call'.context.successfullyAllocatedStream = true ∧
        Supplied client.mainStream.isSome
          (freeStreams (client.allocateStream c call newStream).auxiliaryStreams)
          (client.allocateStream c call newStream).auxiliaryStreams.length calls := by
  obtain ⟨context, point, sends, reply⟩ := call
  dsimp only at hPoint hContext
  subst hContext hPoint
  unfold allocateStream
  cases useAuxiliaryStream with
  | false =>
    dsimp only
    rw [if_neg Bool.false_ne_true]
    cases hMain : client.mainStream with
    | none =>
      refine ⟨_, rfl, ⟨rfl, rfl, rfl, rfl⟩, hMain, rfl, fun calls => ?_⟩
      simp [Supplied]
    | some streamId =>
      refine ⟨_, rfl, ⟨rfl, rfl, rfl, rfl⟩, hMain, rfl, fun calls => ?_⟩
      simp [Supplied, allocated, setCall]
  | true =>
    dsimp only
    rw [if_pos rfl]
    cases hFree : freeStreams client.auxiliaryStreams with
    | succ n =>
      -- a stream of the pool
      obtain ⟨streamId, streams, hGet, hLess, hLength⟩ :=
        getAvailableAuxiliaryStream_free newStream hFree
      rw [hGet]
      refine ⟨_, rfl, ⟨rfl, rfl, rfl, rfl⟩, rfl, rfl, fun calls => ?_⟩
      simp [Supplied, allocated, setCall, hLess, hLength]
    | zero =>
      rw [getAvailableAuxiliaryStream_none newStream hFree]
      by_cases hMax : client.auxiliaryStreams.length = MAX_STREAMS_PER_CONNECTION
      · rw [if_pos hMax]
        refine ⟨_, rfl, ⟨rfl, rfl, rfl, rfl⟩, rfl, rfl, fun calls => ?_⟩
        simp [Supplied, hMax]
      · rw [if_neg hMax]
        cases newStream with
        | none =>
          refine ⟨_, rfl, ⟨rfl, rfl, rfl, rfl⟩, rfl, rfl, fun calls => ?_⟩
          simp [Supplied]
        | some id =>
          -- a new stream, which is in use at once
          have hSame : freeStreams (⟨id, true⟩ :: client.auxiliaryStreams) = 0 := by
            rw [← hFree]
            exact countP_cons_of_neg (by simp)
          refine ⟨_, rfl, ⟨rfl, rfl, rfl, rfl⟩, rfl, rfl, fun calls => ?_⟩
          simp [Supplied, allocated, setCall, hMax, hSame]

/-- What a call of the queue asks for. -/
def request (client : QuicClient Conn Msg) (newStream : Nat → Option Nat) (c : Nat) :
    Bool × Option Nat :=
  (((client.calls c).map fun call => call.context.useAuxiliaryStream).getD false, newStream c)

/-- The allocation of a call was finished, with a stream. -/
def Supplies (client : QuicClient Conn Msg) (c : Nat) : Prop :=
  ∃ call, client.calls c = some call ∧ call.context.successfullyAllocatedStream = true

/-- The front of the queue is handled: the others are as they were. -/
theorem Queued.rest {next : QuicClient Conn Msg} {queue : List Nat} (h : Queued client)
    (hQueue : client.streamAllocationQueue = c :: queue)
    (hCalls : next.calls = update client.calls c (some call))
    (hRest : next.streamAllocationQueue = queue) :
    (∀ {i}, i ∈ queue → next.calls i = client.calls i) ∧ Queued next := by
  obtain ⟨hNotMem, hNodup⟩ := nodup_cons.mp (hQueue ▸ h.nodup)
  have hOther : ∀ {i}, i ∈ queue → next.calls i = client.calls i := by
    intro i hi
    have hne : i ≠ c := fun hEq => hNotMem (hEq ▸ hi)
    rw [hCalls, update_of_ne hne]
  refine ⟨hOther, hRest ▸ hNodup, fun {i} hi => ?_⟩
  rw [hRest] at hi
  rw [hOther hi]
  exact h.fresh (hQueue ▸ mem_cons_of_mem _ hi)

/-- **The loop.** The queue is empty afterwards and the allocation of all its calls finished, and
all of them have a stream exactly if there was one for each. -/
theorem allocateQueue_spec (newStream : Nat → Option Nat) {queue : List Nat} (h : Queued client)
    (hQueue : client.streamAllocationQueue = queue) :
    (allocateQueue newStream queue client).streamAllocationQueue = [] ∧
    (∀ c ∉ queue, (allocateQueue newStream queue client).calls c = client.calls c) ∧
    (∀ c ∈ queue, ∃ call, (allocateQueue newStream queue client).calls c = some call ∧
      AllocationDone call) ∧
    ((∀ c ∈ queue, Supplies (allocateQueue newStream queue client) c) ↔
      Supplied client.mainStream.isSome (freeStreams client.auxiliaryStreams)
        client.auxiliaryStreams.length (queue.map (client.request newStream))) := by
  induction queue generalizing client with
  | nil =>
    refine ⟨hQueue, fun _ _ => rfl, fun c hc => (by cases hc), ?_⟩
    simp [Supplied]
  | cons c queue ih =>
    have hNotMem := (nodup_cons.mp (hQueue ▸ h.nodup)).1
    obtain ⟨call, callRpcMsg, useAuxiliaryStream, hCall, hPoint, hContext⟩ :=
      h.fresh (hQueue ▸ mem_cons_self)
    obtain ⟨call', hCalls, hDone, hMain, hRest, hSupplied⟩ :=
      @allocateStream_supplied _ _ c call (newStream c) callRpcMsg useAuxiliaryStream hPoint hContext
        { client with streamAllocationQueue := queue }
    rw [allocateQueue, hCall]
    dsimp only
    generalize ({ client with streamAllocationQueue := queue } : QuicClient Conn Msg).allocateStream
      c call (newStream c) = next at hCalls hMain hRest hSupplied
    dsimp only at hCalls hMain hRest hSupplied
    obtain ⟨hOther, hNext⟩ := h.rest hQueue hCalls hRest
    obtain ⟨hEmpty, hSame, hAll, hIff⟩ := ih hNext hRest
    have hFirst : (allocateQueue newStream queue next).calls c = some call' := by
      rw [hSame c hNotMem, hCalls, update_self]
    refine ⟨hEmpty, ?_, ?_, ?_⟩
    · intro i hi
      rw [mem_cons, not_or] at hi
      rw [hSame i hi.2, hCalls, update_of_ne hi.1]
    · intro i hi
      rcases mem_cons.mp hi with rfl | hMem
      · exact ⟨call', hFirst, hDone⟩
      · exact hAll i hMem
    · have hRequest : client.request newStream c = (useAuxiliaryStream, newStream c) := by
        rw [request, hCall, map_some, getD_some, hContext]
      have hRequests : queue.map (client.request newStream) = queue.map (next.request newStream) := by
        refine map_congr_left fun i hi => ?_
        rw [request, request, hOther hi]
      have hSupplies : Supplies (allocateQueue newStream queue next) c ↔
          call'.context.successfullyAllocatedStream = true := by
        unfold Supplies
        rw [hFirst]
        simp
      rw [map_cons, hRequest, hSupplied, hRequests, forall_mem_cons, hSupplies, hIff, hMain]

/-! ## The threads that wait -/

/-- The allocation of a call is finished, its mutex free, and it has a stream if the allocation
succeeded; so its thread can go on, and returns NULL if there was no stream. -/
def AllocationAnswered (deserialize : Bytes → Option Msg) (client : QuicClient Conn Msg)
    (c : Nat) : Prop :=
  ∃ call, client.calls c = some call ∧ call.context.streamAllocationFinished = true ∧
    call.context.streamAllocatorLocked = false ∧
    (call.context.allocatedStream.isSome ↔ call.context.successfullyAllocatedStream = true) ∧
    ∃ next, client.step deserialize (.addContext c) = some next ∧
      (next.calls c).map ClientCall.point = some
        (if call.context.successfullyAllocatedStream then .awaitsReply else .returned none)

theorem answered_iff (hCall : client.calls c = some call) (hDone : AllocationDone call) :
    AllocationAnswered deserialize client c ↔ Supplies client c := by
  constructor
  · rintro ⟨found, hFound, -, hFree, -⟩
    cases hCall.symm.trans hFound
    refine ⟨call, hCall, ?_⟩
    rw [hDone.locked] at hFree
    simpa using hFree
  · rintro ⟨found, hFound, hSuccess⟩
    cases hCall.symm.trans hFound
    have hFree : call.context.streamAllocatorLocked = false := by
      rw [hDone.locked, hSuccess]
      rfl
    refine ⟨call, hCall, hDone.finished, hFree, by rw [hDone.attached],
      { client.setCall c { call with point := .awaitsReply } with
        streamContexts := if client.streamContextsListLocked then client.streamContexts
          else c :: client.streamContexts }, ?_, ?_⟩
    · rw [step, hCall, bind_eq_bind, bind_some, hDone.point]
      dsimp only
      rw [if_pos (by rw [hDone.finished, hFree]; rfl), if_pos hSuccess]
    · simp [setCall, hSuccess]

/-- **Does the allocator answer?** Whatever is in the pool and in the queue, the queue is empty
after the callback; and every call of it is answered exactly if there is a stream for each. -/
theorem stream_allocation_answers_iff (deserialize : Bytes → Option Msg)
    (newStream : Nat → Option Nat) (client : QuicClient Conn Msg) (hQueued : Queued client) :
    ((client.asyncStreamAllocatorCallback newStream).streamAllocationQueue = [] ∧
      ∀ c ∈ client.streamAllocationQueue,
        AllocationAnswered deserialize (client.asyncStreamAllocatorCallback newStream) c) ↔
    Supplied client.mainStream.isSome (freeStreams client.auxiliaryStreams)
      client.auxiliaryStreams.length (client.streamAllocationQueue.map (client.request newStream)) := by
  obtain ⟨hEmpty, -, hAll, hIff⟩ := allocateQueue_spec newStream hQueued rfl
  unfold asyncStreamAllocatorCallback
  rw [← hIff]
  have hEach : ∀ c ∈ client.streamAllocationQueue,
      (AllocationAnswered deserialize
        (allocateQueue newStream client.streamAllocationQueue client) c ↔
      Supplies (allocateQueue newStream client.streamAllocationQueue client) c) := by
    intro c hc
    obtain ⟨call, hCall, hDone⟩ := hAll c hc
    exact answered_iff hCall hDone
  constructor
  · rintro ⟨-, hAnswered⟩ c hc
    exact (hEach c hc).mp (hAnswered c hc)
  · intro hSupplies
    exact ⟨hEmpty, fun c hc => (hEach c hc).mpr (hSupplies c hc)⟩

/-- A thread that needs a mutex nobody will unlock. -/
def Stuck (client : QuicClient Conn Msg) (c : Nat) : Prop :=
  ∃ call, client.calls c = some call ∧ call.point = .awaitsStream ∧
    call.context.streamAllocatorLocked = true

theorem stuck_act {act : Act} (h : Stuck client c)
    (hAct : client.act deserialize act = some client') : Stuck client' c := by
  obtain ⟨call, hCall, hPoint, hLocked⟩ := h
  rcases (effect_of_act hAct).becomes hCall with hSame | ⟨call', hCall', hChange⟩
  · exact ⟨call, hSame, hPoint, hLocked⟩
  · refine ⟨call', hCall', ?_⟩
    cases hChange with
    | allocated => exact ⟨hPoint, hLocked⟩
    | unallocated => exact ⟨hPoint, rfl⟩
    | sent | unsent | replied | read | noMemory => exact ⟨hPoint, hLocked⟩
    -- the thread does not get the mutex
    | proceeded point _ _ hFree => rw [hLocked] at hFree; cases hFree
    | decoded hOther => rw [hPoint] at hOther; cases hOther
    | removed result hOther => rw [hPoint] at hOther; cases hOther
    | released result hOther => rw [hPoint] at hOther; cases hOther

theorem stuck_acts {acts : List Act} (h : Stuck client c)
    (hActs : client.acts deserialize acts = some client') : Stuck client' c :=
  acts_induction stuck_act h hActs

/-- Two calls are queued; `streams` are the auxiliary streams. -/
def Sample.queued (streams : List Stream) : QuicClient Unit Bytes where
  quicConnection := ()
  mainStream := some 0
  auxiliaryStreams := streams
  streamAllocationQueue := [0, 1]
  calls
    | 0 => some { context := { useAuxiliaryStream := true, callRpcMsg := [1] } }
    | 1 => some { context := { useAuxiliaryStream := true, callRpcMsg := [2] } }
    | _ => none

theorem Sample.queued_queued (streams : List Stream) : Queued (Sample.queued streams) := by
  refine ⟨(by decide : [0, 1].Nodup), fun {i} hi => ?_⟩
  rcases mem_cons.mp hi with rfl | hi
  · exact ⟨_, [1], true, rfl, rfl, rfl⟩
  · obtain rfl := mem_singleton.mp hi
    exact ⟨_, [2], true, rfl, rfl, rfl⟩

/-- A pool of ten streams, of which the first `n` are in use. -/
def Sample.pool (n : Nat) : List Stream := (List.range 10).map fun k => ⟨4 * (k + 1), k < n⟩

theorem stream_allocation_answers_two :
    ((Sample.queued (Sample.pool 8)).asyncStreamAllocatorCallback fun _ => none).streamAllocationQueue
        = [] ∧
      ∀ c ∈ [0, 1], AllocationAnswered some
        ((Sample.queued (Sample.pool 8)).asyncStreamAllocatorCallback fun _ => none) c :=
  (stream_allocation_answers_iff some (fun _ => none) (Sample.queued (Sample.pool 8))
    (Sample.queued_queued _)).mpr trivial

/-- **A call that waits for ever.** All but one of ten streams are in use, so the second call of
the queue gets none. Its allocation is finished, but its mutex stays locked, and whatever the
threads, the callbacks and the server do then, its thread does not go on. -/
theorem stream_allocation_stuck :
    Queued (Sample.queued (Sample.pool 9)) ∧
    ¬AllocationAnswered some
      ((Sample.queued (Sample.pool 9)).asyncStreamAllocatorCallback fun _ => some 44) 1 ∧
    ∀ acts client, ((Sample.queued (Sample.pool 9)).asyncStreamAllocatorCallback fun _ =>
        some 44).acts some acts = some client →
      ∃ call, client.calls 1 = some call ∧ call.point = .awaitsStream := by
  have hCall : (((Sample.queued (Sample.pool 9)).asyncStreamAllocatorCallback fun _ =>
      some 44).calls 1).map (fun call => (call.point, call.context.streamAllocatorLocked)) =
        some (.awaitsStream, true) := by decide +kernel
  obtain ⟨call, hFound, hEq⟩ := map_eq_some_iff.mp hCall
  obtain ⟨hPoint, hLocked⟩ := Prod.mk.inj hEq
  refine ⟨Sample.queued_queued _, ?_, ?_⟩
  · rintro ⟨other, hOther, -, hFree, -⟩
    cases hFound.symm.trans hOther
    rw [hLocked] at hFree
    cases hFree
  · intro acts client hActs
    obtain ⟨last, hLast, hWaits, -⟩ := stuck_acts ⟨call, hFound, hPoint, hLocked⟩ hActs
    exact ⟨last, hLast, hWaits⟩

end QuicClient

end QuicNfs.Transport
