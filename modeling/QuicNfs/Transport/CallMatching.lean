import Mathlib.Data.List.Nodup
import QuicNfs.Transport.CallInvariant
import QuicNfs.Transport.ClientSteps

/-!
# QuicNfs — matching replies with calls

Whatever the order in which the threads of the calls, the event loop and the
server take their steps, each reply ends up with the call it answers.

* `inv_step`, `inv_run` — every step keeps the invariant, and so does every run;
* `quic_call_reply_matching` — what follows for the calls.
-/

namespace QuicNfs.Transport.QuicClient

open Kernel Lib RecordMarkingReceivingContext List Option Function

variable {Conn Msg : Type} {deserialize : Bytes → Option Msg}
  {client client' : QuicClient Conn Msg} {c : Nat} {call : ClientCall Conn Msg}

/-! ## Allocation -/

theorem inv_push (h : Inv deserialize client) (hNew : client.calls c = none) (callRpcMsg : Bytes) :
    Inv deserialize
      { client.setCall c { context := { useAuxiliaryStream := true, callRpcMsg } } with
        streamAllocationQueue := client.streamAllocationQueue ++ [c] } := by
  have hUnknown : c ∉ client.streamAllocationQueue ∧ c ∉ client.streamContexts := by
    rw [← not_or]
    intro hMem
    have := h.known hMem
    rw [hNew] at this
    cases this
  have hNone : ∀ streamId, ¬client.HeldBy c streamId := by
    rintro streamId ⟨call, hCall, _⟩
    rw [hNew] at hCall
    cases hCall
  refine h.frame ⟨rfl, rfl, rfl, ?_, fun _ => Iff.rfl, fun hUse _ => hUse, fun _ => rfl, ?_, ?_⟩ ?_
    h.ids h.count ?_ h.contexts
  · intro c' hne
    simp [hne]
  · rintro streamId ⟨hStream, _⟩
    cases hStream
  · intro streamId hHeld
    exact absurd hHeld (hNone streamId)
  · refine ⟨rfl, by simp, ?_, fun _ => rfl, rfl, fun hReg => hReg.elim, fun _ => ⟨rfl, rfl, rfl⟩,
      ?_, ?_, .inl ⟨rfl, rfl, rfl⟩, fun hAnswered => hAnswered.elim, fun hResult => by cases hResult⟩
    · exact iff_of_false hUnknown.2 id
    · rintro streamId ⟨hStream, _⟩
      cases hStream
    · rintro streamId ⟨hStream, _⟩
      cases hStream
  · rw [nodup_append]
    refine ⟨h.queue, by simp, ?_⟩
    rintro a ha b hb rfl
    exact hUnknown.1 (mem_singleton.mp hb ▸ ha)

/-- What `get_available_auxiliary_stream` does to a pool of streams with different
ids: the stream was not in use and is now; those in use are still there. -/
structure Taken (streams streams' : List Stream) (streamId : Nat) : Prop where
  ids : (streams'.map Stream.id).Nodup
  count : streams'.length ≤ MAX_STREAMS_PER_CONNECTION
  taken : ⟨streamId, true⟩ ∈ streams'
  unused {other} : other ∈ streams → other.id = streamId → other.streamInUse = false
  kept {other} : other ∈ streams → other.streamInUse = true → other ∈ streams'

variable {streamId : Nat} {reads : List Bytes}

theorem taken_getAvailableAuxiliaryStream {newStream : Option Nat}
    {streams streams' : List Stream} (hIds : (streams.map Stream.id).Nodup)
    (hCount : streams.length ≤ MAX_STREAMS_PER_CONNECTION)
    (hFresh : ∀ id ∈ newStream, id ∉ streams.map Stream.id)
    (h : getAvailableAuxiliaryStream newStream streams = some (streamId, streams')) :
    Taken streams streams' streamId := by
  unfold getAvailableAuxiliaryStream at h
  split at h
  · -- a free stream of the pool
    next stream hFind =>
    cases h
    have hMem := mem_of_find?_eq_some hFind
    have hFree : stream.streamInUse = false := by simpa using find?_some hFind
    have hSame : (modifyFirst (fun stream => !stream.streamInUse)
        (fun stream => { stream with streamInUse := true }) streams).map Stream.id =
          streams.map Stream.id := map_modifyFirst (by intro _; rfl) streams
    refine ⟨hSame ▸ hIds, ?_, mem_modifyFirst_self hFind, fun hOther hId => ?_, fun hOther hUse => ?_⟩
    · have hLength := congrArg length hSame
      rw [length_map, length_map] at hLength
      exact hLength ▸ hCount
    · -- two streams of one id are one
      rw [inj_on_of_nodup_map hIds hOther hMem hId]
      exact hFree
    · exact mem_modifyFirst_of_not hOther (by simp [hUse])
  · split at h
    · cases h
    · -- a new stream
      next hLess =>
      obtain ⟨id, hNew, hEq⟩ := map_eq_some_iff.mp h
      cases hEq
      have hNotMem := hFresh streamId hNew
      refine ⟨?_, ?_, by simp, fun hOther hId => ?_, fun hOther _ => mem_cons_of_mem _ hOther⟩
      · rw [map_cons, nodup_cons]
        exact ⟨hNotMem, hIds⟩
      · rw [length_cons]
        exact Nat.lt_of_le_of_ne hCount hLess
      · exact absurd (hId ▸ mem_map_of_mem hOther) hNotMem

theorem not_holds_of_unallocated (hStream : call.context.allocatedStream = none) (streamId : Nat) :
    ¬call.Holds streamId := by
  rintro ⟨hSome, -⟩
  rw [hStream] at hSome
  cases hSome

theorem inv_allocate (h : Inv deserialize client) {queue : List Nat}
    (hQueue : client.streamAllocationQueue = c :: queue) (hCall : client.calls c = some call)
    {newStream : Option Nat} (hFresh : ∀ id ∈ newStream, id ∉ client.auxiliaryStreams.map Stream.id) :
    Inv deserialize
      ({ client with streamAllocationQueue := queue }.allocateStream c call newStream) := by
  have hOk := h.ok hCall
  obtain ⟨-, hPending⟩ := hOk.queued.mp (by rw [hQueue]; simp)
  have hNodup := h.queue
  rw [hQueue, nodup_cons] at hNodup
  have hStream := hOk.unallocated hPending
  have hNot := not_holds_of_unallocated hStream
  have hOthers : ∀ {c'}, c' ≠ c → (c' ∈ queue ↔ c' ∈ client.streamAllocationQueue) := by
    intro c' hne
    rw [hQueue, mem_cons]
    exact ⟨Or.inr, fun hMem => hMem.resolve_left hne⟩
  unfold allocateStream
  rw [if_pos hOk.auxiliary]
  split
  · -- no stream: the call keeps waiting
    refine h.frame ⟨rfl, rfl, rfl, hOthers, fun _ => Iff.rfl, fun hUse _ => hUse, fun _ => rfl,
      fun hHolds => absurd hHolds (hNot _),
      fun hHeld => absurd ((heldBy_iff hCall).mp hHeld) (hNot _)⟩ ?_ h.ids h.count hNodup.2 h.contexts
    exact { hOk with
      queued := iff_of_false hNodup.1 (by simp)
      unallocated := by simp
      allocated := by simp [hStream]
      held := fun hHolds => absurd hHolds (hNot _)
      exchange := fun hHolds => absurd hHolds (hNot _) }
  · next streamId streams hGet =>
    have hSent : call.context.attemptedCallRpcMsgSend = false ∧
        call.context.callRpcMsgSuccessfullySent = false ∧ call.sends = [] := by
      rcases hOk.sends with hNothing | ⟨_, id, hSome, _⟩
      · exact hNothing
      · rw [hStream] at hSome
        cases hSome
    have hTaken := taken_getAvailableAuxiliaryStream h.ids h.count hFresh hGet
    have hNobody : ∀ c', ¬client.HeldBy c' streamId := by
      rintro c' ⟨call', hCall', hHolds⟩
      obtain ⟨other, hOther, hId, hUse⟩ := (h.ok hCall').held hHolds
      rw [hTaken.unused hOther hId] at hUse
      cases hUse
    refine h.frame ⟨rfl, rfl, rfl, hOthers, fun _ => Iff.rfl, ?_, fun _ => rfl, ?_, ?_⟩ ?_ hTaken.ids
      hTaken.count hNodup.2 h.contexts
    · rintro id ⟨other, hOther, hSame, hUse⟩ _
      exact ⟨other, hTaken.kept hOther hUse, hSame, hUse⟩
    · rintro id ⟨hSome, _⟩
      cases hSome
      exact .inr hNobody
    · exact fun hHeld => absurd ((heldBy_iff hCall).mp hHeld) (hNot _)
    · obtain ⟨hReply, hNoContext, hFinished⟩ := hOk.untouched hStream
      refine { hOk with
        queued := iff_of_false hNodup.1 (by simp)
        unallocated := by simp
        allocated := rfl
        hasStream := fun _ => rfl
        untouched := by simp
        held := ?_
        exchange := ?_
        sends := .inl hSent }
      · rintro id ⟨hSome, _⟩
        cases hSome
        exact ⟨_, hTaken.taken, rfl, rfl⟩
      · rintro id ⟨hSome, _⟩
        cases hSome
        show Exchange _ _ _ _ (client.lines streamId)
        rw [h.empty hNobody]
        refine .quiet hReply ?_ hFinished
        simp [ClientCall.receiving, hNoContext]

/-! ## The thread of a call -/

theorem inv_addContext (h : Inv deserialize client) (hCall : client.calls c = some call)
    (hPoint : call.point = .awaitsStream) (hFinished : call.context.streamAllocationFinished = true) :
    Inv deserialize (if call.context.successfullyAllocatedStream then
      { client.setCall c { call with point := .awaitsReply } with
        streamContexts := if client.streamContextsListLocked then client.streamContexts
          else c :: client.streamContexts }
      else client.setCall c { call with point := .returned none }) := by
  have hOk := h.ok hCall
  have hUnqueued : c ∉ client.streamAllocationQueue := by
    rw [hOk.queued, hFinished]
    simp
  have hUnregistered : c ∉ client.streamContexts := by
    rw [hOk.registered, hPoint]
    exact id
  have hUnfinished : call.point.Unfinished := by rw [hPoint]; trivial
  have hAllocated := hOk.allocated
  rw [h.unlocked, if_neg Bool.false_ne_true]
  split
  · next hSuccess =>
    rw [hSuccess] at hAllocated
    refine h.frame ⟨rfl, rfl, rfl, fun _ => Iff.rfl, fun hne => by simp [hne], fun hUse _ => hUse,
      fun _ => rfl, fun hHolds => .inl ⟨call, hCall, hHolds.1, hUnfinished⟩, fun hBefore hNot => ?_⟩
      ?_ h.ids h.count h.queue (nodup_cons.mpr ⟨hUnregistered, h.contexts⟩)
    · exact absurd ⟨((heldBy_iff hCall).mp hBefore).1, trivial⟩ hNot
    · exact { hOk with
        queued := iff_of_false hUnqueued (by simp)
        registered := by simp [Point.Registered]
        hasStream := fun _ => hAllocated
        held := fun hHolds => hOk.held ⟨hHolds.1, hUnfinished⟩
        exchange := fun hHolds => (hOk.exchange ⟨hHolds.1, hUnfinished⟩).congr rfl rfl
        finished := fun hAnswered => hAnswered.elim
        result := by rintro m ⟨⟩ }
  · next hFailed =>
    -- without a stream the call just returns
    have hNone : call.context.allocatedStream = none := by
      rw [Bool.not_eq_true] at hFailed
      rw [hFailed] at hAllocated
      simpa using hAllocated
    refine h.frame ⟨rfl, rfl, rfl, fun _ => Iff.rfl, fun _ => Iff.rfl, fun hUse _ => hUse, fun _ => rfl,
      fun hHolds => hHolds.2.elim, fun hBefore _ => ?_⟩ ?_ h.ids h.count h.queue h.contexts
    · exact absurd ((heldBy_iff hCall).mp hBefore) (not_holds_of_unallocated hNone _)
    · exact { hOk with
        queued := iff_of_false hUnqueued (by simp)
        registered := iff_of_false hUnregistered id
        hasStream := fun hReg => hReg.elim
        held := fun hHolds => hHolds.2.elim
        exchange := fun hHolds => hHolds.2.elim
        finished := fun hAnswered => hAnswered.elim
        result := by rintro m ⟨⟩ }

/-- A call changes, and the line of the stream it holds. -/
theorem Inv.change (h : Inv deserialize client) (hCall : client.calls c = some call)
    (hHolds : call.Holds streamId) (call' : ClientCall Conn Msg)
    (hStream : call'.context.allocatedStream = some streamId)
    (hUnfinished : call'.point.Unfinished) {line : Line}
    (hOk : CallOk deserialize ((client.setCall c call').setLine streamId line) c call') :
    Inv deserialize ((client.setCall c call').setLine streamId line) := by
  refine h.frame ⟨rfl, rfl, rfl, fun _ => Iff.rfl, fun _ => Iff.rfl, fun hUse _ => hUse, fun hNot => ?_,
    fun hHolds' => ?_, fun hBefore hNot => ?_⟩ hOk h.ids h.count h.queue h.contexts
  · refine update_of_ne (fun hEq => hNot ?_) _ _
    exact hEq ▸ ⟨hStream, hUnfinished⟩
  · cases hStream.symm.trans hHolds'.1
    exact .inl ⟨call, hCall, hHolds⟩
  · cases hHolds.1.symm.trans ((heldBy_iff hCall).mp hBefore).1
    exact absurd ⟨hStream, hUnfinished⟩ hNot

theorem setLine_self (client : QuicClient Conn Msg) (streamId : Nat) :
    client.setLine streamId (client.lines streamId) = client := by
  unfold setLine
  rw [update_eq_self]

theorem inv_decode (h : Inv deserialize client) (hCall : client.calls c = some call)
    (hPoint : call.point = .awaitsReply) (hFinished : call.context.finished = true) :
    Inv deserialize (client.setCall c { call with
      point := .decoded (replyOf deserialize call.context) }) := by
  have hOk := h.ok hCall
  obtain ⟨streamId, hStream⟩ := isSome_iff_exists.mp (hOk.hasStream (by rw [hPoint]; trivial))
  have hHolds : call.Holds streamId := ⟨hStream, by rw [hPoint]; trivial⟩
  have hExchange := hOk.exchange hHolds
  -- the reply was read to its end
  obtain ⟨record, hReply, hResult⟩ : ∃ record, call.reply = some record ∧
      replyOf deserialize call.context = deserialize record := by
    generalize client.lines streamId = line at hExchange
    cases hExchange with
    | quiet _ _ hNot | asked _ _ _ hNot | replied _ _ _ hNot => cases hFinished.symm.trans hNot
    | complete hSent hReply hReceived hContext hCompleted _ =>
      refine ⟨_, hReply, ?_⟩
      simp [replyOf, hSent, hReceived, hContext, hCompleted.2]
  rw [← setLine_self (client.setCall c _) streamId]
  refine h.change hCall hHolds
    { call with point := .decoded (replyOf deserialize call.context) } hStream trivial ?_
  rw [setLine_self]
  have hRegistered : c ∈ client.streamContexts ↔ True := by
    rw [hOk.registered, hPoint]
    exact Iff.rfl
  exact { hOk with
    queued := iff_of_false (hOk.unqueued (by simp [hPoint])) (by simp)
    registered := hRegistered
    hasStream := fun _ => hOk.hasStream (by rw [hPoint]; trivial)
    held := fun hHolds' => hOk.held ⟨hHolds'.1, hHolds.2⟩
    exchange := fun hHolds' => (hOk.exchange ⟨hHolds'.1, hHolds.2⟩).congr rfl rfl
    finished := fun _ => hFinished
    result := fun hSome => ⟨record, hReply, hResult.symm.trans hSome⟩ }

/-- The context that is removed is the one of the call: no other has the stream. -/
theorem removeStreamContext_eq_erase {contexts : List Nat}
    (hContexts : ∀ c' ∈ contexts, ∃ call' id, client.calls c' = some call' ∧
      call'.context.allocatedStream = some id ∧ (id = streamId ↔ c' = c)) :
    client.removeStreamContext streamId contexts = contexts.erase c := by
  induction contexts with
  | nil => rfl
  | cons c' contexts ih =>
    obtain ⟨call', id, hCall', hStream, hSame⟩ := hContexts c' (by simp)
    rw [removeStreamContext, hCall', bind_some, hStream]
    dsimp only
    by_cases hId : id = streamId
    · obtain rfl := hSame.mp hId
      rw [if_pos hId, erase_cons_head]
    · have hne : c' ≠ c := fun hEq => hId (hSame.mpr hEq)
      rw [if_neg hId, erase_cons_tail (by simpa using hne),
        ih fun d hd => hContexts d (mem_cons_of_mem _ hd)]

theorem inv_removeContext (h : Inv deserialize client) (hCall : client.calls c = some call)
    (hStream : call.context.allocatedStream = some streamId) {result : Option Msg}
    (hPoint : call.point = .decoded result) :
    Inv deserialize { client.setCall c { call with point := .removed result } with
      streamContexts := client.removeStreamContext streamId client.streamContexts } := by
  have hOk := h.ok hCall
  have hHolds : call.Holds streamId := ⟨hStream, by rw [hPoint]; trivial⟩
  have hErase : client.removeStreamContext streamId client.streamContexts =
      client.streamContexts.erase c := by
    refine removeStreamContext_eq_erase fun c' hMem => ?_
    obtain ⟨call', hCall'⟩ := isSome_iff_exists.mp (h.known (.inr hMem))
    have hRegistered := (h.ok hCall').registered.mp hMem
    obtain ⟨id, hId⟩ := isSome_iff_exists.mp ((h.ok hCall').hasStream hRegistered)
    have hUnfinished := hRegistered.unfinished
    refine ⟨call', id, hCall', hId, ?_, ?_⟩
    · rintro rfl
      exact h.unique ⟨call', hCall', hId, hUnfinished⟩ ⟨call, hCall, hHolds⟩
    · rintro rfl
      cases hCall.symm.trans hCall'
      exact some.inj (hId.symm.trans hStream)
  rw [hErase]
  refine h.frame ⟨rfl, rfl, rfl, fun _ => Iff.rfl, fun hne => mem_erase_of_ne hne,
    fun hUse _ => hUse, fun _ => rfl, fun hHolds' => .inl ⟨call, hCall, hHolds'.1, hHolds.2⟩,
    fun hBefore hNot => ?_⟩ ?_ h.ids h.count h.queue (h.contexts.erase c)
  · exact absurd ⟨((heldBy_iff hCall).mp hBefore).1, trivial⟩ hNot
  · exact { hOk with
      queued := iff_of_false (hOk.unqueued (by simp [hPoint])) (by simp)
      registered := iff_of_false (fun hMem => (h.contexts.mem_erase_iff.mp hMem).1 rfl) id
      hasStream := fun hReg => hReg.elim
      held := fun hHolds' => hOk.held ⟨hHolds'.1, hHolds.2⟩
      exchange := fun hHolds' => (hOk.exchange ⟨hHolds'.1, hHolds.2⟩).congr rfl rfl
      finished := fun _ => hOk.finished (by rw [hPoint]; trivial)
      result := fun hSome => hOk.result (by rw [hPoint]; exact hSome) }

theorem inv_release (h : Inv deserialize client) (hCall : client.calls c = some call)
    (hStream : call.context.allocatedStream = some streamId) {result : Option Msg}
    (hPoint : call.point = .removed result) :
    Inv deserialize { client.setCall c { call with point := .returned result } with
      auxiliaryStreams := modifyFirst (fun stream => stream.id = streamId)
        (fun stream => { stream with streamInUse := false }) client.auxiliaryStreams } := by
  have hOk := h.ok hCall
  have hHolds : call.Holds streamId := ⟨hStream, by rw [hPoint]; trivial⟩
  have hFinished := hOk.finished (by rw [hPoint]; trivial)
  -- the exchange is complete, so nothing is left on the stream
  have hEmpty : client.lines streamId = {} := (hOk.exchange hHolds).line_of_finished hFinished
  have hIds : (modifyFirst (fun stream => stream.id = streamId)
      (fun stream => { stream with streamInUse := false }) client.auxiliaryStreams).map Stream.id =
        client.auxiliaryStreams.map Stream.id := map_modifyFirst (by intro _; rfl) _
  refine h.frame ⟨rfl, rfl, rfl, fun _ => Iff.rfl, fun _ => Iff.rfl, ?_, fun _ => rfl,
    fun hHolds' => hHolds'.2.elim, ?_⟩ ?_ (hIds ▸ h.ids) ?_ h.queue h.contexts
  · rintro id ⟨other, hOther, hId, hUse⟩ hNot
    refine ⟨other, mem_modifyFirst_of_not hOther ?_, hId, hUse⟩
    rw [decide_eq_false_iff_not]
    rintro rfl
    exact hNot (hId ▸ ⟨call, hCall, hHolds⟩)
  · intro id hBefore _
    cases hStream.symm.trans ((heldBy_iff hCall).mp hBefore).1
    exact hEmpty
  · have hUnregistered : c ∉ client.streamContexts := by
      rw [hOk.registered, hPoint]
      exact id
    exact { hOk with
      queued := iff_of_false (hOk.unqueued (by simp [hPoint])) (by simp)
      registered := iff_of_false hUnregistered id
      hasStream := fun hReg => hReg.elim
      held := fun hHolds' => hHolds'.2.elim
      exchange := fun hHolds' => hHolds'.2.elim
      finished := fun hAnswered => hAnswered.elim
      result := fun hSome => hOk.result (by rw [hPoint]; exact hSome) }
  · have := congrArg length hIds
    rw [length_map, length_map] at this
    exact this ▸ h.count

/-! ## Callbacks and the server -/

theorem inv_writable (h : Inv deserialize client) (streamId : Nat) :
    Inv deserialize (client.clientOnStreamWritable streamId 0) := by
  unfold clientOnStreamWritable
  split
  · exact h
  · next c call hFind =>
    obtain ⟨hMem, hCall, hStream⟩ := findStreamContext_spec hFind
    have hOk := h.ok hCall
    have hHolds : call.Holds streamId := ⟨hStream, (hOk.registered.mp hMem).unfinished⟩
    rw [if_neg (not_not.mpr hStream)]
    split
    · exact h
    · next hAttempted =>
      obtain ⟨hNotSent, hSends⟩ : call.context.callRpcMsgSuccessfullySent = false ∧ call.sends = [] := by
        rcases hOk.sends with ⟨_, hNothing⟩ | ⟨hDone, _⟩
        · exact hNothing
        · exact absurd hDone hAttempted
      have hExchange := hOk.exchange hHolds
      rw [if_pos rfl]
      refine h.change hCall hHolds (call.sentOn streamId) hStream hHolds.2 ?_
      refine { hOk with
        exchange := fun hHolds' => ?_
        sends := .inr ⟨rfl, streamId, hStream, ?_⟩ }
      · obtain rfl := some.inj (hStream.symm.trans hHolds'.1)
        show Exchange _ _ _ _ (update client.lines streamId _ streamId)
        rw [update_self]
        generalize client.lines streamId = line at hExchange
        cases hExchange with
        | quiet hReply hFresh hFinished =>
          unfold Line.ask
          split
          · exact .quiet hReply hFresh hFinished
          · exact .asked rfl hReply hFresh hFinished
        | asked hSent | replied hSent | complete hSent => cases hNotSent.symm.trans hSent
      · show call.sends ++ _ = _
        rw [hSends]
        rfl

theorem inv_reply (h : Inv deserialize client) {unanswered : List Nat}
    (hLine : (client.lines streamId).unanswered = c :: unanswered)
    (hCall : client.calls c = some call) {record : Bytes} (hne : record ≠ []) :
    Inv deserialize ((client.setCall c { call with reply := some record }).setLine streamId
      ⟨unanswered, (client.lines streamId).incoming ++ encodeRecord record⟩) := by
  -- the stream is not empty, so a call holds it
  obtain ⟨holder, call₀, hCall₀, hHolds⟩ : ∃ c', client.HeldBy c' streamId := by
    by_contra hNobody
    rw [h.empty fun c' hHeld => hNobody ⟨c', hHeld⟩] at hLine
    cases hLine
  have hExchange := (h.ok hCall₀).exchange hHolds
  generalize hEq : client.lines streamId = line at hExchange hLine
  cases hExchange with
  | quiet | replied | complete => cases hLine
  | asked hSent hReply hFresh hFinished =>
    cases hLine
    cases hCall.symm.trans hCall₀
    have hOk := h.ok hCall
    refine h.change hCall hHolds { call with reply := some record } hHolds.1 hHolds.2 ?_
    refine { hOk with
      untouched := fun hNone => by cases hHolds.1.symm.trans hNone
      exchange := fun hHolds' => ?_
      result := fun hSome => ?_ }
    · obtain rfl := some.inj (hHolds.1.symm.trans hHolds'.1)
      show Exchange _ _ _ _ (update client.lines streamId _ streamId)
      rw [update_self, nil_append]
      refine .replied hSent rfl ?_ hFinished
      show Awaits (call.receiving client.quicConnection streamId) _ _
      rw [hFresh]
      exact awaits_create _ _ hne
    · -- a call with a result is finished
      have hResult : call.point.result = some _ := hSome
      have hNot : ¬call.point.Answered := fun hAnswered => by
        cases hFinished.symm.trans (hOk.finished hAnswered)
      have hUnfinished := hHolds.2
      generalize call.point = point at hResult hNot hUnfinished
      cases point with
      | awaitsStream | awaitsReply => cases hResult
      | decoded _ | removed _ => exact absurd trivial hNot
      | returned _ => exact hUnfinished.elim

/-- The call after its callback has read into the receiving context. -/
def afterReading (call : ClientCall Conn Msg) (rm : RecordMarkingReceivingContext Conn) :
    ClientCall Conn Msg :=
  if rm.recordFullyReceived then
    { call with context := { call.context with
      rmReceivingContext := some rm
      replyRpcMsgSuccessfullyReceived := true
      finished := true } }
  else { call with context := { call.context with rmReceivingContext := some rm } }

/-- Only three fields of the context change, and a finished call stays finished. -/
theorem afterReading_eq (call : ClientCall Conn Msg) (rm : RecordMarkingReceivingContext Conn) :
    ∃ received finished, (call.context.finished = true → finished = true) ∧
      afterReading call rm = { call with context := { call.context with
        rmReceivingContext := some rm
        replyRpcMsgSuccessfullyReceived := received
        finished := finished } } := by
  unfold afterReading
  split
  · exact ⟨true, true, fun _ => rfl, rfl⟩
  · exact ⟨_, _, id, rfl⟩

theorem clientOnStreamReadable_eq
    (hFind : client.findStreamContext streamId client.streamContexts = some (c, call))
    {rm : RecordMarkingReceivingContext Conn}
    (hReceive : receiveAvailableBytesQuic (call.receiving client.quicConnection streamId) reads =
      some (0, rm, [])) :
    client.clientOnStreamReadable streamId reads =
      some ((client.setCall c (afterReading call rm)).setLine streamId
        { client.lines streamId with
          incoming := (client.lines streamId).incoming.drop reads.flatten.length }) := by
  unfold ClientCall.receiving at hReceive
  unfold clientOnStreamReadable afterReading
  simp only [hFind, hReceive, bind_eq_bind, bind_some, gt_iff_lt, Nat.lt_irrefl,
    if_false, List.flatten_nil, List.nil_append, Option.pure_def]
  split <;> rfl

/-- Reading keeps the exchange going: the reads are the next bytes of the reply. -/
theorem exchange_read {conn : Conn} {line : Line} (h : Exchange conn c streamId call line)
    (hReads : ∀ b ∈ reads, b ≠ []) (hNext : reads.flatten <+: line.incoming) :
    ∃ rm, receiveAvailableBytesQuic (call.receiving conn streamId) reads = some (0, rm, []) ∧
      Exchange conn c streamId (afterReading call rm)
        { line with incoming := line.incoming.drop reads.flatten.length } := by
  obtain ⟨rest, hRest⟩ := hNext
  have hNil : line.incoming = [] → reads = [] := by
    intro hIncoming
    rw [hIncoming] at hRest
    exact flatten_eq_nil hReads (append_eq_nil_iff.mp hRest).1
  cases h with
  | quiet hReply hFresh hFinished =>
    obtain rfl := hNil rfl
    refine ⟨_, rfl, ?_⟩
    rw [hFresh]
    exact .quiet hReply rfl hFinished
  | asked hSent hReply hFresh hFinished =>
    obtain rfl := hNil rfl
    refine ⟨_, rfl, ?_⟩
    rw [hFresh]
    exact .asked hSent hReply rfl hFinished
  | complete hSent hReply hReceived hContext hCompleted hFinished =>
    obtain rfl := hNil rfl
    refine ⟨_, rfl, ?_⟩
    rw [ClientCall.receiving, hContext, getD_some, afterReading, if_pos hCompleted.1]
    exact .complete hSent hReply rfl rfl hCompleted rfl
  | replied hSent hReply hAwaits hFinished =>
    dsimp only at hRest ⊢
    rw [← hRest] at hAwaits ⊢
    obtain ⟨rm, hReceive, _, hProgress⟩ := receiveAvailableBytesQuic_reads hReads hAwaits
    refine ⟨rm, hReceive, ?_⟩
    rw [drop_left]
    by_cases hEnd : rest = []
    · -- the last byte of the reply was read
      rw [Progress, if_pos hEnd] at hProgress
      rw [hEnd, afterReading, if_pos hProgress.1]
      exact .complete hSent hReply rfl rfl hProgress rfl
    · rw [Progress, if_neg hEnd] at hProgress
      rw [afterReading, if_neg (by simp [hProgress.not_full])]
      exact .replied hSent hReply hProgress hFinished

theorem inv_readable (h : Inv deserialize client) (hReads : ∀ b ∈ reads, b ≠ [])
    (hNext : reads.flatten <+: (client.lines streamId).incoming)
    (hRun : client.clientOnStreamReadable streamId reads = some client') :
    Inv deserialize client' := by
  cases hFind : client.findStreamContext streamId client.streamContexts with
  | none =>
    simp only [clientOnStreamReadable, hFind, some.injEq] at hRun
    exact hRun ▸ h
  | some found =>
    obtain ⟨c, call⟩ := found
    obtain ⟨hMem, hCall, hStream⟩ := findStreamContext_spec hFind
    have hOk := h.ok hCall
    have hHolds : call.Holds streamId := ⟨hStream, (hOk.registered.mp hMem).unfinished⟩
    obtain ⟨rm, hReceive, hExchange⟩ := exchange_read (hOk.exchange hHolds) hReads hNext
    rw [clientOnStreamReadable_eq hFind hReceive] at hRun
    cases hRun
    obtain ⟨received, finished, hFinished, hEq⟩ := afterReading_eq call rm
    rw [hEq] at hExchange ⊢
    refine h.change hCall hHolds _ (by exact hStream) (by exact hHolds.2) ?_
    refine { hOk with
      untouched := fun hNone => by cases hStream.symm.trans hNone
      exchange := fun hHolds' => ?_
      finished := fun hAnswered => hFinished (hOk.finished hAnswered) }
    obtain rfl := some.inj (hStream.symm.trans hHolds'.1)
    show Exchange _ _ _ _ (update client.lines streamId _ streamId)
    rw [update_self]
    exact hExchange

/-! ## Runs -/

theorem inv_step (h : Inv deserialize client) {event : Event}
    (hAdmissible : client.Admissible event) (hStep : client.step deserialize event = some client') :
    Inv deserialize client' := by
  have hTook : Took deserialize client (.event event) client' := took_of_act hStep
  cases hTook with
  | push c callRpcMsg useAuxiliaryStream hNone =>
    cases hAdmissible
    exact inv_push h hNone callRpcMsg
  | allocate newStream c queue call _ hFront hCall => exact inv_allocate h hFront hCall hAdmissible
  | addContext c call hCall hPoint hFinished => exact inv_addContext h hCall hPoint hFinished
  | writable streamId errorCode =>
    cases hAdmissible
    exact inv_writable h streamId
  | reply streamId record c unanswered call hLine hCall =>
    exact inv_reply h hLine hCall hAdmissible
  | readable streamId reads _ _ hReadable =>
    exact inv_readable h (fun b hb => (hAdmissible.1 b hb).1) hAdmissible.2 hReadable
  | decode c call hCall hPoint hFinished => exact inv_decode h hCall hPoint hFinished
  | removeContext c call streamId result hCall hStream hPoint =>
    exact inv_removeContext h hCall hStream hPoint
  | release c call streamId result hCall hStream hPoint => exact inv_release h hCall hStream hPoint

theorem inv_run (h : Inv deserialize client) {events : List Event}
    (hRun : client.run deserialize events = some client') : Inv deserialize client' := by
  induction events generalizing client with
  | nil =>
    cases hRun
    exact h
  | cons event events ih =>
    rw [run] at hRun
    split at hRun
    · next hAdmissible =>
      obtain ⟨next, hStep, hRun⟩ := bind_eq_some_iff.mp hRun
      exact ih (inv_step h hAdmissible hStep) hRun
    · cases hRun

/-- A connection before its first call. -/
theorem inv_start (quicConnection : Conn) (mainStream : Option Nat) :
    Inv deserialize ({ quicConnection, mainStream } : QuicClient Conn Msg) := by
  refine ⟨rfl, by simp, by simp, by simp, by simp, by simp, fun hCall => ?_, ?_, fun _ => rfl⟩
  · cases hCall
  · rintro c c' streamId ⟨call, hCall, _⟩
    cases hCall

/-- **Call and reply matching.** Any number of calls on auxiliary streams, whose
steps, those of the event loop and the server's replies come in any order. In every
state that is reached:

* no stream is held by two calls that have not returned;
* there are at most ten auxiliary streams;
* what was sent for a call is its record, at most once, and on its own stream;
* a call that returns a message returns the decoding of what the server replied to
  that call. -/
theorem quic_call_reply_matching (deserialize : Bytes → Option Msg) (quicConnection : Conn)
    (mainStream : Option Nat) (events : List Event)
    (hRun : run deserialize { quicConnection, mainStream } events = some client) :
    (∀ c c' call call' streamId, client.calls c = some call → client.calls c' = some call' →
      call.Holds streamId → call'.Holds streamId → c = c') ∧
    client.auxiliaryStreams.length ≤ 10 ∧
    (∀ c call, client.calls c = some call → call.sends = [] ∨ ∃ streamId,
      call.context.allocatedStream = some streamId ∧
        call.sends = [(streamId, call.context.callRpcMsg)]) ∧
    ∀ c call m, client.calls c = some call → call.point = .returned (some m) →
      ∃ record, call.reply = some record ∧ deserialize record = some m := by
  have h : Inv deserialize client := inv_run (inv_start quicConnection mainStream) hRun
  refine ⟨?_, h.count, ?_, ?_⟩
  · intro c c' call call' streamId hCall hCall' hHolds hHolds'
    exact h.unique ⟨call, hCall, hHolds⟩ ⟨call', hCall', hHolds'⟩
  · intro c call hCall
    rcases (h.ok hCall).sends with ⟨_, _, hNothing⟩ | ⟨_, hOnce⟩
    · exact .inl hNothing
    · exact .inr hOnce
  · intro c call m hCall hPoint
    refine (h.ok hCall).result ?_
    rw [hPoint]
    rfl

/-- Two calls at once, whose replies come in the other order; a third call gets the
stream of the first. -/
def Sample.events : List Event :=
  [.push 0 [1] true, .push 1 [2] true, .allocate (some 4), .allocate (some 8), .addContext 1,
    .addContext 0, .writable 4 0, .writable 8 0, .reply 8 [7], .readable 8 [[128, 0], [0, 1, 7]],
    .decode 1, .reply 4 [6], .readable 4 [[128, 0, 0, 1, 6]], .decode 0, .removeContext 0,
    .release 0, .push 2 [3] true, .allocate none, .removeContext 1, .addContext 2, .release 1,
    .writable 4 0, .reply 4 [5], .readable 4 [[128, 0, 0, 1], [5]], .decode 2, .removeContext 2,
    .release 2]

theorem quic_call_reply_matching_reuse :
    ∃ client : QuicClient Unit Bytes,
      run some { quicConnection := (), mainStream := none } Sample.events = some client ∧
      [0, 1, 2].map (fun c => (client.calls c).map ClientCall.point) =
        [some (.returned (some [6])), some (.returned (some [7])), some (.returned (some [5]))] ∧
      ∀ c call m, client.calls c = some call → call.point = .returned (some m) →
        ∃ record, call.reply = some record ∧ some record = some m := by
  have hEnd : (run some ({ quicConnection := (), mainStream := none } : QuicClient Unit Bytes)
      Sample.events).map (fun client => [0, 1, 2].map fun c => (client.calls c).map ClientCall.point) =
        some [some (.returned (some [6])), some (.returned (some [7])),
          some (.returned (some [5]))] := by decide +kernel
  obtain ⟨client, hRun, hPoints⟩ := map_eq_some_iff.mp hEnd
  exact ⟨client, hRun, hPoints, (quic_call_reply_matching some () none Sample.events hRun).2.2.2⟩

end QuicNfs.Transport.QuicClient
