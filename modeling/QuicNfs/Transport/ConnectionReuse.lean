import QuicNfs.Transport.QuicReads

/-!
# QuicNfs — connections that come and go

The library tells the server when a connection or a stream is opened and closed,
and what of it is readable. A connection is known by its address, which may be that
of an earlier one that was closed, and the streams of each connection are numbered
from the start. The server does nothing when a connection or a stream is closed, so
the contexts of a closed connection stay in the list.

* `Endpoint` and `Endpoint.step` — the contexts, and which connection is at an
  address;
* `Endpoint.Ready` — a stream is read only if it has no context, or one that its
  own connection left and no error did;
* `Accounted` — the invariant: each connection finds the contexts that it would
  find alone, and they hold its own bytes;
* `quic_connections_isolated` — in a run in which the streams are ready, what is
  handed over for a connection was received on it;
* `quic_connections_mixed` — a connection that gets the address of another one, with
  a record of that one under way.
-/

namespace QuicNfs.Transport

open Kernel Lib RecordMarkingReceivingContext List Option Function

variable {Conn : Type} [DecidableEq Conn]

/-! ## The callbacks

Apart from `server_on_stream_readable` they have no body. -/

def serverOnConnCreated (_conn : Conn) (contexts : Contexts Conn) : Contexts Conn := contexts

def serverOnConnEstablished (_conn : Conn) (contexts : Contexts Conn) : Contexts Conn := contexts

def serverOnConnClosed (_conn : Conn) (contexts : Contexts Conn) : Contexts Conn := contexts

def serverOnStreamCreated (_conn : Conn) (_streamId : Nat) (contexts : Contexts Conn) :
    Contexts Conn := contexts

def serverOnStreamClosed (_conn : Conn) (_streamId : Nat) (contexts : Contexts Conn) :
    Contexts Conn := contexts

inductive ServerEvent (Conn : Type)
  | connCreated (conn : Conn)
  | connEstablished (conn : Conn)
  | connClosed (conn : Conn)
  | streamCreated (conn : Conn) (streamId : Nat)
  | streamClosed (conn : Conn) (streamId : Nat)
  /-- With what the calls of `quic_stream_read` return. -/
  | streamReadable (conn : Conn) (streamId : Nat) (reads : List Bytes)

/-! ## Connections and their addresses -/

/-- The server's contexts, and what is at the addresses. Connections are numbered in the
order in which they are created. -/
structure Endpoint (Conn : Type) where
  contexts : Contexts Conn := []
  /-- The connection at an address. -/
  connectionAt : Conn → Option Nat := fun _ => none
  /-- How many connections there were so far. -/
  created : Nat := 0
  /-- The connection that the last callback of a stream was for, unless it failed. -/
  owner : Conn × Nat → Option Nat := fun _ => none

/-- A callback of `server_on_stream_readable`, and what came of it. -/
structure Served (Conn : Type) where
  connection : Nat
  address : Conn
  streamId : Nat
  reads : List Bytes
  /-- The reads that were made. -/
  made : List Bytes
  failed : Bool
  handedOver : Option Bytes
deriving DecidableEq, Repr

/-- The reads that a callback makes. -/
def readsMade (contexts : Contexts Conn) (key : Conn × Nat) (reads : List Bytes) : List Bytes :=
  reads.take (reads.length - (unreadAfter contexts key reads).length)

/-- What came of a callback. -/
def servedBy (contexts : Contexts Conn) (connection : Nat) (conn : Conn) (streamId : Nat)
    (reads : List Bytes) (readable : Readable Conn) : Served Conn :=
  { connection, address := conn, streamId, reads
    made := readsMade contexts (conn, streamId) reads
    failed := readable.failed, handedOver := readable.handedOver }

/-- A callback, for a connection that is there; a new one gets an address that is free. -/
def Endpoint.step (endpoint : Endpoint Conn) :
    ServerEvent Conn → Option (Endpoint Conn × List (Served Conn))
  | .connCreated conn =>
    match endpoint.connectionAt conn with
    | some _ => none
    | none => some ({ endpoint with
        contexts := serverOnConnCreated conn endpoint.contexts
        connectionAt := Function.update endpoint.connectionAt conn (some endpoint.created)
        created := endpoint.created + 1 }, [])
  | .connEstablished conn => do
    let _ ← endpoint.connectionAt conn
    return ({ endpoint with contexts := serverOnConnEstablished conn endpoint.contexts }, [])
  | .connClosed conn => do
    let _ ← endpoint.connectionAt conn
    return ({ endpoint with
      contexts := serverOnConnClosed conn endpoint.contexts
      -- the library frees the connection, and may use its address again
      connectionAt := Function.update endpoint.connectionAt conn none }, [])
  | .streamCreated conn streamId => do
    let _ ← endpoint.connectionAt conn
    return ({ endpoint with contexts := serverOnStreamCreated conn streamId endpoint.contexts }, [])
  | .streamClosed conn streamId => do
    let _ ← endpoint.connectionAt conn
    return ({ endpoint with contexts := serverOnStreamClosed conn streamId endpoint.contexts }, [])
  | .streamReadable conn streamId reads => do
    let connection ← endpoint.connectionAt conn
    let readable ← serverOnStreamReadable conn streamId reads endpoint.contexts
    -- after an error the buffers of the context are freed and it stays in the list
    let owner := if readable.failed then none else some connection
    return ({ endpoint with
        contexts := readable.contexts
        owner := Function.update endpoint.owner (conn, streamId) owner },
      [servedBy endpoint.contexts connection conn streamId reads readable])

/-- A sequence of callbacks, and what came of those that read. -/
def Endpoint.run (endpoint : Endpoint Conn) :
    List (ServerEvent Conn) → Option (Endpoint Conn × List (Served Conn))
  | [] => some (endpoint, [])
  | event :: events => do
    let (endpoint, served) ← endpoint.step event
    let (endpoint, others) ← endpoint.run events
    return (endpoint, served ++ others)

/-- What is read has no context yet, or one that this connection left, and no error did: an
error leaves buffers that were freed. -/
def Endpoint.Ready (endpoint : Endpoint Conn) : ServerEvent Conn → Prop
  | .streamReadable conn streamId _ =>
    endpoint.contexts.find? (isFor (conn, streamId)) = none ∨
    endpoint.owner (conn, streamId) = endpoint.connectionAt conn
  | _ => True

/-- All callbacks of a sequence are for streams that are ready. -/
def Endpoint.ReadyAlong (endpoint : Endpoint Conn) : List (ServerEvent Conn) → Prop
  | [] => True
  | event :: events => endpoint.Ready event ∧
    match endpoint.step event with
    | some (next, _) => next.ReadyAlong events
    | none => True

instance (endpoint : Endpoint Conn) (event : ServerEvent Conn) : Decidable (endpoint.Ready event) :=
  match event with
  | .streamReadable .. => inferInstanceAs (Decidable (_ ∨ _))
  | .connCreated _ | .connEstablished _ | .connClosed _ | .streamCreated .. | .streamClosed .. =>
    .isTrue trivial

instance Endpoint.decidableReadyAlong : (events : List (ServerEvent Conn)) →
    (endpoint : Endpoint Conn) → Decidable (endpoint.ReadyAlong events)
  | [], _ => .isTrue trivial
  | event :: events, endpoint =>
    match hStep : endpoint.step event with
    | some (next, served) =>
      have := Endpoint.decidableReadyAlong events next
      decidable_of_iff (endpoint.Ready event ∧ next.ReadyAlong events)
        (by rw [Endpoint.ReadyAlong, hStep])
    | none =>
      decidable_of_iff (endpoint.Ready event ∧ True) (by rw [Endpoint.ReadyAlong, hStep])

/-! ## What a connection received -/

/-- The callbacks of one connection, as the server without the others gets them. -/
def callbacksOf (connection : Nat) (trace : List (Served Conn)) : List (Callback Conn) :=
  (trace.filter fun s => s.connection = connection).map fun s => ((s.address, s.streamId), s.reads)

/-- What came of the callbacks of one connection. -/
def resultsOf (connection : Nat) (trace : List (Served Conn)) : List (Bool × Option Bytes) :=
  (trace.filter fun s => s.connection = connection).map fun s => (s.failed, s.handedOver)

/-- The bytes that were read from a stream of a connection. -/
def receivedOn (connection streamId : Nat) (trace : List (Served Conn)) : Bytes :=
  (trace.filter fun s => s.connection = connection ∧ s.streamId = streamId).flatMap fun s =>
    s.made.flatten

/-- Each record that is handed over is made of bytes that were read before from the stream of
the connection that it is handed over for. -/
def OwnBytes (trace : List (Served Conn)) : Prop :=
  ∀ before served record, before ++ [served] <+: trace → served.handedOver = some record →
    record.Sublist (receivedOn served.connection served.streamId (before ++ [served]))

/-- Each connection gets what it would get from a server that has no other. -/
def AloneAlike (trace : List (Served Conn)) : Prop :=
  ∀ connection, ∃ contexts,
    serverRun [] (callbacksOf connection trace) = some (contexts, resultsOf connection trace)

/-! ## The invariant -/

/-- What a callback can do. -/
inductive Stepped (endpoint : Endpoint Conn) :
    ServerEvent Conn → Endpoint Conn → List (Served Conn) → Prop
  | created (conn : Conn) (hFree : endpoint.connectionAt conn = none) :
      Stepped endpoint (.connCreated conn) { endpoint with
        connectionAt := Function.update endpoint.connectionAt conn (some endpoint.created)
        created := endpoint.created + 1 } []
  | closed (conn : Conn) :
      Stepped endpoint (.connClosed conn) { endpoint with
        connectionAt := Function.update endpoint.connectionAt conn none } []
  | same (event : ServerEvent Conn) : Stepped endpoint event endpoint []
  | readable (conn : Conn) (streamId : Nat) (reads : List Bytes) (connection : Nat)
      (readable : Readable Conn) (hConnection : endpoint.connectionAt conn = some connection)
      (hReadable : serverOnStreamReadable conn streamId reads endpoint.contexts = some readable) :
      Stepped endpoint (.streamReadable conn streamId reads) { endpoint with
          contexts := readable.contexts
          owner := Function.update endpoint.owner (conn, streamId)
            (if readable.failed then none else some connection) }
        [servedBy endpoint.contexts connection conn streamId reads readable]

theorem stepped_of_step {endpoint next : Endpoint Conn} {event : ServerEvent Conn}
    {served : List (Served Conn)} (h : endpoint.step event = some (next, served)) :
    Stepped endpoint event next served := by
  cases event with
  | connCreated conn =>
    unfold Endpoint.step at h
    dsimp only at h
    split at h
    · cases h
    · next hFree =>
      cases h
      exact .created conn hFree
  | connClosed conn =>
    simp only [Endpoint.step, bind_eq_bind, bind_eq_some_iff] at h
    obtain ⟨_, -, h⟩ := h
    cases h
    exact .closed conn
  -- these callbacks have no body
  | connEstablished | streamCreated | streamClosed =>
    simp only [Endpoint.step, bind_eq_bind, bind_eq_some_iff] at h
    obtain ⟨_, -, h⟩ := h
    cases h
    exact .same _
  | streamReadable conn streamId reads =>
    simp only [Endpoint.step, bind_eq_bind, bind_eq_some_iff] at h
    obtain ⟨connection, hConnection, readable, hReadable, h⟩ := h
    cases h
    exact .readable conn streamId reads connection readable hConnection hReadable

/-- The server after some callbacks, of which `past` says what came of them. -/
structure Accounted (endpoint : Endpoint Conn) (past : List (Served Conn)) : Prop where
  tidy : Tidy endpoint.contexts
  numbered {conn i} : endpoint.connectionAt conn = some i → i < endpoint.created
  distinct {conn conn' i} : endpoint.connectionAt conn = some i →
    endpoint.connectionAt conn' = some i → conn = conn'
  owned {key i} : endpoint.owner key = some i → i < endpoint.created
  earlier {served} : served ∈ past → served.connection < endpoint.created
  /-- What a connection finds, unless another one or an error left it, it would find alone. -/
  alone (i : Nat) : ∃ contexts, serverRun [] (callbacksOf i past) = some (contexts, resultsOf i past) ∧
    Tidy contexts ∧ ∀ conn streamId, endpoint.connectionAt conn = some i →
      (endpoint.contexts.find? (isFor (conn, streamId)) = none ∨
        endpoint.owner (conn, streamId) = some i) →
      contexts.find? (isFor (conn, streamId)) = endpoint.contexts.find? (isFor (conn, streamId))
  /-- And it is open, with bytes that were read for it. -/
  own {conn streamId i context} : endpoint.connectionAt conn = some i →
    endpoint.owner (conn, streamId) = some i →
    endpoint.contexts.find? (isFor (conn, streamId)) = some context →
    context.recordFullyReceived = false ∧ (held context).Sublist (receivedOn i streamId past)
  ownBytes : OwnBytes past

omit [DecidableEq Conn] in
theorem callbacksOf_append (i : Nat) (trace more : List (Served Conn)) :
    callbacksOf i (trace ++ more) = callbacksOf i trace ++ callbacksOf i more := by
  simp [callbacksOf]

omit [DecidableEq Conn] in
theorem resultsOf_append (i : Nat) (trace more : List (Served Conn)) :
    resultsOf i (trace ++ more) = resultsOf i trace ++ resultsOf i more := by
  simp [resultsOf]

omit [DecidableEq Conn] in
theorem receivedOn_append (i streamId : Nat) (trace more : List (Served Conn)) :
    receivedOn i streamId (trace ++ more) =
      receivedOn i streamId trace ++ receivedOn i streamId more := by
  simp [receivedOn]

theorem accounted_start : Accounted ({} : Endpoint Conn) [] where
  tidy := tidy_nil
  numbered h := by cases h
  distinct h := by cases h
  owned h := by cases h
  earlier h := by cases h
  alone i := ⟨[], rfl, tidy_nil, fun _ _ h => by cases h⟩
  own h := by cases h
  ownBytes before served record h := by
    have hNil := prefix_nil.mp h
    simp at hNil

variable {endpoint : Endpoint Conn} {past : List (Served Conn)}

theorem accounted_created (h : Accounted endpoint past) {conn : Conn} (hFree : endpoint.connectionAt conn = none) :
    Accounted { endpoint with
      connectionAt := update endpoint.connectionAt conn (some endpoint.created)
      created := endpoint.created + 1 } past := by
  have hCases : ∀ {conn' i},
      update endpoint.connectionAt conn (some endpoint.created) conn' = some i →
      (conn' = conn ∧ i = endpoint.created) ∨ endpoint.connectionAt conn' = some i := by
    intro conn' i hAt
    by_cases hConn : conn' = conn
    · subst hConn
      rw [update_self, some.injEq] at hAt
      exact .inl ⟨rfl, hAt.symm⟩
    · rw [update_of_ne hConn] at hAt
      exact .inr hAt
  -- the new connection has left no context
  have hNew : ∀ {key}, endpoint.owner key ≠ some endpoint.created := by
    intro key hOwner
    exact Nat.lt_irrefl _ (h.owned hOwner)
  refine ⟨h.tidy, ?_, ?_, ?_, ?_, ?_, ?_, h.ownBytes⟩
  · intro conn' i hAt
    rcases hCases hAt with ⟨-, rfl⟩ | hOld
    · exact Nat.lt_succ_self _
    · exact Nat.lt_succ_of_lt (h.numbered hOld)
  · intro conn₁ conn₂ i hAt₁ hAt₂
    rcases hCases hAt₁ with ⟨rfl, rfl⟩ | hOld₁
    · rcases hCases hAt₂ with ⟨rfl, -⟩ | hOld₂
      · rfl
      · exact absurd (h.numbered hOld₂) (Nat.lt_irrefl _)
    · rcases hCases hAt₂ with ⟨rfl, rfl⟩ | hOld₂
      · exact absurd (h.numbered hOld₁) (Nat.lt_irrefl _)
      · exact h.distinct hOld₁ hOld₂
  · intro key i hOwner
    exact Nat.lt_succ_of_lt (h.owned hOwner)
  · intro served hServed
    exact Nat.lt_succ_of_lt (h.earlier hServed)
  · intro i
    obtain ⟨contexts, hRun, hTidy, hSame⟩ := h.alone i
    refine ⟨contexts, hRun, hTidy, fun conn' streamId hAt hUsable => ?_⟩
    rcases hCases hAt with ⟨rfl, rfl⟩ | hOld
    · -- no callback was for it, so alone it finds nothing
      have hNone : past.filter (fun s => s.connection = endpoint.created) = [] := by
        rw [filter_eq_nil_iff]
        intro served hServed hEq
        exact absurd (of_decide_eq_true hEq) (Nat.ne_of_lt (h.earlier hServed))
      rw [callbacksOf, resultsOf, hNone] at hRun
      cases hRun
      rcases hUsable with hFound | hOwner
      · exact hFound.symm
      · exact absurd hOwner hNew
    · exact hSame conn' streamId hOld hUsable
  · intro conn' streamId i context hAt hOwner hFind
    rcases hCases hAt with ⟨rfl, rfl⟩ | hOld
    · exact absurd hOwner hNew
    · exact h.own hOld hOwner hFind

theorem accounted_closed (h : Accounted endpoint past) (conn : Conn) :
    Accounted { endpoint with
      connectionAt := update endpoint.connectionAt conn none } past := by
  have hOld : ∀ {conn' i}, update endpoint.connectionAt conn none conn' = some i →
      endpoint.connectionAt conn' = some i := by
    intro conn' i hAt
    by_cases hConn : conn' = conn
    · subst hConn
      rw [update_self] at hAt
      cases hAt
    · rwa [update_of_ne hConn] at hAt
  refine ⟨h.tidy, fun hAt => h.numbered (hOld hAt), fun hAt hAt' => h.distinct (hOld hAt) (hOld hAt'),
    h.owned, h.earlier, fun i => ?_, fun hAt => h.own (hOld hAt), h.ownBytes⟩
  obtain ⟨contexts, hRun, hTidy, hSame⟩ := h.alone i
  exact ⟨contexts, hRun, hTidy, fun conn' streamId hAt => hSame conn' streamId (hOld hAt)⟩

section Readable

variable {conn : Conn} {streamId connection : Nat} {reads : List Bytes} {readable : Readable Conn}

omit [DecidableEq Conn] in
/-- The bytes of another stream are not touched. -/
theorem receivedOn_sublist (i streamId : Nat) (past more : List (Served Conn)) :
    (receivedOn i streamId past).Sublist (receivedOn i streamId (past ++ more)) := by
  rw [receivedOn_append]
  exact sublist_append_left _ _

theorem receivedOn_servedBy (past : List (Served Conn)) :
    receivedOn connection streamId
        (past ++ [servedBy endpoint.contexts connection conn streamId reads readable]) =
      receivedOn connection streamId past ++
        (readsMade endpoint.contexts (conn, streamId) reads).flatten := by
  rw [receivedOn_append]
  simp [receivedOn, servedBy]

variable (h : Accounted endpoint past) (hConnection : endpoint.connectionAt conn = some connection)
  (hReady : endpoint.Ready (.streamReadable conn streamId reads))
  (hReadable : serverOnStreamReadable conn streamId reads endpoint.contexts = some readable)

include h hConnection hReady

/-- The context that a ready stream is read into is open, and has its own bytes. -/
theorem Accounted.own_of_ready :
    (contextOf endpoint.contexts (conn, streamId)).recordFullyReceived = false ∧
      (held (contextOf endpoint.contexts (conn, streamId))).Sublist
        (receivedOn connection streamId past) := by
  cases hFind : endpoint.contexts.find? (isFor (conn, streamId)) with
  | none =>
    rw [contextOf, hFind]
    exact ⟨rfl, nil_sublist _⟩
  | some context =>
    rw [contextOf_eq_of_find hFind]
    rcases hReady with hNone | hOwner
    · cases hFind.symm.trans hNone
    · exact h.own hConnection (hOwner.trans hConnection) hFind

/-- What the callback makes of it is of the bytes that it reads. -/
theorem Accounted.held_after {errorCode : Nat} {context : RecordMarkingReceivingContext Conn}
    {unread : List Bytes}
    (hReceive : receiveAvailableBytesQuic (contextOf endpoint.contexts (conn, streamId)) reads =
      some (errorCode, context, unread)) :
    (held context).Sublist (receivedOn connection streamId past ++
      (readsMade endpoint.contexts (conn, streamId) reads).flatten) := by
  obtain ⟨hOpen, hOwn⟩ := h.own_of_ready hConnection hReady
  obtain ⟨made, hSplit, hHeld⟩ := receiveAvailableBytesQuic_made hOpen hReceive
  have hMade : readsMade endpoint.contexts (conn, streamId) reads = made := by
    rw [readsMade, unreadAfter_eq hReceive, hSplit, length_append, Nat.add_sub_cancel, take_left]
  rw [hMade]
  exact hHeld.trans (List.Sublist.append_right hOwn _)

include hReadable

/-- Alone, the callback finds the same and does the same. Another connection is at another
address, and the callback leaves its streams alone. -/
theorem Accounted.alone_after
    (hOthers : (readable.contexts.filter fun c => !isFor (conn, streamId) c) =
      endpoint.contexts.filter fun c => !isFor (conn, streamId) c) (i : Nat) :
    ∃ contexts,
      serverRun [] (callbacksOf i
          (past ++ [servedBy endpoint.contexts connection conn streamId reads readable])) =
        some (contexts, resultsOf i
          (past ++ [servedBy endpoint.contexts connection conn streamId reads readable])) ∧
      Tidy contexts ∧ ∀ conn' other, endpoint.connectionAt conn' = some i →
        (readable.contexts.find? (isFor (conn', other)) = none ∨
          update endpoint.owner (conn, streamId)
            (if readable.failed then none else some connection) (conn', other) = some i) →
        contexts.find? (isFor (conn', other)) = readable.contexts.find? (isFor (conn', other)) := by
  obtain ⟨contexts, hRunAlone, hTidyAlone, hSame⟩ := h.alone i
  -- the streams but this one have the contexts they had
  have hElsewhere : ∀ {contexts' : Contexts Conn} {conn' other}, (conn', other) ≠ (conn, streamId) →
      (contexts'.filter fun c => !isFor (conn, streamId) c) =
        (contexts.filter fun c => !isFor (conn, streamId) c) →
      endpoint.connectionAt conn' = some i →
      (readable.contexts.find? (isFor (conn', other)) = none ∨
        update endpoint.owner (conn, streamId)
          (if readable.failed then none else some connection) (conn', other) = some i) →
      contexts'.find? (isFor (conn', other)) = readable.contexts.find? (isFor (conn', other)) := by
    intro contexts' conn' other hKey hKept hAt hUse
    rw [find?_congr hKey hOthers, update_of_ne hKey] at hUse
    rw [find?_congr hKey hKept, find?_congr hKey hOthers]
    exact hSame conn' other hAt hUse
  rw [callbacksOf_append, resultsOf_append]
  by_cases hi : i = connection
  · subst hi
    have hUsable := hSame conn streamId hConnection
      (hReady.imp_right fun hOwner => hOwner.trans hConnection)
    obtain ⟨readable', hRun', hTidy', hOthers', hFind, hFailed, hHanded⟩ :=
      serverOnStreamReadable_alike h.tidy hTidyAlone hUsable hReadable
    refine ⟨readable'.contexts, serverRun_append hRunAlone ?_, hTidy', ?_⟩
    · dsimp only at hRun'
      simp [callbacksOf, resultsOf, servedBy, serverRun, hRun', hFailed, hHanded]
    · intro conn' other hAt hUse
      obtain rfl := h.distinct hAt hConnection
      by_cases hOther : other = streamId
      · subst hOther
        exact hFind
      · exact hElsewhere (by simpa using hOther) hOthers' hAt hUse
  · refine ⟨contexts, ?_, hTidyAlone, fun conn' other hAt hUse => ?_⟩
    · simpa [callbacksOf, resultsOf, servedBy, Ne.symm hi] using hRunAlone
    · refine hElsewhere ?_ rfl hAt hUse
      rintro ⟨⟩
      exact hi (some.inj (hAt.symm.trans hConnection))

/-- The context that a callback leaves is open, and has the bytes of its stream. -/
theorem Accounted.open_after (hNotFailed : readable.failed = false)
    {found : RecordMarkingReceivingContext Conn}
    (hFind : readable.contexts.find? (isFor (conn, streamId)) = some found) :
    found.recordFullyReceived = false ∧
      (held found).Sublist (receivedOn connection streamId
        (past ++ [servedBy endpoint.contexts connection conn streamId reads readable])) := by
  obtain ⟨errorCode, context, unread, _, hReceive, hRun, -, -, hOutcome⟩ :=
    serverOnStreamReadable_returns h.tidy (conn, streamId) reads
  cases hReadable.symm.trans hRun
  rw [receivedOn_servedBy]
  split at hOutcome
  · -- the context of a complete record is gone
    cases hOutcome.1.symm.trans hFind
  · next hOpen =>
    obtain ⟨hFound, hFailed, -⟩ := hOutcome
    cases hFound.symm.trans hFind
    have hCode : errorCode = 0 := by
      rw [hFailed] at hNotFailed
      simpa using hNotFailed
    exact ⟨by simpa [hCode] using hOpen, h.held_after hConnection hReady hReceive⟩

/-- A record that a callback hands over is of the bytes of its stream. -/
theorem Accounted.handed_after {record : Bytes} (hHanded : readable.handedOver = some record) :
    record.Sublist (receivedOn connection streamId
      (past ++ [servedBy endpoint.contexts connection conn streamId reads readable])) := by
  obtain ⟨errorCode, context, unread, _, hReceive, hRun, -, -, hOutcome⟩ :=
    serverOnStreamReadable_returns h.tidy (conn, streamId) reads
  cases hReadable.symm.trans hRun
  -- a complete record is what its context holds
  have hDone : held context = record := by
    split at hOutcome
    · next hDone =>
      rw [held, if_pos hDone.2]
      exact some.inj (hOutcome.2.2.symm.trans hHanded)
    · cases hOutcome.2.2.symm.trans hHanded
  rw [receivedOn_servedBy, ← hDone]
  exact h.held_after hConnection hReady hReceive

theorem accounted_readable :
    Accounted { endpoint with
        contexts := readable.contexts
        owner := update endpoint.owner (conn, streamId)
          (if readable.failed then none else some connection) }
      (past ++ [servedBy endpoint.contexts connection conn streamId reads readable]) := by
  obtain ⟨-, -, -, _, -, hRun, hTidy, hOthers, -⟩ :=
    serverOnStreamReadable_returns h.tidy (conn, streamId) reads
  cases hReadable.symm.trans hRun
  refine ⟨hTidy, h.numbered, h.distinct, ?_, ?_,
    h.alone_after hConnection hReady hReadable hOthers, ?_, ?_⟩
  · intro key i hOwner
    dsimp only at hOwner
    by_cases hKey : key = (conn, streamId)
    · subst hKey
      rw [update_self] at hOwner
      split at hOwner
      · cases hOwner
      · cases hOwner
        exact h.numbered hConnection
    · rw [update_of_ne hKey] at hOwner
      exact h.owned hOwner
  · intro other hOther
    rcases mem_append.mp hOther with hPast | hNew
    · exact h.earlier hPast
    · rw [mem_singleton.mp hNew]
      exact h.numbered hConnection
  · intro conn' other i found hAt hOwner hFind
    dsimp only at hAt hOwner hFind
    by_cases hKey : (conn', other) = (conn, streamId)
    · cases hKey
      cases hAt.symm.trans hConnection
      rw [update_self] at hOwner
      -- a callback that fails leaves no owner
      split at hOwner
      · cases hOwner
      · next hNotFailed =>
        exact h.open_after hConnection hReady hReadable (by simpa using hNotFailed) hFind
    · rw [update_of_ne hKey] at hOwner
      rw [find?_congr hKey hOthers] at hFind
      obtain ⟨hOpen, hOwn⟩ := h.own hAt hOwner hFind
      exact ⟨hOpen, hOwn.trans (receivedOn_sublist _ _ _ _)⟩
  · intro before last record hBefore hHanded
    rcases prefix_concat_iff.mp hBefore with hLast | hPast
    · obtain ⟨rfl, hEq⟩ := append_inj' hLast rfl
      cases hEq
      exact h.handed_after hConnection hReady hReadable hHanded
    · exact h.ownBytes before last record hPast hHanded

end Readable

/-! ## All runs -/

theorem accounted_step {next : Endpoint Conn} {served : List (Served Conn)} {event : ServerEvent Conn}
    (h : Accounted endpoint past) (hReady : endpoint.Ready event)
    (hStep : endpoint.step event = some (next, served)) : Accounted next (past ++ served) := by
  cases stepped_of_step hStep with
  | created conn hFree =>
    rw [append_nil]
    exact accounted_created h hFree
  | closed conn =>
    rw [append_nil]
    exact accounted_closed h conn
  | same => rwa [append_nil]
  | readable conn streamId reads connection readable hConnection hReadable =>
    exact accounted_readable h hConnection hReady hReadable

theorem accounted_run {events : List (ServerEvent Conn)} {last : Endpoint Conn}
    {trace : List (Served Conn)} (h : Accounted endpoint past)
    (hReady : endpoint.ReadyAlong events) (hRun : endpoint.run events = some (last, trace)) :
    Accounted last (past ++ trace) := by
  -- each callback adds to the past what came of it
  induction events generalizing endpoint past trace with
  | nil =>
    cases hRun
    rw [append_nil]
    exact h
  | cons event events ih =>
    simp only [Endpoint.run, bind_eq_bind, bind_eq_some_iff, Prod.exists,
      Option.pure_def, Option.some.injEq, Prod.mk.injEq] at hRun
    obtain ⟨next, served, hStep, _, others, hRest, rfl, rfl⟩ := hRun
    rw [Endpoint.ReadyAlong, hStep] at hReady
    rw [← append_assoc]
    exact ih (accounted_step h hReady.1 hStep) hReady.2 hRest

/-- **Isolation of connections.** Connections and streams are opened, read and closed in any
order, and the address of a closed connection is given to another one. If each stream that is
read has no context, or one that was left by its own connection and not by an error, then every
record that is handed over is made of bytes received on its stream of its connection, and every
connection is served as if it was the only one. -/
theorem quic_connections_isolated (events : List (ServerEvent Conn)) (last : Endpoint Conn)
    (trace : List (Served Conn)) (hRun : Endpoint.run {} events = some (last, trace))
    (hReady : Endpoint.ReadyAlong {} events) : OwnBytes trace ∧ AloneAlike trace := by
  -- the server starts with no contexts and no past
  have hEnd := accounted_run accounted_start hReady hRun
  rw [nil_append] at hEnd
  refine ⟨hEnd.ownBytes, fun connection => ?_⟩
  obtain ⟨contexts, hAlone, -⟩ := hEnd.alone connection
  exact ⟨contexts, hAlone⟩

/-- Two connections, one after the other, at one address. The first is closed after its record
is complete. -/
def Sample.completed : List (ServerEvent Nat) :=
  [.connCreated 0, .connEstablished 0, .streamCreated 0 0, .streamReadable 0 0 [[128, 0, 0, 1, 7]],
    .streamClosed 0 0, .connClosed 0, .connCreated 0, .connCreated 1,
    .streamReadable 0 0 [[128, 0, 0]], .streamReadable 1 0 [[128, 0, 0, 1, 8]],
    .streamReadable 0 0 [[1, 9]]]

/-- The first is closed with a record of six bytes under way, of which one has come. -/
def Sample.abandoned : List (ServerEvent Nat) :=
  [.connCreated 0, .streamReadable 0 0 [[128, 0, 0, 6, 7]], .streamClosed 0 0, .connClosed 0,
    .connCreated 0, .streamReadable 0 0 [[128, 0, 0, 1, 9]]]

theorem quic_connections_isolated_completed :
    ∃ last trace, Endpoint.run {} Sample.completed = some (last, trace) ∧
      (trace.map fun s => (s.connection, s.handedOver)) =
        [(0, some [7]), (1, none), (2, some [8]), (1, some [9])] ∧
      OwnBytes trace ∧ AloneAlike trace := by
  have hShown : (Endpoint.run {} Sample.completed).map
      (fun run => run.2.map fun s => (s.connection, s.handedOver)) =
        some [(0, some [7]), (1, none), (2, some [8]), (1, some [9])] := by decide +kernel
  obtain ⟨⟨last, trace⟩, hRun, hTrace⟩ := map_eq_some_iff.mp hShown
  exact ⟨last, trace, hRun, hTrace,
    quic_connections_isolated Sample.completed last trace hRun (by decide +kernel)⟩

/-- **A record of two connections.** The second connection has sent a record of one byte; what
is handed over for it begins with a byte of the first, and goes on with the header of its own. -/
theorem quic_connections_mixed :
    ∃ last trace, Endpoint.run {} Sample.abandoned = some (last, trace) ∧
      (trace.map fun s => (s.connection, s.handedOver)) =
        [(0, none), (1, some [7, 128, 0, 0, 1, 9])] ∧
      receivedOn 1 0 trace = [128, 0, 0, 1, 9] ∧ ¬OwnBytes trace := by
  have hShown : (Endpoint.run {} Sample.abandoned).map Prod.snd =
      some [⟨0, 0, 0, [[128, 0, 0, 6, 7]], [[128, 0, 0, 6, 7]], false, none⟩,
        ⟨1, 0, 0, [[128, 0, 0, 1, 9]], [[128, 0, 0, 1, 9]], false,
          some [7, 128, 0, 0, 1, 9]⟩] := by decide +kernel
  obtain ⟨⟨last, trace⟩, hRun, rfl⟩ := map_eq_some_iff.mp hShown
  refine ⟨last, _, hRun, by decide, by decide, fun hOwn => ?_⟩
  have hSublist := hOwn [_] _ [7, 128, 0, 0, 1, 9] (prefix_refl _) rfl
  revert hSublist
  decide

end QuicNfs.Transport
