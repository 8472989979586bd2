import Mathlib.Logic.Function.Basic
import QuicNfs.Lib.FirstMatch
import QuicNfs.Transport.QuicReceiving

/-!
# QuicNfs — calls of the QUIC client

Any number of threads run `execute_rpc_call_quic` on one connection
(`quic_rpc_client.c`). A call waits for a stream, registers its context, waits for
the reply and gives the stream back; the event loop thread hands out the streams
(`stream_allocation.c`, `streams.c`) and runs the callbacks that send the calls and
receive the replies, which find the call by its stream (`client_stream_context.c`).

* `QuicClient` — the state that the threads share, with the calls and the streams;
* `Event` and `QuicClient.step` — what the threads and the server do, one atomic
  step at a time;
* `QuicClient.run` — a sequence of steps, under what is assumed of the QUIC library.
-/

namespace QuicNfs.Transport

open Kernel Lib RecordMarkingReceivingContext

/-! ## Streams -/

def MAX_STREAMS_PER_CONNECTION : Nat := 10

structure Stream where
  id : Nat
  streamInUse : Bool
deriving DecidableEq, Repr

/-- The stream and the new list. The first stream that is not in use is taken; if
there is none, a new one, unless there are enough already. `newStream` is what
`create_new_stream` returns. -/
def getAvailableAuxiliaryStream (newStream : Option Nat) (streams : List Stream) :
    Option (Nat × List Stream) :=
  match streams.find? fun stream => !stream.streamInUse with
  | some stream =>
    some (stream.id, modifyFirst (fun stream => !stream.streamInUse)
      (fun stream => { stream with streamInUse := true }) streams)
  | none =>
    if streams.length = MAX_STREAMS_PER_CONNECTION then none
    else newStream.map fun id => (id, ⟨id, true⟩ :: streams)

/-! ## Calls -/

structure QuicClientStreamContext (Conn : Type) where
  useAuxiliaryStream : Bool
  /-- The RPC message to be sent by the client. -/
  callRpcMsg : Bytes
  allocatedStream : Option Nat := none
  streamAllocationFinished : Bool := false
  successfullyAllocatedStream : Bool := false
  /-- The mutex that the event loop thread holds while it allocates. -/
  streamAllocatorLocked : Bool := false
  rmReceivingContext : Option (RecordMarkingReceivingContext Conn) := none
  attemptedCallRpcMsgSend : Bool := false
  callRpcMsgSuccessfullySent : Bool := false
  replyRpcMsgSuccessfullyReceived : Bool := false
  finished : Bool := false
deriving DecidableEq, Repr

/-- How far `execute_rpc_call_quic` has come. -/
inductive Point (Msg : Type) where
  | awaitsStream
  | awaitsReply
  /-- The result is there, and the context still registered. -/
  | decoded (result : Option Msg)
  /-- The context is removed, and the stream still in use. -/
  | removed (result : Option Msg)
  | returned (result : Option Msg)
deriving DecidableEq, Repr

/-- A call: its context and its thread. Two fields are not in the program: what
was sent for the call, and on which streams; and what the server replied to it. -/
structure ClientCall (Conn Msg : Type) where
  context : QuicClientStreamContext Conn
  point : Point Msg := .awaitsStream
  sends : List (Nat × Bytes) := []
  reply : Option Bytes := none

/-- The record of the call was sent on the stream. -/
def ClientCall.sentOn {Conn Msg : Type} (call : ClientCall Conn Msg) (streamId : Nat) :
    ClientCall Conn Msg :=
  { call with
    context := { call.context with
      attemptedCallRpcMsgSend := true
      callRpcMsgSuccessfullySent := true }
    sends := call.sends ++ [(streamId, call.context.callRpcMsg)] }

/-- What is under way on a stream: the calls whose records the server has not
answered, and the bytes of its replies that the client has not read. -/
structure Line where
  unanswered : List Nat := []
  incoming : Bytes := []
deriving DecidableEq, Repr

/-- The record of a call is under way to the server. An empty record has no bytes. -/
def Line.ask (line : Line) (c : Nat) (record : Bytes) : Line :=
  if record = [] then line else { line with unanswered := line.unanswered ++ [c] }

structure QuicClient (Conn Msg : Type) where
  quicConnection : Conn
  mainStream : Option Nat
  eventLoopRunning : Bool := true
  /-- The mutex of the list of contexts is locked by a thread that has died. -/
  streamContextsListLocked : Bool := false
  auxiliaryStreams : List Stream := []
  /-- The front of the queue first. -/
  streamAllocationQueue : List Nat := []
  streamContexts : List Nat := []
  calls : Nat → Option (ClientCall Conn Msg) := fun _ => none
  lines : Nat → Line := fun _ => {}

variable {Conn Msg : Type}

namespace QuicClient

/-- A call after one of its fields has changed. -/
def setCall (client : QuicClient Conn Msg) (c : Nat) (call : ClientCall Conn Msg) :
    QuicClient Conn Msg :=
  { client with calls := Function.update client.calls c (some call) }

def setLine (client : QuicClient Conn Msg) (streamId : Nat) (line : Line) : QuicClient Conn Msg :=
  { client with lines := Function.update client.lines streamId line }

/-- The callbacks call this on the event loop thread itself. The thread cancels itself and dies as
soon as it joins itself: it does not come to the signal for the call, nor to the unlocking of the
mutex with which the callback began. -/
def killEventLoopThread (client : QuicClient Conn Msg) : QuicClient Conn Msg :=
  { client with
    eventLoopRunning := false
    streamContextsListLocked := true }

/-! ## Allocation of streams -/

/-- A failed allocation returns before the mutex is released. -/
def allocationFailed (client : QuicClient Conn Msg) (c : Nat) (call : ClientCall Conn Msg) :
    QuicClient Conn Msg :=
  client.setCall c { call with context := { call.context with
    successfullyAllocatedStream := false
    streamAllocationFinished := true
    streamAllocatorLocked := true } }

def allocated (client : QuicClient Conn Msg) (c : Nat) (call : ClientCall Conn Msg) (streamId : Nat) :
    QuicClient Conn Msg :=
  client.setCall c { call with context := { call.context with
    allocatedStream := some streamId
    successfullyAllocatedStream := true
    streamAllocationFinished := true } }

def allocateStream (client : QuicClient Conn Msg) (c : Nat) (call : ClientCall Conn Msg)
    (newStream : Option Nat) : QuicClient Conn Msg :=
  if call.context.useAuxiliaryStream then
    match getAvailableAuxiliaryStream newStream client.auxiliaryStreams with
    | none => client.allocationFailed c call
    | some (streamId, streams) =>
      { client with auxiliaryStreams := streams }.allocated c call streamId
  else
    match client.mainStream with
    | none => client.allocationFailed c call
    | some streamId => client.allocated c call streamId

/-! ## The list of contexts -/

/-- The call whose context has the stream. The search ends at a context without one. -/
def findStreamContext (client : QuicClient Conn Msg) (streamId : Nat) :
    List Nat → Option (Nat × ClientCall Conn Msg)
  | [] => none
  | c :: rest =>
    match client.calls c with
    | none => none
    | some call =>
      match call.context.allocatedStream with
      | none => none
      | some id => if id = streamId then some (c, call) else client.findStreamContext streamId rest

/-- The list without the first context that has the stream. -/
def removeStreamContext (client : QuicClient Conn Msg) (streamId : Nat) : List Nat → List Nat
  | [] => []
  | c :: rest =>
    match (client.calls c).bind (·.context.allocatedStream) with
    | none => c :: rest
    | some id =>
      if id = streamId then rest else c :: client.removeStreamContext streamId rest

/-! ## Callbacks -/

/-- Sends the call that waits for the stream, once. `errorCode` is what
`send_rm_record_quic` returns; if it is 0, the record is on its way to the server. -/
def clientOnStreamWritable (client : QuicClient Conn Msg) (streamId errorCode : Nat) :
    QuicClient Conn Msg :=
  match client.findStreamContext streamId client.streamContexts with
  | none => client
  | some (c, call) =>
    if call.context.allocatedStream ≠ some streamId then
      (client.setCall c { call with context := { call.context with
        finished := true
        callRpcMsgSuccessfullySent := false } }).killEventLoopThread
    else if call.context.attemptedCallRpcMsgSend then client
    else if errorCode = 0 then
      (client.setCall c (call.sentOn streamId)).setLine streamId
        ((client.lines streamId).ask c call.context.callRpcMsg)
    else
      (client.setCall c { call with context := { call.context with
        attemptedCallRpcMsgSend := true
        callRpcMsgSuccessfullySent := false } }).killEventLoopThread

/-- Reads what is available of the reply to the call that waits for the stream. The
reads that are not made stay on the stream. -/
def clientOnStreamReadable (client : QuicClient Conn Msg) (streamId : Nat) (reads : List Bytes) :
    Option (QuicClient Conn Msg) :=
  match client.findStreamContext streamId client.streamContexts with
  | none => some client -- no response expected on this stream
  | some (c, call) => do
    let rmReceivingContext := call.context.rmReceivingContext.getD
      (createRmReceivingContext client.quicConnection streamId)
    let (errorCode, rmReceivingContext, unread) ←
      receiveAvailableBytesQuic rmReceivingContext reads
    let context := { call.context with rmReceivingContext := some rmReceivingContext }
    let line : Line := { client.lines streamId with
      incoming := unread.flatten ++ (client.lines streamId).incoming.drop reads.flatten.length }
    if errorCode > 0 then
      return ((client.setCall c { call with context := { context with
        replyRpcMsgSuccessfullyReceived := false
        finished := true } }).setLine streamId line).killEventLoopThread
    if rmReceivingContext.recordFullyReceived then
      return (client.setCall c { call with context := { context with
        replyRpcMsgSuccessfullyReceived := true
        finished := true } }).setLine streamId line
    return (client.setCall c { call with context }).setLine streamId line

/-! ## The thread of a call -/

/-- The result of a call whose context is finished: NULL if it was not sent or no
reply was received, and otherwise the decoded reply. A reply that was received has
a receiving context. -/
def replyOf (deserializeRpcMsg : Bytes → Option Msg) (context : QuicClientStreamContext Conn) :
    Option Msg :=
  if !context.callRpcMsgSuccessfullySent then none
  else if !context.replyRpcMsgSuccessfullyReceived then none
  else context.rmReceivingContext.bind fun rm => deserializeRpcMsg rm.accumulatedPayloads

/-- The steps of the threads of the calls, of the event loop thread and of the
server. -/
inductive Event where
  /-- A new call is pushed to the allocation queue. -/
  | push (c : Nat) (callRpcMsg : Bytes) (useAuxiliaryStream : Bool)
  /-- The front of the queue gets a stream, if there is one. -/
  | allocate (newStream : Option Nat)
  /-- The call finds its allocation finished and registers its context. -/
  | addContext (c : Nat)
  | writable (streamId errorCode : Nat)
  /-- The server answers the oldest record of the stream with one record. -/
  | reply (streamId : Nat) (record : Bytes)
  | readable (streamId : Nat) (reads : List Bytes)
  /-- The call finds its context finished and decodes the reply. -/
  | decode (c : Nat)
  | removeContext (c : Nat)
  | release (c : Nat)
deriving DecidableEq, Repr

/-- A step, or `none` if it cannot be taken. -/
def step (deserializeRpcMsg : Bytes → Option Msg) (client : QuicClient Conn Msg) :
    Event → Option (QuicClient Conn Msg)
  | .push c callRpcMsg useAuxiliaryStream =>
    if (client.calls c).isSome then none
    else some { client.setCall c { context := { useAuxiliaryStream, callRpcMsg } } with
      streamAllocationQueue := client.streamAllocationQueue ++ [c] }
  | .allocate newStream =>
    match client.streamAllocationQueue with
    | [] => none
    | c :: queue =>
      if client.eventLoopRunning then
        (client.calls c).map fun call =>
          { client with streamAllocationQueue := queue }.allocateStream c call newStream
      else none
  | .addContext c => do
    let call ← client.calls c
    match call.point with
    | .awaitsStream =>
      -- the thread needs the mutex to see that the allocation is finished
      if call.context.streamAllocationFinished && !call.context.streamAllocatorLocked then
        if call.context.successfullyAllocatedStream then
          some { client.setCall c { call with point := .awaitsReply } with
            -- a thread that does not get the mutex waits for it, unregistered
            streamContexts := if client.streamContextsListLocked then client.streamContexts
              else c :: client.streamContexts }
        else some (client.setCall c { call with point := .returned none })
      else none
    | _ => none
  | .writable streamId errorCode =>
    if client.eventLoopRunning then some (client.clientOnStreamWritable streamId errorCode) else none
  | .reply streamId record =>
    match (client.lines streamId).unanswered with
    | [] => none
    | c :: unanswered =>
      (client.calls c).map fun call =>
        (client.setCall c { call with reply := some record }).setLine streamId
          ⟨unanswered, (client.lines streamId).incoming ++ encodeRecord record⟩
  | .readable streamId reads =>
    if client.eventLoopRunning then client.clientOnStreamReadable streamId reads else none
  | .decode c => do
    let call ← client.calls c
    match call.point with
    | .awaitsReply =>
      -- seen before the thread waits, after the signal, or without one
      if call.context.finished then
        some (client.setCall c { call with
          point := .decoded (replyOf deserializeRpcMsg call.context) })
      else none
    | _ => none
  | .removeContext c => do
    let call ← client.calls c
    let streamId ← call.context.allocatedStream
    match call.point with
    | .decoded result =>
      if client.streamContextsListLocked then none
      else some { client.setCall c { call with point := .removed result } with
        streamContexts := client.removeStreamContext streamId client.streamContexts }
    | _ => none
  | .release c => do
    let call ← client.calls c
    let streamId ← call.context.allocatedStream
    match call.point with
    | .removed result =>
      some { client.setCall c { call with point := .returned result } with
        auxiliaryStreams := modifyFirst (fun stream => stream.id = streamId)
          (fun stream => { stream with streamInUse := false }) client.auxiliaryStreams }
    | _ => none

/-! ## Runs -/

/-- What is assumed of a step: the calls use auxiliary streams, new streams have
fresh ids, sends do not fail, the server replies with a record, and the reads of a
stream are the next bytes on it, in pieces of any size that fits the buffer. -/
def Admissible (client : QuicClient Conn Msg) : Event → Prop
  | .push _ _ useAuxiliaryStream => useAuxiliaryStream = true
  | .allocate newStream => ∀ id ∈ newStream, id ∉ client.auxiliaryStreams.map Stream.id
  | .writable _ errorCode => errorCode = 0
  | .reply _ record => record ≠ []
  | .readable streamId reads =>
    (∀ b ∈ reads, b ≠ [] ∧ b.length ≤ READ_BUF_SIZE) ∧
      reads.flatten <+: (client.lines streamId).incoming
  | _ => True

instance (client : QuicClient Conn Msg) : (event : Event) → Decidable (client.Admissible event)
  | .push _ _ useAuxiliaryStream => inferInstanceAs (Decidable (useAuxiliaryStream = true))
  | .allocate newStream =>
    inferInstanceAs (Decidable (∀ id ∈ newStream, id ∉ client.auxiliaryStreams.map Stream.id))
  | .writable _ errorCode => inferInstanceAs (Decidable (errorCode = 0))
  | .reply _ record => inferInstanceAs (Decidable (record ≠ []))
  | .readable streamId reads =>
    inferInstanceAs (Decidable ((∀ b ∈ reads, b ≠ [] ∧ b.length ≤ READ_BUF_SIZE) ∧
      reads.flatten <+: (client.lines streamId).incoming))
  | .addContext _ | .decode _ | .removeContext _ | .release _ => .isTrue trivial

/-- A sequence of admissible steps. -/
def run (deserializeRpcMsg : Bytes → Option Msg) (client : QuicClient Conn Msg) :
    List Event → Option (QuicClient Conn Msg)
  | [] => some client
  | event :: events =>
    if client.Admissible event then do
      let client ← client.step deserializeRpcMsg event
      client.run deserializeRpcMsg events
    else none

end QuicClient

end QuicNfs.Transport
