import Mathlib.Logic.Function.Basic
import QuicNfs.Transport.Lossless

/-!
# QuicNfs — calls of the TCP client

Any number of threads run `execute_rpc_call_tcp` on one connection (`tcp_rpc_client.c`). A call
takes the mutex of the connection, sends its record, receives a record and gives the mutex back;
the thread of the server (`handle_client_tcp`) answers the records that come.

* `TcpClient` — the state that the threads share, with the calls and the bytes under way;
* `TcpEvent` and `TcpClient.step` — what the threads and the server do. Sending a record and
  receiving one are single steps, since the mutex is held; they stop at any call of `send` or
  `recv` that fails;
* `TcpClient.run` — a sequence of steps.

The results of `send` and `recv` are compared as the signed numbers that they are, so that a
failure is one for the caller.
-/

namespace QuicNfs.Transport

open Kernel List

/-! ## Reported failures -/

section Reported

variable {τ : Type}

/-- `send_bytes_tcp` with a signed result of `send`. -/
def sendBytesReported (send : Bytes → Call τ Int) (sourceBuffer : Bytes) : Nat → Nat → Call τ Nat
  | 0, _ => failure
  | fuel + 1, totalBytesSent => do
    if totalBytesSent < sourceBuffer.length then
      let bytesSent ← send (sourceBuffer.drop totalBytesSent)
      if bytesSent < 0 then return 1
      if bytesSent = 0 then return 2 -- to avoid infinite loops
      sendBytesReported send sourceBuffer fuel (totalBytesSent + bytesSent.toNat)
    else return 0

/-- `receive_bytes_tcp` with a signed result of `recv`. -/
def receiveBytesReported (recv : Nat → Call τ RecvResult) (bytesToRead : Nat) :
    Nat → Nat → Bytes → Call τ (Nat × Bytes)
  | 0, _, _ => failure
  | fuel + 1, totalBytesRead, destinationBuffer => do
    if totalBytesRead < bytesToRead then
      let result ← recv (bytesToRead - totalBytesRead)
      let destinationBuffer := store destinationBuffer totalBytesRead result.data
      if result.count < 0 then return (1, destinationBuffer)
      if result.count = 0 then return (2, destinationBuffer) -- to avoid infinite loops
      receiveBytesReported recv bytesToRead fuel (totalBytesRead + result.count.toNat)
        destinationBuffer
    else return (0, destinationBuffer)

end Reported

/-! ## One direction of the connection -/

/-- What a call of `send` or `recv` does: it fails, or moves `n + 1` bytes at most. -/
inductive Reaction where
  | fails
  | moves (n : Nat)
deriving DecidableEq, Repr

/-- The bytes under way in one direction, and how the next calls react. When there is nothing
more to say, a call moves all it can. -/
structure Wire where
  bytes : Bytes
  reactions : List Reaction
deriving DecidableEq, Repr

namespace Wire

def send (data : Bytes) : Call Wire Int := fun w =>
  match w.reactions with
  | [] => some (data.length, ⟨w.bytes ++ data, []⟩)
  | .fails :: reactions => some (-1, ⟨w.bytes, reactions⟩)
  | .moves n :: reactions =>
    some ((data.take (n + 1)).length, ⟨w.bytes ++ data.take (n + 1), reactions⟩)

/-- Hands out the bytes, or waits while there are none. -/
def deliver (data : Bytes) (reactions : List Reaction) (w : Wire) : Option (RecvResult × Wire) :=
  if data = [] then none else some (.received data, ⟨w.bytes.drop data.length, reactions⟩)

def recv (n : Nat) : Call Wire RecvResult := fun w =>
  match w.reactions with
  | [] => deliver (w.bytes.take n) [] w
  | .fails :: reactions => some (.failed 0, ⟨w.bytes, reactions⟩)
  | .moves k :: reactions => deliver (w.bytes.take (min (k + 1) n)) reactions w

/-- `send_rm_record_tcp`. -/
def sendRecord (rmRecordData : Bytes) (fuel : Nat) : Call Wire Nat :=
  sendRmRecord (fun buffer => sendBytesReported send buffer fuel 0) fuel rmRecordData

/-- `receive_rm_record_tcp`. -/
def receiveRecord (memory : Nat → Nat → UInt8) (fuel : Nat) : Call Wire (Option Bytes) :=
  receiveRmRecord (fun bytesToRead buffer => receiveBytesReported recv bytesToRead fuel 0 buffer)
    memory fuel []

end Wire

/-! ## The client and the server -/

/-- How far `execute_rpc_call_tcp` has come. -/
inductive TcpPoint (Msg : Type) where
  | awaitsMutex
  | locked
  | awaitsReply
  /-- It has returned `NULL`, because its record could not be sent. -/
  | sendFailed
  /-- It has returned `NULL`, because no record could be received. -/
  | receiveFailed
  | returned (result : Option Msg)
deriving DecidableEq, Repr

/-- A call. The last two fields are not in the program: where in the stream of all bytes sent on
the connection its own begin and end. -/
structure TcpCall (Msg : Type) where
  callRpcMsg : Bytes
  point : TcpPoint Msg := .awaitsMutex
  first : Nat := 0
  past : Nat := 0
deriving DecidableEq, Repr

/-- A record that the server received, where in the stream of all bytes it was, and the record
that the server replied with. -/
structure TcpExchange where
  first : Nat
  past : Nat
  record : Bytes
  reply : Bytes
deriving DecidableEq, Repr

/-- The server thread of a connection: what `process_single_rpc_tcp` does with a record. It
replies or does not, and the thread goes on or ends. -/
structure TcpService (σ : Type) where
  reply : σ → Bytes → Option Bytes
  goesOn : σ → Bytes → Bool
  next : σ → Bytes → σ

/-- The connection: the mutex, the calls, the bytes under way in both directions and the server
thread. `sent` and `exchanges` are not in the program: how many bytes were sent to the server,
and what it replied to. -/
structure TcpClient (σ Msg : Type) where
  server : σ
  tcpConnectionMutex : Option Nat := none
  calls : Nat → Option (TcpCall Msg) := fun _ => none
  outgoing : Bytes := []
  incoming : Bytes := []
  serving : Bool := true
  sent : Nat := 0
  exchanges : List TcpExchange := []

/-- What can happen next. -/
inductive TcpEvent where
  /-- A thread makes a call, and has serialized its message. -/
  | start (c : Nat) (callRpcMsg : Bytes)
  | lock (c : Nat)
  /-- The call that holds the mutex sends its record. -/
  | send (c : Nat) (reactions : List Reaction) (fuel : Nat)
  /-- The server receives a record and replies; `cut` is how much of the reply it sends if that
  fails. -/
  | serve (reactions : List Reaction) (cut : Option Nat) (fuel : Nat)
  /-- The call that holds the mutex receives a record. -/
  | receive (c : Nat) (reactions : List Reaction) (fuel : Nat)
deriving DecidableEq, Repr

namespace TcpClient

variable {σ Msg : Type}

def setCall (client : TcpClient σ Msg) (c : Nat) (call : TcpCall Msg) : TcpClient σ Msg :=
  { client with calls := Function.update client.calls c (some call) }

/-- The call gives the mutex back and returns. -/
def finish (client : TcpClient σ Msg) (c : Nat) (call : TcpCall Msg) : TcpClient σ Msg :=
  { client.setCall c call with tcpConnectionMutex := none }

/-- `send_rm_record_tcp` has returned. -/
def afterSend (client : TcpClient σ Msg) (c : Nat) (call : TcpCall Msg) (errorCode : Nat)
    (outgoing : Bytes) : TcpClient σ Msg :=
  let sent := client.sent + (outgoing.length - client.outgoing.length)
  let client' := { client with outgoing, sent }
  let call' := { call with first := client.sent, past := sent }
  if errorCode > 0 then client'.finish c { call' with point := .sendFailed }
  else client'.setCall c { call' with point := .awaitsReply }

/-- `receive_rm_record_tcp` has returned. -/
def afterReceive (deserializeRpcMsg : Bytes → Option Msg) (client : TcpClient σ Msg) (c : Nat)
    (call : TcpCall Msg) (replyRpcMsgBuffer : Option Bytes) (incoming : Bytes) : TcpClient σ Msg :=
  let client' := { client with incoming }
  match replyRpcMsgBuffer with
  | none => client'.finish c { call with point := .receiveFailed }
  | some buffer => client'.finish c { call with point := .returned (deserializeRpcMsg buffer) }

/-- `process_single_rpc_tcp`, from the record on. -/
def afterServe (service : TcpService σ) (client : TcpClient σ Msg) (cut : Option Nat)
    (received : Option Bytes) (outgoing : Bytes) : TcpClient σ Msg :=
  match received with
  | none => { client with outgoing, serving := false }
  | some record =>
    let client' := { client with
      outgoing
      server := service.next client.server record
      serving := service.goesOn client.server record && cut.isNone }
    match service.reply client.server record with
    | none => client'
    | some reply =>
      let encoded := encodeRecord reply
      { client' with
        incoming := client.incoming ++ encoded.take (cut.getD encoded.length)
        exchanges := ⟨client.sent - client.outgoing.length, client.sent - outgoing.length, record,
          reply⟩ :: client.exchanges }

/-- One event. One that cannot happen now changes nothing. -/
def step (service : TcpService σ) (deserializeRpcMsg : Bytes → Option Msg)
    (memory : Nat → Nat → UInt8) (client : TcpClient σ Msg) : TcpEvent → TcpClient σ Msg
  | .start c callRpcMsg =>
    match client.calls c with
    | some _ => client
    | none => client.setCall c { callRpcMsg }
  | .lock c =>
    match client.calls c with
    | none => client
    | some call =>
      match call.point, client.tcpConnectionMutex with
      | .awaitsMutex, none =>
        { client.setCall c { call with point := .locked } with tcpConnectionMutex := some c }
      | _, _ => client
  | .send c reactions fuel =>
    match client.calls c with
    | none => client
    | some call =>
      match call.point with
      | .locked =>
        match (Wire.sendRecord call.callRpcMsg fuel).run ⟨client.outgoing, reactions⟩ with
        | none => client
        | some (errorCode, w) => client.afterSend c call errorCode w.bytes
      | _ => client
  | .serve reactions cut fuel =>
    if client.serving then
      match (Wire.receiveRecord memory fuel).run ⟨client.outgoing, reactions⟩ with
      | none => client
      | some (received, w) => client.afterServe service cut received w.bytes
    else client
  | .receive c reactions fuel =>
    match client.calls c with
    | none => client
    | some call =>
      match call.point with
      | .awaitsReply =>
        match (Wire.receiveRecord memory fuel).run ⟨client.incoming, reactions⟩ with
        | none => client
        | some (replyRpcMsgBuffer, w) =>
          client.afterReceive deserializeRpcMsg c call replyRpcMsgBuffer w.bytes
      | _ => client

def run (service : TcpService σ) (deserializeRpcMsg : Bytes → Option Msg)
    (memory : Nat → Nat → UInt8) (client : TcpClient σ Msg) (events : List TcpEvent) :
    TcpClient σ Msg :=
  events.foldl (step service deserializeRpcMsg memory) client

end TcpClient

/-! ## What the loops do when calls may fail -/

variable {buffer : Bytes}
variable {memory : Nat → Nat → UInt8}

section Loops

variable {τ : Type} {wire : τ → Bytes}

/-- A successful call has taken as many bytes as it was asked for from the front of the wire. -/
def Takes (wire : τ → Bytes) (receive : Nat → Bytes → Call τ (Nat × Bytes)) : Prop :=
  ∀ s s' bytesToRead buffer data, buffer.length = bytesToRead →
    (receive bytesToRead buffer).run s = some ((0, data), s') →
      data.length = bytesToRead ∧ wire s = data ++ wire s'

/-- A call has put bytes at the end of the wire, and all of them if it succeeded. -/
def Puts (wire : τ → Bytes) (send : Bytes → Call τ Nat) (form : Bytes → Bytes) : Prop :=
  ∀ s s' buffer code, (send buffer).run s = some (code, s') →
    ∃ more, wire s' = wire s ++ more ∧ (code = 0 → more = form buffer)

/-- A record that was received began with a fragment: its header, its payload and the rest. -/
theorem receiveRmRecord_header {receive : Nat → Bytes → Call τ (Nat × Bytes)}
    (hTakes : Takes wire receive) {s s' : τ} {rounds : Nat} {acc : Bytes}
    (hRun : (receiveRmRecord receive memory rounds acc).run s = some (some buffer, s')) :
    ∃ rounds', rounds = rounds' + 1 ∧ ∃ header s₁, header.length = RM_FRAGMENT_HEADER_SIZE ∧
      wire s = header ++ wire s₁ ∧ ∃ payload s₂, payload.length = fragmentSize header ∧
      wire s₁ = payload ++ wire s₂ ∧
      (if isLastFragment header then (return some (acc ++ payload) : Call τ (Option Bytes))
        else receiveRmRecord receive memory rounds' (acc ++ payload)).run s₂ =
        some (some buffer, s') := by
  cases rounds with
  | zero => cases hRun
  | succ rounds =>
    rw [receiveRmRecord] at hRun
    obtain ⟨⟨code, header⟩, s₁, hHead, hRun⟩ := run_bind_eq_some.mp hRun
    dsimp only at hRun
    split at hRun
    · cases hRun
    next hCode =>
    obtain rfl : code = 0 := Nat.eq_zero_of_not_pos hCode
    obtain ⟨hLength, hHeader⟩ := hTakes _ _ _ _ _ (length_uninitialised _ _) hHead
    obtain ⟨⟨code, payload⟩, s₂, hBody, hRun⟩ := run_bind_eq_some.mp hRun
    dsimp only at hRun
    split at hRun
    · cases hRun
    next hCode =>
    obtain rfl : code = 0 := Nat.eq_zero_of_not_pos hCode
    obtain ⟨hPayload, hTaken⟩ := hTakes _ _ _ _ _ (length_uninitialised _ _) hBody
    exact ⟨rounds, rfl, header, s₁, hLength, hHeader, payload, s₂, hPayload, hTaken, hRun⟩

/-- What a record takes from the wire. If the wire holds a sequence of fragments, or the first
part of one, then only the whole sequence is received as a record. -/
theorem receiveRmRecord_takes {receive : Nat → Bytes → Call τ (Nat × Bytes)}
    (hTakes : Takes wire receive) {fs : List Bytes}
    (hSize : ∀ f ∈ fs, f.length ≤ RM_MAX_FRAGMENT_DATA_SIZE) {s s' : τ} {missing : Bytes}
    (hWire : wire s ++ missing = encodeFragments fs) {rounds : Nat} {acc : Bytes}
    (hRun : (receiveRmRecord receive memory rounds acc).run s = some (some buffer, s')) :
    fs ≠ [] ∧ missing = [] ∧ wire s' = [] ∧ buffer = acc ++ fs.flatten := by
  induction fs generalizing rounds s acc with
  | nil =>
    obtain ⟨hEmpty, -⟩ := append_eq_nil_iff.mp hWire
    obtain ⟨rounds, rfl, header, s₁, hLength, hHeader, -⟩ := receiveRmRecord_header hTakes hRun
    rw [hEmpty] at hHeader
    obtain ⟨rfl, -⟩ := append_eq_nil_iff.mp hHeader.symm
    cases hLength
  | cons f fs ih =>
    obtain ⟨rounds, rfl, header, s₁, hLength, hHeader, payload, s₂, hPayload, hTaken, hRun⟩ :=
      receiveRmRecord_header hTakes hRun
    have hMax := hSize f (by simp)
    rw [hHeader, encodeFragments_cons, append_assoc] at hWire
    obtain ⟨rfl, hTail⟩ := append_inj hWire (by rw [hLength, length_fragmentHeader])
    rw [fragmentSize_header hMax] at hPayload
    rw [hTaken, append_assoc] at hTail
    obtain ⟨rfl, hRest⟩ := append_inj hTail hPayload
    rw [isLastFragment_header hMax] at hRun
    by_cases hLast : fs = []
    · subst hLast
      obtain ⟨hEnd, hMissing⟩ := append_eq_nil_iff.mp hRest
      cases hRun
      refine ⟨cons_ne_nil _ _, hMissing, hEnd, ?_⟩
      rw [flatten_cons, flatten_nil, append_nil]
    · rw [if_neg (by simpa using hLast)] at hRun
      obtain ⟨-, hMissing, hEnd, hBuffer⟩ :=
        ih (fun g hg => hSize g (mem_cons_of_mem _ hg)) hRest hRun
      refine ⟨cons_ne_nil _ _, hMissing, hEnd, ?_⟩
      rw [hBuffer, append_assoc, flatten_cons]

/-- A record goes out as its encoding, or as a part of it if that fails. -/
theorem puts_sendRmRecord {send : Bytes → Call τ Nat} (hPuts : Puts wire send id) (rounds : Nat) :
    Puts wire (sendRmRecord send rounds) encodeRecord := by
  intro s s' left code hRun
  induction rounds generalizing s left with
  | zero => cases hRun
  | succ rounds ih =>
    by_cases hne : left = []
    · subst hne
      cases hRun
      exact ⟨[], (append_nil _).symm, fun _ => rfl⟩
    obtain ⟨n, hn⟩ : ∃ n, n = nextFragmentSize left.length := ⟨_, rfl⟩
    rw [sendRmRecord_round hne hn] at hRun
    -- the header
    obtain ⟨code₁, s₁, hHeader, hRun⟩ := run_bind_eq_some.mp hRun
    obtain ⟨more₁, hWire₁, hAll₁⟩ := hPuts _ _ _ _ hHeader
    split at hRun
    · cases hRun
      exact ⟨more₁, hWire₁, nofun⟩
    next hCode₁ =>
    -- the data of the fragment
    obtain ⟨code₂, s₂, hData, hRun⟩ := run_bind_eq_some.mp hRun
    obtain ⟨more₂, hWire₂, hAll₂⟩ := hPuts _ _ _ _ hData
    rw [hWire₁, append_assoc] at hWire₂
    split at hRun
    · cases hRun
      exact ⟨more₁ ++ more₂, hWire₂, nofun⟩
    next hCode₂ =>
    -- the other fragments
    obtain ⟨more₃, hWire₃, hAll₃⟩ := ih _ _ hRun
    rw [hWire₂, append_assoc] at hWire₃
    refine ⟨more₁ ++ more₂ ++ more₃, hWire₃, fun hCode => ?_⟩
    rw [hAll₁ (Nat.eq_zero_of_not_pos hCode₁), hAll₂ (Nat.eq_zero_of_not_pos hCode₂), hAll₃ hCode,
      encodeRecord_step hne, ← hn]
    rfl

end Loops

namespace Wire

variable {w w' : Wire}

theorem recv_received {n : Nat} {r : RecvResult} (h : (recv n).run w = some (r, w'))
    (hCount : 0 ≤ r.count) :
    r.data.length ≤ n ∧ r.count = r.data.length ∧ w.bytes = r.data ++ w'.bytes := by
  have hDeliver : ∀ {k : Nat} {reactions : List Reaction}, k ≤ n →
      deliver (w.bytes.take k) reactions w = some (r, w') →
      r.data.length ≤ n ∧ r.count = r.data.length ∧ w.bytes = r.data ++ w'.bytes := by
    intro k reactions hk hSome
    rw [deliver] at hSome
    split at hSome
    · cases hSome
    · cases hSome
      refine ⟨?_, rfl, ?_⟩
      · show (w.bytes.take k).length ≤ n
        rw [length_take]
        omega
      · show w.bytes = w.bytes.take k ++ w.bytes.drop (w.bytes.take k).length
        rw [length_take]
        rcases Nat.le_total k w.bytes.length with hLe | hLe
        · rw [Nat.min_eq_left hLe, take_append_drop]
        · rw [Nat.min_eq_right hLe, take_of_length_le hLe, drop_length, append_nil]
  change (match w.reactions with
    | [] => deliver (w.bytes.take n) [] w
    | .fails :: reactions => some (.failed 0, ⟨w.bytes, reactions⟩)
    | .moves k :: reactions => deliver (w.bytes.take (min (k + 1) n)) reactions w) = _ at h
  split at h
  · exact hDeliver (Nat.le_refl n) h
  · cases h
    cases hCount
  · exact hDeliver (Nat.min_le_right _ n) h

variable {fuel : Nat}

/-- The loop invariant: what is in the buffer and what was taken in this call. -/
theorem receiveBytesReported_takes {bytesToRead total : Nat} {data : Bytes}
    (hBuffer : buffer.length = bytesToRead) (hTotal : total ≤ bytesToRead)
    (hRun : (receiveBytesReported recv bytesToRead fuel total buffer).run w =
      some ((0, data), w')) :
    ∃ taken, data = buffer.take total ++ taken ∧ data.length = bytesToRead ∧
      w.bytes = taken ++ w'.bytes := by
  induction fuel generalizing total buffer w with
  | zero => cases hRun
  | succ fuel ih =>
    rw [receiveBytesReported] at hRun
    by_cases hMore : total < bytesToRead
    · rw [if_pos hMore] at hRun
      obtain ⟨r, w₁, hRecv, hRun⟩ := run_bind_eq_some.mp hRun
      dsimp only at hRun
      split at hRun
      · cases hRun
      next hNonneg =>
      split at hRun
      · cases hRun
      obtain ⟨hLe, hCount, hBytes⟩ := recv_received hRecv (Int.not_lt.mp hNonneg)
      rw [hCount, Int.toNat_natCast] at hRun
      obtain ⟨taken, hData, hLength, hWire⟩ :=
        ih (by rw [length_store (by omega), hBuffer]) (by omega) hRun
      rw [store_of_le (by omega), append_assoc] at hData
      exact ⟨r.data ++ taken, hData, hLength, by rw [hBytes, hWire, append_assoc]⟩
    · rw [if_neg hMore] at hRun
      cases hRun
      refine ⟨[], ?_, hBuffer, rfl⟩
      rw [append_nil, take_of_length_le (by omega)]

theorem takes_receiveBytes (fuel : Nat) :
    Takes Wire.bytes (fun bytesToRead buffer =>
      receiveBytesReported recv bytesToRead fuel 0 buffer) := by
  intro w w' bytesToRead buffer data hBuffer hRun
  obtain ⟨taken, hData, hLength, hWire⟩ :=
    receiveBytesReported_takes hBuffer (Nat.zero_le bytesToRead) hRun
  rw [take_zero, nil_append] at hData
  rw [hData]
  exact ⟨hData ▸ hLength, hWire⟩

theorem send_puts {data : Bytes} {n : Int} (h : (send data).run w = some (n, w')) :
    w'.bytes = w.bytes ++ data.take n.toNat := by
  change (match w.reactions with
    | [] => some ((data.length : Int), (⟨w.bytes ++ data, []⟩ : Wire))
    | .fails :: reactions => some (-1, ⟨w.bytes, reactions⟩)
    | .moves n :: reactions => some (((data.take (n + 1)).length : Int),
      ⟨w.bytes ++ data.take (n + 1), reactions⟩)) = _ at h
  split at h
  · cases h
    rw [Int.toNat_natCast, take_length]
  · cases h
    exact (append_nil w.bytes).symm
  · cases h
    rw [Int.toNat_natCast, length_take, ← take_take, take_length]

theorem puts_sendBytes (fuel : Nat) :
    Puts Wire.bytes (fun buffer => sendBytesReported send buffer fuel 0) id := by
  have hLoop : ∀ {fuel total code : Nat} {buffer : Bytes} {w w' : Wire},
      (sendBytesReported send buffer fuel total).run w = some (code, w') →
      ∃ more, w'.bytes = w.bytes ++ more ∧ (code = 0 → more = buffer.drop total) := by
    intro fuel
    induction fuel with
    | zero => exact nofun
    | succ fuel ih =>
      intro total code buffer w w' hRun
      rw [sendBytesReported] at hRun
      split at hRun
      · obtain ⟨n, w₁, hSend, hRun⟩ := run_bind_eq_some.mp hRun
        have hPut := send_puts hSend
        split at hRun
        · cases hRun
          exact ⟨_, hPut, nofun⟩
        split at hRun
        · cases hRun
          exact ⟨_, hPut, nofun⟩
        obtain ⟨more, hMore, hAll⟩ := ih hRun
        rw [hPut, append_assoc] at hMore
        refine ⟨_, hMore, fun hCode => ?_⟩
        rw [hAll hCode, ← drop_drop, take_append_drop]
      · next hDone =>
        cases hRun
        refine ⟨[], (append_nil _).symm, fun _ => ?_⟩
        rw [drop_eq_nil_of_le (Nat.le_of_not_lt hDone)]
  intro w w' buffer code hRun
  exact hLoop hRun

theorem sendRecord_puts {record : Bytes} {code : Nat}
    (h : (sendRecord record fuel).run w = some (code, w')) :
    ∃ more, w'.bytes = w.bytes ++ more ∧ (code = 0 → more = encodeRecord record) :=
  puts_sendRmRecord (puts_sendBytes fuel) fuel w w' record code h

/-- From a wire that holds a record or its first part, only the whole record is received. -/
theorem receiveRecord_takes {record missing : Bytes}
    (hWire : w.bytes ++ missing = encodeRecord record)
    (h : (receiveRecord memory fuel).run w = some (some buffer, w')) :
    record ≠ [] ∧ missing = [] ∧ w'.bytes = [] ∧ buffer = record := by
  by_cases hne : record = []
  · subst hne
    have hEmpty : w.bytes ++ missing = encodeFragments [] := hWire
    obtain ⟨hNil, -⟩ := receiveRmRecord_takes (takes_receiveBytes fuel)
      (fun _ hf => absurd hf not_mem_nil) hEmpty h
    exact absurd rfl hNil
  · have hCut := cut_fragments hne
    obtain ⟨-, hMissing, hEnd, hBuffer⟩ :=
      receiveRmRecord_takes (takes_receiveBytes fuel) (fun f hf => (hCut.size hf).2) hWire h
    rw [nil_append, hCut.flatten] at hBuffer
    exact ⟨hne, hMissing, hEnd, hBuffer⟩

/-- Where there is nothing, no record is received. -/
theorem receiveRecord_ne_nil (h : (receiveRecord memory fuel).run w = some (some buffer, w')) :
    w.bytes ≠ [] := by
  intro hEmpty
  have hWire : w.bytes ++ [] = encodeRecord [] := by
    rw [hEmpty]
    rfl
  obtain ⟨hNil, -⟩ := receiveRecord_takes hWire h
  exact hNil rfl

end Wire

end QuicNfs.Transport
