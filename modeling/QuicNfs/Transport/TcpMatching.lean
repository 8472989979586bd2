import QuicNfs.Transport.TcpClient

/-!
# QuicNfs — replies and calls over TCP

`execute_rpc_call_tcp` takes whatever record comes next for its reply: it does not compare the
xid, and the server does not even send the xid of the call back. So a reply belongs to its call
only if the stream is empty when the call begins.

* `Clean` — no call has left anything in the streams: none failed while receiving, and one that
  failed while sending had not sent a byte;
* `Aligned` — in a clean state only the call that awaits its reply has bytes under way;
* `tcp_replies_match` — in a clean state every reply returned is the one to its call;
* `late_reply_taken` — after a failure the next call gets the reply to the failed one.
-/

namespace QuicNfs.Transport

open Kernel List Function

namespace TcpClient

variable {σ Msg : Type}

/-- The message is the reply that the server produced for the call: for the record that consists
of exactly the bytes that the call sent. -/
def Answered (deserialize : Bytes → Option Msg) (client : TcpClient σ Msg)
    (call : TcpCall Msg) (msg : Msg) : Prop :=
  ∃ reply, ⟨call.first, call.past, call.callRpcMsg, reply⟩ ∈ client.exchanges ∧
    deserialize reply = some msg

/-- No call has failed while receiving, and one that failed while sending had not sent a byte. -/
def Clean (client : TcpClient σ Msg) : Prop :=
  ∀ c call, client.calls c = some call →
    call.point ≠ .receiveFailed ∧ (call.point = .sendFailed → call.past = call.first)

/-- Nothing is under way to the client, nor to the server as long as it reads. -/
def Idle (client : TcpClient σ Msg) : Prop :=
  client.incoming = [] ∧ (client.serving = true → client.outgoing = [])

/-- What is under way for a call that awaits its reply. -/
inductive Waiting (client : TcpClient σ Msg) (call : TcpCall Msg) : Prop
  | unserved (hOut : client.outgoing = encodeRecord call.callRpcMsg) (hIn : client.incoming = [])
      (hFirst : call.first + client.outgoing.length = client.sent)
      (hPast : call.past = client.sent)
  /-- The server has replied, and may have stopped in the middle of the reply. -/
  | answered (reply missing : Bytes) (hOut : client.serving = true → client.outgoing = [])
      (hIn : client.incoming ++ missing = encodeRecord reply)
      (hMem : ⟨call.first, call.past, call.callRpcMsg, reply⟩ ∈ client.exchanges)
  /-- There will be no reply. -/
  | silent (hIdle : client.Idle)

theorem Waiting.congr {client client' : TcpClient σ Msg} {call : TcpCall Msg}
    (h : client.Waiting call) (hOut : client'.outgoing = client.outgoing)
    (hIn : client'.incoming = client.incoming) (hServing : client'.serving = client.serving)
    (hSent : client'.sent = client.sent) (hExchanges : client'.exchanges = client.exchanges) :
    client'.Waiting call := by
  cases h with
  | unserved h₁ h₂ h₃ h₄ =>
    exact .unserved (hOut.trans h₁) (hIn.trans h₂) (by rw [hOut, hSent, h₃]) (h₄.trans hSent.symm)
  | answered reply missing h₁ h₂ h₃ =>
    refine .answered reply missing ?_ (by rw [hIn, h₂]) (by rw [hExchanges]; exact h₃)
    rw [hServing, hOut]
    exact h₁
  | silent hIdle =>
    refine .silent ⟨hIn.trans hIdle.1, ?_⟩
    rw [hServing, hOut]
    exact hIdle.2

/-- Only the call that awaits its reply has bytes under way. -/
structure Aligned (deserialize : Bytes → Option Msg) (client : TcpClient σ Msg) : Prop where
  holder : ∀ {c call}, client.calls c = some call →
    call.point = .locked ∨ call.point = .awaitsReply → client.tcpConnectionMutex = some c
  quiet : (∀ c call, client.calls c = some call → call.point ≠ .awaitsReply) → client.Idle
  waiting : ∀ {c call}, client.calls c = some call → call.point = .awaitsReply → client.Waiting call
  matched : ∀ {c call msg}, client.calls c = some call → call.point = .returned (some msg) →
    client.Answered deserialize call msg

variable {deserialize : Bytes → Option Msg} {client : TcpClient σ Msg} {c : Nat}
  {call : TcpCall Msg}

theorem update_cases {calls : Nat → Option (TcpCall Msg)} {d : Nat} {call' : TcpCall Msg}
    (h : update calls c (some call) d = some call') :
    d = c ∧ call' = call ∨ d ≠ c ∧ calls d = some call' := by
  by_cases hd : d = c
  · subst hd
    rw [update_self] at h
    exact .inl ⟨rfl, (Option.some.inj h).symm⟩
  · rw [update_of_ne hd] at h
    exact .inr ⟨hd, h⟩

section

variable (h : Aligned deserialize client)
include h

/-- Two calls do not hold the mutex at once. -/
theorem Aligned.alone (hCall : client.calls c = some call)
    (hHolds : call.point = .locked ∨ call.point = .awaitsReply) {d : Nat} {other : TcpCall Msg}
    (hd : d ≠ c) (hOther : client.calls d = some other) :
    ¬(other.point = .locked ∨ other.point = .awaitsReply) := by
  intro hBoth
  have hMutex := (h.holder hCall hHolds).symm.trans (h.holder hOther hBoth)
  exact hd (Option.some.inj hMutex).symm

theorem Aligned.idle_of_locked
    (hCall : client.calls c = some call) (hPoint : call.point = .locked) : client.Idle := by
  refine h.quiet fun d other hOther hAwaits => ?_
  by_cases hd : d = c
  · subst hd
    cases hCall.symm.trans hOther
    rw [hPoint] at hAwaits
    cases hAwaits
  · exact h.alone hCall (.inl hPoint) hd hOther (.inr hAwaits)

/-- A call changes and no bytes do, and it does not await a reply before or after that. -/
theorem Aligned.update
    (hBefore : ∀ call, client.calls c = some call → call.point ≠ .awaitsReply)
    (hAwaits : call.point ≠ .awaitsReply) (hResult : ∀ msg, call.point ≠ .returned (some msg))
    {mutex : Option Nat} (hMutex : ∀ d, d ≠ c → client.tcpConnectionMutex = some d → mutex = some d)
    (hLocked : call.point = .locked → mutex = some c) :
    Aligned deserialize { client.setCall c call with tcpConnectionMutex := mutex } where
  holder {d other} hOther hHolds := by
    rcases update_cases hOther with ⟨rfl, rfl⟩ | ⟨hd, hOther⟩
    · exact hLocked (hHolds.resolve_right hAwaits)
    · exact hMutex d hd (h.holder hOther hHolds)
  quiet hNone := by
    refine h.quiet fun d other hOther hPoint => ?_
    by_cases hd : d = c
    · subst hd
      exact hBefore other hOther hPoint
    · refine hNone d other ?_ hPoint
      show Function.update client.calls c (some call) d = some other
      rw [Function.update_of_ne hd, hOther]
  waiting {d other} hOther hPoint := by
    rcases update_cases hOther with ⟨rfl, rfl⟩ | ⟨hd, hOther⟩
    · exact absurd hPoint hAwaits
    · exact (h.waiting hOther hPoint).congr rfl rfl rfl rfl rfl
  matched {d other msg} hOther hPoint := by
    rcases update_cases hOther with ⟨rfl, rfl⟩ | ⟨hd, hOther⟩
    · exact absurd hPoint (hResult msg)
    · exact h.matched hOther hPoint

/-- The record was sent: the call awaits its reply. -/
theorem Aligned.sent (hCall : client.calls c = some call) (hPoint : call.point = .locked) :
    Aligned deserialize (client.afterSend c call 0
      (client.outgoing ++ encodeRecord call.callRpcMsg)) := by
  obtain ⟨hIn, hOut⟩ := h.idle_of_locked hCall hPoint
  have hLength : (client.outgoing ++ encodeRecord call.callRpcMsg).length - client.outgoing.length =
      (encodeRecord call.callRpcMsg).length := by
    rw [length_append, Nat.add_sub_cancel_left]
  rw [afterSend, if_neg (Nat.lt_irrefl 0), hLength]
  refine ⟨?_, ?_, ?_, ?_⟩
  · intro d other hOther hHolds
    rcases update_cases hOther with ⟨rfl, rfl⟩ | ⟨hd, hOther⟩
    · exact h.holder hCall (.inl hPoint)
    · exact h.holder hOther hHolds
  · intro hNone
    exact absurd rfl (hNone c _ (update_self ..))
  · intro d other hOther hAwaits
    rcases update_cases hOther with ⟨rfl, rfl⟩ | ⟨hd, hOther⟩
    · by_cases hServing : client.serving = true
      · refine .unserved ?_ hIn ?_ rfl
        · show client.outgoing ++ encodeRecord call.callRpcMsg = encodeRecord call.callRpcMsg
          rw [hOut hServing, nil_append]
        · show client.sent + (client.outgoing ++ encodeRecord call.callRpcMsg).length =
            client.sent + (encodeRecord call.callRpcMsg).length
          rw [hOut hServing, nil_append]
      · exact .silent ⟨hIn, fun hServing' => absurd hServing' hServing⟩
    · exact absurd (.inr hAwaits) (h.alone hCall (.inl hPoint) hd hOther)
  · intro d other msg hOther hReturned
    rcases update_cases hOther with ⟨rfl, rfl⟩ | ⟨hd, hOther⟩
    · cases hReturned
    · exact h.matched hOther hReturned

/-- A record was received: it is the reply to the call. -/
theorem Aligned.received
    (hCall : client.calls c = some call) (hPoint : call.point = .awaitsReply)
    {memory : Nat → Nat → UInt8} {fuel : Nat} {reactions : List Reaction} {buffer : Bytes}
    {w : Wire} (hRun : (Wire.receiveRecord memory fuel).run ⟨client.incoming, reactions⟩ =
      some (some buffer, w)) :
    Aligned deserialize (client.afterReceive deserialize c call (some buffer) w.bytes) := by
  have hNothing : client.incoming ≠ [] := Wire.receiveRecord_ne_nil hRun
  cases h.waiting hCall hPoint with
  | unserved _ hIn => exact absurd hIn hNothing
  | silent hIdle => exact absurd hIdle.1 hNothing
  | answered reply missing hOut hIn hMem =>
    obtain ⟨-, -, hEnd, rfl⟩ := Wire.receiveRecord_takes hIn hRun
    refine ⟨?_, ?_, ?_, ?_⟩
    · intro d other hOther hHolds
      rcases update_cases hOther with ⟨rfl, rfl⟩ | ⟨hd, hOther⟩
      · exact absurd hHolds (by simp)
      · exact absurd hHolds (h.alone hCall (.inr hPoint) hd hOther)
    · intro hNone
      exact ⟨hEnd, hOut⟩
    · intro d other hOther hAwaits
      rcases update_cases hOther with ⟨rfl, rfl⟩ | ⟨hd, hOther⟩
      · cases hAwaits
      · exact absurd (.inr hAwaits) (h.alone hCall (.inr hPoint) hd hOther)
    · intro d other msg hOther hReturned
      rcases update_cases hOther with ⟨rfl, rfl⟩ | ⟨hd, hOther⟩
      · exact ⟨buffer, hMem, TcpPoint.returned.inj hReturned⟩
      · exact h.matched hOther hReturned

/-- The server has stopped reading. -/
theorem Aligned.stopped (outgoing : Bytes) :
    Aligned deserialize { client with outgoing, serving := false } where
  holder := h.holder
  quiet hNone := ⟨(h.quiet hNone).1, nofun⟩
  waiting hCall hPoint := by
    cases h.waiting hCall hPoint with
    | unserved _ hIn => exact .silent ⟨hIn, nofun⟩
    | answered reply missing _ hIn hMem => exact .answered reply missing nofun hIn hMem
    | silent hIdle => exact .silent ⟨hIdle.1, nofun⟩
  matched := h.matched

/-- The server has received a record: it is that of the call that awaits its reply. -/
theorem Aligned.served (service : TcpService σ)
    (hServing : client.serving = true) {memory : Nat → Nat → UInt8} {fuel : Nat}
    {reactions : List Reaction} {record : Bytes} {w : Wire}
    (hRun : (Wire.receiveRecord memory fuel).run ⟨client.outgoing, reactions⟩ =
      some (some record, w)) (cut : Option Nat) :
    Aligned deserialize (client.afterServe service cut (some record) w.bytes) := by
  have hSome : client.outgoing ≠ [] := Wire.receiveRecord_ne_nil hRun
  -- a record is only there if a call awaits its reply and was not served
  have hUnserved : ∀ {c call}, client.calls c = some call → call.point = .awaitsReply →
      client.outgoing = encodeRecord call.callRpcMsg ∧ client.incoming = [] ∧
        call.first + client.outgoing.length = client.sent ∧ call.past = client.sent := by
    intro c call hCall hPoint
    cases h.waiting hCall hPoint with
    | unserved hOut hIn hFirst hPast => exact ⟨hOut, hIn, hFirst, hPast⟩
    | answered _ _ hOut => exact absurd (hOut hServing) hSome
    | silent hIdle => exact absurd (hIdle.2 hServing) hSome
  have hAwaited : ¬∀ c call, client.calls c = some call → call.point ≠ .awaitsReply :=
    fun hNone => hSome ((h.quiet hNone).2 hServing)
  unfold afterServe
  dsimp only
  cases hReply : service.reply client.server record with
  | none =>
    refine ⟨h.holder, fun hNone => absurd hNone hAwaited, ?_, h.matched⟩
    intro c call hCall hPoint
    obtain ⟨hOut, hIn, -⟩ := hUnserved hCall hPoint
    rw [← append_nil client.outgoing] at hOut
    obtain ⟨-, -, hEnd, -⟩ := Wire.receiveRecord_takes hOut hRun
    exact .silent ⟨hIn, fun _ => hEnd⟩
  | some reply =>
    refine ⟨h.holder, fun hNone => absurd hNone hAwaited, ?_, ?_⟩
    · intro c call hCall hPoint
      obtain ⟨hOut, hIn, hFirst, hPast⟩ := hUnserved hCall hPoint
      have hWire : client.outgoing ++ [] = encodeRecord call.callRpcMsg := by
        rw [append_nil, hOut]
      obtain ⟨-, -, hEnd, hRecord⟩ := Wire.receiveRecord_takes hWire hRun
      refine .answered reply ((encodeRecord reply).drop (cut.getD (encodeRecord reply).length))
        (fun _ => hEnd) ?_ (mem_cons.mpr (.inl ?_))
      · show client.incoming ++ _ ++ _ = _
        rw [hIn, nil_append, take_append_drop]
      · rw [hEnd, hRecord, hPast, length_nil, Nat.sub_zero, ← hFirst, Nat.add_sub_cancel]
    · intro c call msg hCall hReturned
      obtain ⟨reply', hMem, hMsg⟩ := h.matched hCall hReturned
      exact ⟨reply', mem_cons_of_mem _ hMem, hMsg⟩

end

/-! ## Steps -/

section Steps

variable {service : TcpService σ} {memory : Nat → Nat → UInt8}

/-- What a step can do. -/
inductive Moved (service : TcpService σ) (deserialize : Bytes → Option Msg)
    (memory : Nat → Nat → UInt8) (client : TcpClient σ Msg) : TcpClient σ Msg → Prop
  | same : Moved service deserialize memory client client
  | started (c : Nat) (hNew : client.calls c = none) (callRpcMsg : Bytes) :
    Moved service deserialize memory client (client.setCall c { callRpcMsg })
  | locked {c : Nat} {call : TcpCall Msg} (hCall : client.calls c = some call)
      (hPoint : call.point = .awaitsMutex) (hFree : client.tcpConnectionMutex = none) :
    Moved service deserialize memory client
      { client.setCall c { call with point := .locked } with tcpConnectionMutex := some c }
  | sendFailed {c : Nat} {call : TcpCall Msg} (hCall : client.calls c = some call)
      (hPoint : call.point = .locked) (more : Bytes) {errorCode : Nat} (hError : errorCode > 0) :
    Moved service deserialize memory client
      (client.afterSend c call errorCode (client.outgoing ++ more))
  | sent {c : Nat} {call : TcpCall Msg} (hCall : client.calls c = some call)
      (hPoint : call.point = .locked) :
    Moved service deserialize memory client
      (client.afterSend c call 0 (client.outgoing ++ encodeRecord call.callRpcMsg))
  | stopped (outgoing : Bytes) :
    Moved service deserialize memory client { client with outgoing, serving := false }
  | served (hServing : client.serving = true) {fuel : Nat} {reactions : List Reaction}
      {record : Bytes} {w : Wire}
      (hRun : (Wire.receiveRecord memory fuel).run ⟨client.outgoing, reactions⟩ =
        some (some record, w)) (cut : Option Nat) :
    Moved service deserialize memory client (client.afterServe service cut (some record) w.bytes)
  | receiveFailed {c : Nat} {call : TcpCall Msg} (hCall : client.calls c = some call)
      (hPoint : call.point = .awaitsReply) (incoming : Bytes) :
    Moved service deserialize memory client (client.afterReceive deserialize c call none incoming)
  | received {c : Nat} {call : TcpCall Msg} (hCall : client.calls c = some call)
      (hPoint : call.point = .awaitsReply) {fuel : Nat} {reactions : List Reaction}
      {buffer : Bytes} {w : Wire}
      (hRun : (Wire.receiveRecord memory fuel).run ⟨client.incoming, reactions⟩ =
        some (some buffer, w)) :
    Moved service deserialize memory client
      (client.afterReceive deserialize c call (some buffer) w.bytes)

theorem moved_step (client : TcpClient σ Msg) (e : TcpEvent) :
    Moved service deserialize memory client (client.step service deserialize memory e) := by
  cases e with
  | start c callRpcMsg =>
    simp only [step]
    split
    · exact .same
    · next hNew => exact .started c hNew callRpcMsg
  | lock c =>
    simp only [step]
    split
    · exact .same
    next hCall =>
    split
    · next hPoint hFree => exact .locked hCall hPoint hFree
    · exact .same
  | send c reactions fuel =>
    simp only [step]
    split
    · exact .same
    next call hCall =>
    split
    · next hPoint =>
      split
      · exact .same
      · next errorCode w hRun =>
        obtain ⟨more, hMore, hAll⟩ := Wire.sendRecord_puts hRun
        rw [hMore]
        rcases Nat.eq_zero_or_pos errorCode with rfl | hError
        · rw [hAll rfl]
          exact .sent hCall hPoint
        · exact .sendFailed hCall hPoint more hError
    · exact .same
  | serve reactions cut fuel =>
    simp only [step]
    split
    · next hServing =>
      split
      · exact .same
      · next received w hRun =>
        cases received with
        | none => exact .stopped w.bytes
        | some record => exact .served hServing hRun cut
    · exact .same
  | receive c reactions fuel =>
    simp only [step]
    split
    · exact .same
    next call hCall =>
    split
    · next hPoint =>
      split
      · exact .same
      · next buffer w hRun =>
        cases buffer with
        | none => exact .receiveFailed hCall hPoint w.bytes
        | some buffer => exact .received hCall hPoint hRun
    · exact .same

/-- A call that has failed stays as it is. -/
theorem Moved.calls_of_failed {client' : TcpClient σ Msg}
    (h : Moved service deserialize memory client client') (hCall : client.calls c = some call)
    (hFailed : call.point = .sendFailed ∨ call.point = .receiveFailed) :
    client'.calls c = some call := by
  -- the call that changes is another one
  have hOther : ∀ {d : Nat} {other other' : TcpCall Msg}, client.calls d = some other →
      other.point ≠ .sendFailed → other.point ≠ .receiveFailed →
      update client.calls d (some other') c = some call := by
    intro d other other' hd hSend hReceive
    have hne : c ≠ d := by
      rintro rfl
      cases hCall.symm.trans hd
      exact hFailed.elim hSend hReceive
    rw [update_of_ne hne, hCall]
  cases h with
  | same => exact hCall
  | started d hNew callRpcMsg =>
    have hne : c ≠ d := by
      rintro rfl
      cases hCall.symm.trans hNew
    exact (update_of_ne hne _ _).trans hCall
  | locked hd hPoint => exact hOther hd (by simp [hPoint]) (by simp [hPoint])
  | sendFailed hd hPoint more hError =>
    rw [afterSend, if_pos hError]
    exact hOther hd (by simp [hPoint]) (by simp [hPoint])
  | sent hd hPoint =>
    rw [afterSend, if_neg (Nat.lt_irrefl 0)]
    exact hOther hd (by simp [hPoint]) (by simp [hPoint])
  | stopped => exact hCall
  | served hServing hRun cut =>
    unfold afterServe
    dsimp only
    split <;> exact hCall
  | receiveFailed hd hPoint => exact hOther hd (by simp [hPoint]) (by simp [hPoint])
  | received hd hPoint => exact hOther hd (by simp [hPoint]) (by simp [hPoint])

theorem Clean.of_step {e : TcpEvent}
    (h : (client.step service deserialize memory e).Clean) : client.Clean := by
  intro c call hCall
  refine ⟨?_, ?_⟩
  · intro hFailed
    exact (h c call ((moved_step client e).calls_of_failed hCall (.inr hFailed))).1 hFailed
  · intro hFailed
    exact (h c call ((moved_step client e).calls_of_failed hCall (.inl hFailed))).2 hFailed

/-- A step that leaves the state clean leaves it aligned. -/
theorem Aligned.moved (h : Aligned deserialize client) {client' : TcpClient σ Msg}
    (hMoved : Moved service deserialize memory client client') (hClean : client'.Clean) :
    Aligned deserialize client' := by
  cases hMoved with
  | same => exact h
  | started c hNew callRpcMsg =>
    refine h.update ?_ (by simp) (by simp) (fun _ _ hMutex => hMutex) (by simp)
    intro other hOther
    cases hNew.symm.trans hOther
  | locked hCall hPoint hFree =>
    refine h.update ?_ (by simp) (by simp) ?_ (fun _ => rfl)
    · intro other hOther
      cases hCall.symm.trans hOther
      simp [hPoint]
    · intro d _ hMutex
      cases hFree.symm.trans hMutex
  | sendFailed hCall hPoint more hError =>
    rw [afterSend, if_pos hError] at hClean ⊢
    -- nothing was sent, or the state would not be clean
    have hNothing : client.sent + ((client.outgoing ++ more).length - client.outgoing.length) =
        client.sent := (hClean _ _ (update_self ..)).2 rfl
    obtain rfl : more = [] := by
      rw [length_append] at hNothing
      exact length_eq_zero_iff.mp (by omega)
    rw [hNothing, append_nil]
    refine h.update ?_ (by simp) (by simp) ?_ (by simp)
    · intro other hOther
      cases hCall.symm.trans hOther
      simp [hPoint]
    · intro d hd hMutex
      exact absurd (Option.some.inj (hMutex.symm.trans (h.holder hCall (.inl hPoint)))) hd
  | sent hCall hPoint => exact h.sent hCall hPoint
  | stopped outgoing => exact h.stopped outgoing
  | served hServing hRun cut => exact h.served service hServing hRun cut
  | receiveFailed hCall hPoint incoming =>
    exact absurd rfl (hClean _ _ (update_self ..)).1
  | received hCall hPoint hRun => exact h.received hCall hPoint hRun

end Steps

/-! ## Runs -/

section Runs

variable {service : TcpService σ} {memory : Nat → Nat → UInt8}

theorem Clean.of_run {events : List TcpEvent}
    (h : (client.run service deserialize memory events).Clean) : client.Clean := by
  induction events generalizing client with
  | nil => exact h
  | cons e events ih => exact (ih h).of_step

theorem aligned_run (h : Aligned deserialize client) {events : List TcpEvent}
    (hClean : (client.run service deserialize memory events).Clean) :
    Aligned deserialize (client.run service deserialize memory events) := by
  induction events generalizing client with
  | nil => exact h
  | cons e events ih =>
    have hNext : (client.step service deserialize memory e).Clean := Clean.of_run hClean
    exact ih (h.moved (moved_step client e) hNext) hClean

end Runs

/-- No call was made yet. -/
theorem aligned_new (deserialize : Bytes → Option Msg) (server : σ) :
    Aligned deserialize ({ server } : TcpClient σ Msg) where
  holder := nofun
  quiet _ := ⟨rfl, fun _ => rfl⟩
  waiting := nofun
  matched := nofun

end TcpClient

open TcpClient

variable {σ Msg : Type}

/-- **When TCP replies belong to their calls.** Any number of threads call on one connection, in
any order, and `send` and `recv` fail for them and for the server at any points. As long as no
call has failed while receiving, and none has failed while sending after it had sent a byte,
every reply that was returned is the one that the server produced for that very call. -/
theorem tcp_replies_match (service : TcpService σ) (deserialize : Bytes → Option Msg)
    (memory : Nat → Nat → UInt8) (server : σ) (events : List TcpEvent)
    (hClean : (TcpClient.run service deserialize memory { server } events).Clean)
    (c : Nat) (call : TcpCall Msg) (msg : Msg)
    (hCall : (TcpClient.run service deserialize memory { server } events).calls c = some call)
    (hReturned : call.point = .returned (some msg)) :
    (TcpClient.run service deserialize memory { server } events).Answered deserialize
      call msg :=
  (aligned_run (aligned_new deserialize server) hClean).matched hCall hReturned

namespace Sample

/-- A server that replies with what it receives. -/
def echo : TcpService Unit where
  reply _ record := some record
  goesOn _ _ := true
  next _ _ := ()

def echoClient (events : List TcpEvent) : TcpClient Unit Bytes :=
  TcpClient.run echo some (fun _ _ => 0) { server := () } events

/-- A call that fails at its first byte, and one that does not fail. -/
def firstByteFails : List TcpEvent :=
  [.start 0 [1], .lock 0, .send 0 [.fails] 9, .start 1 [2], .lock 1, .send 1 [.moves 1] 9,
    .serve [.moves 0] none 9, .receive 1 [.moves 2] 9]

/-- A call that fails while it receives; the server replies to it, and to the next call. -/
def receiveFails : List TcpEvent :=
  [.start 0 [1], .lock 0, .send 0 [] 9, .receive 0 [.fails] 9, .serve [] none 9,
    .start 1 [2], .lock 1, .send 1 [] 9, .receive 1 [] 9, .serve [] none 9]

theorem clean_firstByteFails : (echoClient firstByteFails).Clean := by
  have hOthers : ∀ c, (echoClient firstByteFails).calls (c + 2) = none := fun c => by
    with_unfolding_all rfl
  intro c call hCall
  match c with
  | 0 =>
    obtain rfl : ⟨[1], .sendFailed, 0, 0⟩ = call := Option.some.inj (.trans (by decide +kernel) hCall)
    exact ⟨nofun, fun _ => rfl⟩
  | 1 =>
    obtain rfl : ⟨[2], .returned (some [2]), 0, 5⟩ = call :=
      Option.some.inj (.trans (by decide +kernel) hCall)
    exact ⟨nofun, nofun⟩
  | c + 2 =>
    rw [hOthers] at hCall
    cases hCall

end Sample

theorem tcp_replies_match_sample :
    (Sample.echoClient Sample.firstByteFails).calls 1 = some ⟨[2], .returned (some [2]), 0, 5⟩ ∧
      (Sample.echoClient Sample.firstByteFails).Answered some ⟨[2], .returned (some [2]), 0, 5⟩
        [2] := by
  have hCall : (Sample.echoClient Sample.firstByteFails).calls 1 =
      some ⟨[2], .returned (some [2]), 0, 5⟩ := by decide +kernel
  exact ⟨hCall, tcp_replies_match Sample.echo some (fun _ _ => 0) () Sample.firstByteFails
    Sample.clean_firstByteFails 1 _ [2] hCall rfl⟩

/-- The first call sends its record and fails when it begins to receive. The second call is
returned the reply to the first one; the server's reply to its own record comes later. -/
theorem late_reply_taken :
    (Sample.echoClient Sample.receiveFails).calls 0 = some ⟨[1], .receiveFailed, 0, 5⟩ ∧
      (Sample.echoClient Sample.receiveFails).calls 1 = some ⟨[2], .returned (some [1]), 5, 10⟩ ∧
      (Sample.echoClient Sample.receiveFails).exchanges =
        [⟨5, 10, [2], [2]⟩, ⟨0, 5, [1], [1]⟩] := by
  decide +kernel

end QuicNfs.Transport
