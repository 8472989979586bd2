import QuicNfs.Transport.QuicServer

/-!
# QuicNfs — the QUIC record assembly round trip

Any number of streams, each with a sequence of records. The peers send the
records; the library makes the bytes readable in any pieces, and calls
`server_on_stream_readable` any number of times and in any order of the streams.

* `Peer` — what the other side of a stream has to send, and what of it was read.
  It says what the receiver is for: a record is handed over when its last byte is
  read;
* `Receiving` — the invariant that ties the server's contexts to the peers;
* `quic_record_assembly` — the server hands over what the peers sent.
-/

namespace QuicNfs.Transport

open Kernel Lib RecordMarkingReceivingContext Option Function

variable {Conn : Type} [DecidableEq Conn]

/-! ## The other side of the streams -/

/-- The records of a stream that were not handed over yet, and the bytes of the
first of them that were not read yet. -/
structure Peer where
  unread : Bytes
  records : List Bytes
deriving DecidableEq, Repr

/-- The first of some records begins to arrive. -/
def Peer.start (encode : Bytes → Bytes) : List Bytes → Peer
  | [] => ⟨[], []⟩
  | record :: records => ⟨encode record, record :: records⟩

/-- The reads of one callback, and the record that is complete with them. A read
has between one byte and as many as the buffer holds. The bytes of the next record
are not readable before this one was handed over. -/
def Peer.deliver (encode : Bytes → Bytes) (peer : Peer) (reads : List Bytes) :
    Option (Peer × Option Bytes) :=
  if (∀ b ∈ reads, b ≠ [] ∧ b.length ≤ READ_BUF_SIZE) ∧ reads.flatten <+: peer.unread then
    match peer.records with
    | [] => some (peer, none)
    | record :: records =>
      let unread := peer.unread.drop reads.flatten.length
      -- the last byte of the record is read, and the next one begins to arrive
      if unread = [] then some (start encode records, some record)
      else some (⟨unread, record :: records⟩, none)
  else none

/-- A sequence of callbacks, each with what it hands over. -/
def deliverAll (encode : Conn × Nat → Bytes → Bytes) (net : Conn × Nat → Peer) :
    List (Callback Conn) → Option ((Conn × Nat → Peer) × List (Option Bytes))
  | [] => some (net, [])
  | (key, reads) :: callbacks => do
    let (peer, handedOver) ← (net key).deliver (encode key) reads
    let (net, others) ← deliverAll encode (Function.update net key peer) callbacks
    return (net, handedOver :: others)

/-- What was handed over from one stream, in order. -/
def handedOverOn (key : Conn × Nat) (callbacks : List (Callback Conn))
    (handedOver : List (Option Bytes)) : List Bytes :=
  ((callbacks.zip handedOver).filter fun c => c.1.1 = key).filterMap Prod.snd

@[simp] theorem Peer.records_start (encode : Bytes → Bytes) (records : List Bytes) :
    (start encode records).records = records := by
  cases records <;> rfl

theorem Peer.records_deliver {encode : Bytes → Bytes} {peer peer' : Peer} {reads : List Bytes}
    {handedOver : Option Bytes} (h : peer.deliver encode reads = some (peer', handedOver)) :
    peer.records = handedOver.toList ++ peer'.records := by
  unfold deliver at h
  split at h
  · split at h
    · cases h
      rfl
    · next record records hRecords =>
      dsimp only at h
      split at h
      · cases h
        rw [hRecords, records_start]
        rfl
      · cases h
        exact hRecords
  · cases h

/-- Nothing is handed over twice, out of order or not at all. -/
theorem records_deliverAll {encode : Conn × Nat → Bytes → Bytes} {net net' : Conn × Nat → Peer}
    {callbacks : List (Callback Conn)} {handedOver : List (Option Bytes)}
    (h : deliverAll encode net callbacks = some (net', handedOver)) (key : Conn × Nat) :
    (net key).records = handedOverOn key callbacks handedOver ++ (net' key).records := by
  -- only the callbacks of the stream itself take anything from its records
  induction callbacks generalizing net handedOver with
  | nil =>
    cases h
    rfl
  | cons callback callbacks ih =>
    obtain ⟨other, reads⟩ := callback
    simp only [deliverAll, bind_eq_bind, bind_eq_some_iff, Prod.exists,
      pure_def, some.injEq, Prod.mk.injEq] at h
    obtain ⟨peer, first, hDeliver, _, others, hAll, rfl, rfl⟩ := h
    have hRest := ih hAll
    unfold handedOverOn at hRest ⊢
    by_cases hKey : other = key
    · subst hKey
      rw [update_self] at hRest
      rw [Peer.records_deliver hDeliver, hRest]
      cases first <;> simp
    · rw [update_of_ne (Ne.symm hKey)] at hRest
      rw [hRest]
      simp [hKey]

/-! ## The invariant -/

/-- Each stream with records left has a context that awaits what is unread of the
first; the others have none, or an unused one. -/
structure Receiving (encode : Conn × Nat → Bytes → Bytes) (contexts : Contexts Conn)
    (net : Conn × Nat → Peer) : Prop where
  single : Single contexts
  encodes {key r} : r ∈ (net key).records → r ≠ [] ∧ encode key r = encodeRecord r
  awaits {key r rs} : (net key).records = r :: rs →
    Awaits (contextOf contexts key) (net key).unread r
  idle {key} : (net key).records = [] →
    (contextOf contexts key).recordFullyReceived = false ∧ (net key).unread = []

theorem receiving_start {encode : Conn × Nat → Bytes → Bytes} {records : Conn × Nat → List Bytes}
    (hEncode : ∀ key, ∀ r ∈ records key, r ≠ [] ∧ encode key r = encodeRecord r) :
    Receiving encode [] (fun key => Peer.start (encode key) (records key)) := by
  refine ⟨fun _ => by simp, fun hr => ?_, fun hRecords => ?_, fun hRecords => ?_⟩
  · rw [Peer.records_start] at hr
    exact hEncode _ _ hr
  · next key r rs =>
    rw [Peer.records_start] at hRecords
    obtain ⟨hne, hEq⟩ := hEncode key r (by rw [hRecords]; simp)
    simp only [hRecords, Peer.start, hEq]
    exact awaits_create _ _ hne
  · rw [Peer.records_start] at hRecords
    simp only [hRecords, Peer.start]
    exact ⟨rfl, trivial⟩

/-- A change of one stream: its own context and peer have to match again. -/
theorem Receiving.update {encode : Conn × Nat → Bytes → Bytes} {contexts contexts' : Contexts Conn}
    {net : Conn × Nat → Peer} (h : Receiving encode contexts net) (hSingle : Single contexts')
    {key : Conn × Nat} (hOthers : (contexts'.filter fun c => !isFor key c) =
      contexts.filter fun c => !isFor key c) {peer : Peer}
    (hRecords : ∀ r ∈ peer.records, r ∈ (net key).records)
    (hAwaits : ∀ r rs, peer.records = r :: rs → Awaits (contextOf contexts' key) peer.unread r)
    (hIdle : peer.records = [] →
      (contextOf contexts' key).recordFullyReceived = false ∧ peer.unread = []) :
    Receiving encode contexts' (update net key peer) := by
  refine ⟨hSingle, fun {other r} hr => ?_, fun {other r rs} hOther => ?_, fun {other} hOther => ?_⟩
  all_goals by_cases hKey : other = key
  · subst hKey
    rw [update_self] at hr
    exact h.encodes (hRecords r hr)
  · rw [update_of_ne hKey] at hr
    exact h.encodes hr
  · subst hKey
    rw [update_self] at hOther ⊢
    exact hAwaits r rs hOther
  · rw [update_of_ne hKey] at hOther ⊢
    rw [contextOf_congr hKey hOthers]
    exact h.awaits hOther
  · subst hKey
    rw [update_self] at hOther ⊢
    exact hIdle hOther
  · rw [update_of_ne hKey] at hOther ⊢
    rw [contextOf_congr hKey hOthers]
    exact h.idle hOther

section Callback

variable {encode : Conn × Nat → Bytes → Bytes} {contexts : Contexts Conn} {net : Conn × Nat → Peer}
  {key : Conn × Nat} {record : Bytes} {records : List Bytes} {reads : List Bytes} {rest : Bytes}

/-- A callback without data, on a stream with no records left. -/
theorem Receiving.callback_idle (h : Receiving encode contexts net)
    (hRecords : (net key).records = []) :
    ∃ contexts', serverOnStreamReadable key.1 key.2 [] contexts = some ⟨contexts', false, none⟩ ∧
      Receiving encode contexts' (Function.update net key (net key)) := by
  -- nothing is read, but a context is made for the stream if it had none
  obtain ⟨hFull, hUnread⟩ := h.idle hRecords
  have hReceive : receiveAvailableBytesQuic (contextOf contexts key) [] =
      some (0, contextOf contexts key, []) := rfl
  have hStep := serverOnStreamReadable_contextOf h.single hReceive (key_contextOf contexts key)
  rw [if_neg (by simp [hFull])] at hStep
  obtain ⟨contexts', hRun, hSingle, hContext, hOthers⟩ := hStep
  refine ⟨contexts', hRun, h.update hSingle hOthers (fun r hr => hr) ?_ ?_⟩
  · intro r rs hSome
    rw [hRecords] at hSome
    cases hSome
  · intro _
    rw [hContext]
    exact ⟨hFull, hUnread⟩

/-- A callback with the last bytes of a record. -/
theorem Receiving.callback_complete (h : Receiving encode contexts net)
    (hRecords : (net key).records = record :: records) (hNonempty : ∀ b ∈ reads, b ≠ [])
    (hUnread : (net key).unread = reads.flatten) :
    serverOnStreamReadable key.1 key.2 reads contexts =
        some ⟨contexts.filter fun c => !isFor key c, false, some record⟩ ∧
      Receiving encode (contexts.filter fun c => !isFor key c)
        (Function.update net key (Peer.start (encode key) records)) := by
  have hAwaits := h.awaits hRecords
  rw [hUnread, ← List.append_nil reads.flatten] at hAwaits
  obtain ⟨context, hReceive, hKey, hProgress⟩ := receiveAvailableBytesQuic_reads hNonempty hAwaits
  have hStep := serverOnStreamReadable_contextOf h.single hReceive
    (hKey.trans (key_contextOf contexts key))
  -- nothing is left to come, so that the record is complete
  rw [Progress, if_pos rfl] at hProgress
  obtain ⟨hFull, hPayloads⟩ := hProgress
  rw [if_pos hFull, hPayloads] at hStep
  refine ⟨hStep, h.update (h.single.filter _) (by simp) ?_ ?_ ?_⟩
  · intro r hr
    rw [Peer.records_start] at hr
    rw [hRecords]
    exact List.mem_cons_of_mem _ hr
  · -- the next record begins in a context of its own
    intro r rs hStart
    rw [Peer.records_start] at hStart
    obtain ⟨hne, hEncode⟩ := h.encodes (show r ∈ (net key).records by rw [hRecords, hStart]; simp)
    rw [contextOf_filter, hStart]
    simp only [Peer.start, hEncode]
    exact awaits_create _ _ hne
  · intro hStart
    rw [Peer.records_start] at hStart
    rw [contextOf_filter, hStart]
    exact ⟨rfl, rfl⟩

/-- A callback after which there is more of the record to come. -/
theorem Receiving.callback_more (h : Receiving encode contexts net)
    (hRecords : (net key).records = record :: records) (hNonempty : ∀ b ∈ reads, b ≠ [])
    (hUnread : (net key).unread = reads.flatten ++ rest) (hMore : rest ≠ []) :
    ∃ contexts', serverOnStreamReadable key.1 key.2 reads contexts = some ⟨contexts', false, none⟩ ∧
      Receiving encode contexts' (Function.update net key ⟨rest, record :: records⟩) := by
  have hAwaits := h.awaits hRecords
  rw [hUnread] at hAwaits
  obtain ⟨context, hReceive, hKey, hProgress⟩ := receiveAvailableBytesQuic_reads hNonempty hAwaits
  have hStep := serverOnStreamReadable_contextOf h.single hReceive
    (hKey.trans (key_contextOf contexts key))
  -- the context awaits the rest of the record
  rw [Progress, if_neg hMore] at hProgress
  rw [if_neg (by simp [hProgress.not_full])] at hStep
  obtain ⟨contexts', hRun, hSingle, hContext, hOthers⟩ := hStep
  refine ⟨contexts', hRun, h.update hSingle hOthers ?_ ?_ ?_⟩
  · intro r hr
    rw [hRecords]
    exact hr
  · intro r rs hSame
    cases hSame
    rw [hContext]
    exact hProgress
  · intro hNone
    cases hNone

end Callback

/-- **One callback.** The server hands over what the peer's stream does, without
an error, and the invariant holds afterwards. With a hand-over the context of the
stream is gone, and the others are what they were. -/
theorem receiving_step {encode : Conn × Nat → Bytes → Bytes} {contexts : Contexts Conn}
    {net : Conn × Nat → Peer} (h : Receiving encode contexts net) {key : Conn × Nat}
    {reads : List Bytes} {peer : Peer} {handedOver : Option Bytes}
    (hDeliver : (net key).deliver (encode key) reads = some (peer, handedOver)) :
    ∃ contexts', serverOnStreamReadable key.1 key.2 reads contexts =
        some ⟨contexts', false, handedOver⟩ ∧
      Receiving encode contexts' (update net key peer) ∧
      (handedOver.isSome → contexts' = contexts.filter fun c => !isFor key c) := by
  unfold Peer.deliver at hDeliver
  split at hDeliver
  case isFalse => cases hDeliver
  next hAdmissible =>
  obtain ⟨hReads, rest, hRest⟩ := hAdmissible
  have hNonempty : ∀ b ∈ reads, b ≠ [] := fun b hb => (hReads b hb).1
  split at hDeliver
  · next hRecords =>
    cases hDeliver
    -- no records, so no bytes, and a read without bytes is not made
    have hFlatten : reads.flatten = [] := by
      rw [(h.idle hRecords).2] at hRest
      exact (List.append_eq_nil_iff.mp hRest).1
    obtain rfl := flatten_eq_nil hNonempty hFlatten
    obtain ⟨contexts', hRun, hReceiving⟩ := h.callback_idle hRecords
    exact ⟨contexts', hRun, hReceiving, by simp⟩
  · next record records hRecords =>
    rw [← hRest] at hDeliver
    dsimp only at hDeliver
    rw [List.drop_left] at hDeliver
    split at hDeliver
    · next hNil =>
      cases hDeliver
      rw [hNil, List.append_nil] at hRest
      obtain ⟨hRun, hReceiving⟩ := h.callback_complete hRecords hNonempty hRest.symm
      exact ⟨_, hRun, hReceiving, fun _ => rfl⟩
    · next hMore =>
      cases hDeliver
      obtain ⟨contexts', hRun, hReceiving⟩ := h.callback_more hRecords hNonempty hRest.symm hMore
      exact ⟨contexts', hRun, hReceiving, by simp⟩

/-- A sequence of callbacks, by induction on it. -/
theorem receiving_run {encode : Conn × Nat → Bytes → Bytes} {contexts : Contexts Conn}
    {net net' : Conn × Nat → Peer} (h : Receiving encode contexts net)
    {callbacks : List (Callback Conn)} {handedOver : List (Option Bytes)}
    (hAll : deliverAll encode net callbacks = some (net', handedOver)) :
    ∃ contexts', serverRun contexts callbacks =
        some (contexts', handedOver.map fun record => (false, record)) ∧
      Receiving encode contexts' net' := by
  induction callbacks generalizing contexts net handedOver with
  | nil =>
    cases hAll
    exact ⟨contexts, rfl, h⟩
  | cons callback callbacks ih =>
    obtain ⟨key, reads⟩ := callback
    simp only [deliverAll, bind_eq_bind, bind_eq_some_iff, Prod.exists,
      pure_def, some.injEq, Prod.mk.injEq] at hAll
    obtain ⟨peer, first, hDeliver, _, others, hOthers, rfl, rfl⟩ := hAll
    obtain ⟨contexts₁, hRun₁, hNext, _⟩ := receiving_step h hDeliver
    obtain ⟨contexts', hRun, hEnd⟩ := ih hNext hOthers
    refine ⟨contexts', ?_, hEnd⟩
    simp [serverRun, hRun₁, hRun]

/-! ## The round trip -/

/-- The bytes that `send_rm_record_quic` puts on a stream for a record. -/
def sentRecord (counts : ShortCounts) (fuel : Nat) (key : Conn × Nat) (record : Bytes) : Bytes :=
  match (sendRmRecordQuic (fun conn streamId => Pipe.send counts (conn, streamId)) key.1 key.2
    record fuel).run {} with
  | some (_, pipe) => pipe.wire
  | none => []

omit [DecidableEq Conn] in
theorem sentRecord_eq (counts : ShortCounts) {fuel : Nat} (key : Conn × Nat) {record : Bytes}
    (hWord : record.length < 2 ^ 64) (hFuel : record.length + RM_FRAGMENT_HEADER_SIZE < fuel) :
    sentRecord counts fuel key record = encodeRecord record := by
  obtain ⟨pipe, hRun, hWire⟩ := Pipe.sendRmRecord_send counts key hWord hFuel {}
  have hSent : (sendRmRecordQuic (fun conn streamId => Pipe.send counts (conn, streamId)) key.1
      key.2 record fuel).run {} = some (0, pipe) := hRun
  rw [sentRecord, hSent]
  exact hWire

/-- **QUIC record assembly round trip.** Each stream of any set of connections
carries nonempty records, sent by `send_rm_record_quic` with any short counts of
`quic_stream_write`. The bytes are read in any pieces, grouped into any callbacks
of `server_on_stream_readable`, and the callbacks of the streams come in any
order.

No callback fails, and each hands over exactly what it should: a record in the
callback that reads its last byte, and nothing else. So the records of each stream
are handed over in order, each once, and the others are those that have not fully
arrived. If the next callback hands over a record, the context of its stream is
gone from the list afterwards, and the other contexts are unchanged. -/
theorem quic_record_assembly (counts : Conn × Nat → ShortCounts) (fuel : Nat)
    (records : Conn × Nat → List Bytes) (hRecords : ∀ key, ∀ r ∈ records key,
      r ≠ [] ∧ r.length < 2 ^ 64 ∧ r.length + RM_FRAGMENT_HEADER_SIZE < fuel)
    (callbacks : List (Callback Conn)) (net : Conn × Nat → Peer) (handedOver : List (Option Bytes))
    (hNet : deliverAll (fun key => sentRecord (counts key) fuel key)
      (fun key => Peer.start (sentRecord (counts key) fuel key) (records key)) callbacks =
        some (net, handedOver)) :
    ∃ contexts,
      serverRun [] callbacks = some (contexts, handedOver.map fun record => (false, record)) ∧
      (∀ key, records key = handedOverOn key callbacks handedOver ++ (net key).records) ∧
      ∀ key reads peer record,
        (net key).deliver (sentRecord (counts key) fuel key) reads = some (peer, some record) →
        serverOnStreamReadable key.1 key.2 reads contexts =
          some ⟨contexts.filter fun c => !isFor key c, false, some record⟩ := by
  have hStart : Receiving (fun key => sentRecord (counts key) fuel key) []
      (fun key => Peer.start (sentRecord (counts key) fuel key) (records key)) :=
    receiving_start fun key r hr => by
      obtain ⟨hne, hWord, hFuel⟩ := hRecords key r hr
      exact ⟨hne, sentRecord_eq (counts key) key hWord hFuel⟩
  obtain ⟨contexts, hRun, hEnd⟩ := receiving_run hStart hNet
  refine ⟨contexts, hRun, fun key => ?_, fun key reads peer record hDeliver => ?_⟩
  · simpa using records_deliverAll hNet key
  · obtain ⟨contexts', hStep, _, hGone⟩ := receiving_step hEnd hDeliver
    rw [hStep, hGone rfl]

/-- Two streams of one connection; the first carries two records. -/
def Sample.records : Nat × Nat → List Bytes
  | (0, 0) => [[1, 2, 3], [4]]
  | (0, 4) => [[5, 6]]
  | _ => []

/-- Reads that stop in the headers and in the payloads, in turn on both streams. -/
def Sample.callbacks : List (Callback Nat) :=
  [((0, 0), [[128], [0, 0, 3, 1]]), ((0, 4), [[128, 0, 0]]), ((0, 0), []), ((0, 0), [[2], [3]]),
    ((0, 4), [[2, 5, 6]]), ((0, 0), [[128, 0, 0, 1, 4]])]

theorem quic_record_assembly_interleaved :
    ∃ contexts, serverRun [] Sample.callbacks = some (contexts,
      [none, none, none, some [1, 2, 3], some [5, 6], some [4]].map fun r => (false, r)) := by
  have hHanded : (deliverAll (fun key => sentRecord ShortCounts.single 9 key)
      (fun key => Peer.start (sentRecord ShortCounts.single 9 key) (Sample.records key))
      Sample.callbacks).map Prod.snd =
        some [none, none, none, some [1, 2, 3], some [5, 6], some [4]] := by decide +kernel
  obtain ⟨⟨net, _⟩, hNet, rfl⟩ := map_eq_some_iff.mp hHanded
  have hRecords : ∀ key, ∀ r ∈ Sample.records key,
      r ≠ [] ∧ r.length < 2 ^ 64 ∧ r.length + RM_FRAGMENT_HEADER_SIZE < 9 := by
    intro key r hr
    unfold Sample.records at hr
    split at hr
    · revert r
      decide
    · revert r
      decide
    · cases hr
  exact (quic_record_assembly (fun _ => ShortCounts.single) 9 Sample.records hRecords
    Sample.callbacks net _ hNet).imp fun _ h => h.1

end QuicNfs.Transport
