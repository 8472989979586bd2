import QuicNfs.Transport.QuicAssembly
import QuicNfs.Transport.QuicReads

/-!
# QuicNfs — one stream, cut into reads in two ways

The bytes of a stream reach `server_on_stream_readable` in reads that the network
and the library choose. Before a callback some of them arrive; the callback makes
its reads up to the end of a record or an error, and leaves the others on the
stream for the next one.

* `streamRun` — the callbacks of one stream;
* `streamRun_returns` — they return, whatever arrives;
* `streamRun_cases` — every record is handed over, or a read reached from one
  record into the next and the context was left as it was;
* `quic_packetisation_iff` — the records do not depend on the reads, and errors are
  recovered from, exactly if no read reaches across the end of a record.
-/

namespace QuicNfs.Transport

open Kernel Lib RecordMarkingReceivingContext List Option Function

variable {Conn : Type} [DecidableEq Conn]

/-! ## The callbacks of one stream -/

/-- The callbacks of one stream, with the reads that became possible before each, after those
that are still `waiting`. The result is what each callback leaves behind, and the reads that
were not made at the end. -/
def streamRun (key : Conn × Nat) : Contexts Conn → List Bytes → List (List Bytes) →
    Option (List (Readable Conn) × List Bytes)
  | _, waiting, [] => some ([], waiting)
  | contexts, waiting, arrived :: arrivals => do
    let readable ← serverOnStreamReadable key.1 key.2 (waiting ++ arrived) contexts
    let (readables, left) ←
      streamRun key readable.contexts (unreadAfter contexts key (waiting ++ arrived)) arrivals
    return (readable :: readables, left)

/-- The records that some callbacks handed over. -/
def handedOverBy (readables : List (Readable Conn)) : List Bytes :=
  readables.filterMap Readable.handedOver

/-- A way of splitting bytes into reads and callbacks. -/
structure Splits (bytes : Bytes) (arrivals : List (List Bytes)) : Prop where
  reads {b} : b ∈ arrivals.flatten → b ≠ [] ∧ b.length ≤ READ_BUF_SIZE
  flatten : arrivals.flatten.flatten = bytes

/-- After an error the context of the stream was removed, or is as good as new. -/
def Recovered (key : Conn × Nat) (readable : Readable Conn) : Prop :=
  readable.failed = true →
    readable.contexts.find? (isFor key) = none ∨
    readable.contexts.find? (isFor key) = some (createRmReceivingContext key.1 key.2)

instance (key : Conn × Nat) (readable : Readable Conn) : Decidable (Recovered key readable) :=
  inferInstanceAs (Decidable (_ → _))

/-- The callbacks return, whatever arrives. -/
theorem streamRun_returns {contexts : Contexts Conn} (h : Tidy contexts) (key : Conn × Nat)
    (waiting : List Bytes) (arrivals : List (List Bytes)) :
    ∃ readables left, streamRun key contexts waiting arrivals = some (readables, left) := by
  induction arrivals generalizing contexts waiting with
  | nil => exact ⟨[], waiting, rfl⟩
  | cons arrived arrivals ih =>
    -- a callback returns, and leaves contexts of which the next one returns
    obtain ⟨-, -, -, readable, -, hRun, hTidy, -⟩ :=
      serverOnStreamReadable_returns h key (waiting ++ arrived)
    obtain ⟨readables, left, hRest⟩ := ih hTidy (unreadAfter contexts key (waiting ++ arrived))
    exact ⟨readable :: readables, left, by simp [streamRun, hRun, hRest]⟩

theorem streamRun_cons {contexts : Contexts Conn} {key : Conn × Nat} {waiting arrived : List Bytes}
    {arrivals : List (List Bytes)} {readables : List (Readable Conn)} {left : List Bytes}
    (h : streamRun key contexts waiting (arrived :: arrivals) = some (readables, left)) :
    ∃ readable others,
      serverOnStreamReadable key.1 key.2 (waiting ++ arrived) contexts = some readable ∧
      streamRun key readable.contexts (unreadAfter contexts key (waiting ++ arrived)) arrivals =
        some (others, left) ∧ readables = readable :: others := by
  simp only [streamRun, bind_eq_bind, bind_eq_some_iff, Prod.exists,
    Option.pure_def, Option.some.injEq, Prod.mk.injEq] at h
  obtain ⟨readable, hRun, others, _, hRest, rfl, rfl⟩ := h
  exact ⟨readable, others, hRun, hRest, rfl⟩

/-- A callback does not look at the reads that it does not make. -/
theorem serverOnStreamReadable_congr {contexts : Contexts Conn} {key : Conn × Nat}
    {reads reads' unread unread' : List Bytes} {errorCode : Nat}
    {context : RecordMarkingReceivingContext Conn}
    (h : receiveAvailableBytesQuic (contextOf contexts key) reads =
      some (errorCode, context, unread))
    (h' : receiveAvailableBytesQuic (contextOf contexts key) reads' =
      some (errorCode, context, unread')) :
    serverOnStreamReadable key.1 key.2 reads contexts =
      serverOnStreamReadable key.1 key.2 reads' contexts := by
  -- all that a callback looks at is the context and what the reads make of it
  have hGet : getRmReceivingContext key.1 key.2 (present contexts key) =
      some (contextOf contexts key) := find?_present contexts key
  unfold present at hGet
  unfold serverOnStreamReadable
  simp only [hGet, h, h', bind_eq_bind, bind_some]

/-! ## The reads of one callback -/

/-- The bytes that are still to come, record by record. -/
def Peer.toCome (encode : Bytes → Bytes) (peer : Peer) : List Bytes :=
  match peer.records with
  | [] => []
  | _ :: records => peer.unread :: records.map encode

theorem Peer.toCome_start (encode : Bytes → Bytes) (records : List Bytes) :
    (start encode records).toCome encode = records.map encode := by
  cases records <;> rfl

/-- What a callback does, by where its reads end. -/
inductive Outcome (encode : Conn × Nat → Bytes → Bytes) (contexts : Contexts Conn)
    (net : Conn × Nat → Peer) (key : Conn × Nat) (reads later : List Bytes)
    (readable : Readable Conn) : Prop
  /-- The reads go on with the record, or there are none; or they end with it, and those after
  it are left. The peer is where they end. -/
  | served (peer : Peer)
      (hReceiving : Receiving encode readable.contexts (Function.update net key peer))
      (hFailed : readable.failed = false)
      (hRecords : (net key).records = readable.handedOver.toList ++ peer.records)
      (hToCome : (unreadAfter contexts key reads ++ later).flatten =
        (peer.toCome (encode key)).flatten)
      (hGroups : Groups (reads ++ later) ((net key).toCome (encode key)) ↔
        Groups (unreadAfter contexts key reads ++ later) (peer.toCome (encode key)))
  /-- A read reaches into the next record. -/
  | across (hGroups : ¬Groups (reads ++ later) ((net key).toCome (encode key)))
      (hLost : ¬Recovered key readable)

section Callback

variable {encode : Conn × Nat → Bytes → Bytes} {contexts : Contexts Conn}
  {net : Conn × Nat → Peer} {key : Conn × Nat} {reads later : List Bytes}
  {readable : Readable Conn}

omit [DecidableEq Conn] in
theorem unread_subset {context context' : RecordMarkingReceivingContext Conn} {errorCode : Nat}
    {unread : List Bytes}
    (h : receiveAvailableBytesQuic context reads = some (errorCode, context', unread)) :
    unread ⊆ reads := by
  induction reads generalizing context with
  | nil =>
    cases h
    exact List.Subset.refl []
  | cons readBuffer reads ih =>
    have hTail : reads ⊆ readBuffer :: reads := subset_cons_self readBuffer reads
    rw [receiveAvailableBytesQuic] at h
    split at h
    · cases h
      exact hTail
    · rw [bind_eq_bind, bind_eq_some_iff] at h
      obtain ⟨⟨code, context₁, left⟩, -, h⟩ := h
      dsimp only at h
      split at h
      · cases h
        exact hTail
      · split at h
        · split at h
          all_goals
            cases h
            exact hTail
        · exact List.Subset.trans (ih h) hTail

theorem unreadAfter_subset : unreadAfter contexts key reads ⊆ reads := by
  unfold unreadAfter
  split
  · next hReceive => exact unread_subset hReceive
  · exact nil_subset reads

omit [DecidableEq Conn] in
/-- The reads of a callback of which all bytes are in the first record. -/
theorem deliver_within {record left : Bytes} {records : List Bytes}
    (hReads : ∀ b ∈ reads, b ≠ [] ∧ b.length ≤ READ_BUF_SIZE)
    (hRecords : (net key).records = record :: records)
    (hUnread : (net key).unread = reads.flatten ++ left) :
    (net key).deliver (encode key) reads =
      some (if left = [] then (Peer.start (encode key) records, some record)
        else (⟨left, record :: records⟩, none)) := by
  unfold Peer.deliver
  rw [if_pos ⟨hReads, left, hUnread.symm⟩, hRecords, hUnread]
  dsimp only
  rw [drop_left]
  split <;> rfl

theorem outcome_within (h : Receiving encode contexts net) {record left : Bytes}
    {records : List Bytes} (hReads : ∀ b ∈ reads ++ later, b ≠ [] ∧ b.length ≤ READ_BUF_SIZE)
    (hRecords : (net key).records = record :: records) (hLeft : left ≠ [])
    (hUnread : (net key).unread = reads.flatten ++ left)
    (hLater : later.flatten = left ++ (records.map (encode key)).flatten)
    (hRun : serverOnStreamReadable key.1 key.2 reads contexts = some readable) :
    Outcome encode contexts net key reads later readable := by
  have hOwn : ∀ b ∈ reads, b ≠ [] ∧ b.length ≤ READ_BUF_SIZE := fun b hb =>
    hReads b (mem_append_left _ hb)
  -- for the peer, the reads end inside the record
  have hDeliver := @deliver_within _ encode net key reads record left records hOwn hRecords hUnread
  rw [if_neg hLeft] at hDeliver
  obtain ⟨contexts', hStep, hNext, -⟩ := receiving_step h hDeliver
  cases hRun.symm.trans hStep
  -- all reads are made
  have hAwaits := h.awaits hRecords
  rw [hUnread] at hAwaits
  obtain ⟨context, hReceive, -⟩ := receiveAvailableBytesQuic_reads (fun b hb => (hOwn b hb).1) hAwaits
  have hUnmade := unreadAfter_eq hReceive
  refine .served _ hNext rfl hRecords ?_ ?_
  · rw [hUnmade]
    exact hLater
  · rw [hUnmade]
    unfold Peer.toCome
    rw [hRecords, hUnread]
    exact groups_of_within fun b hb => (hReads b hb).1

theorem outcome_end (h : Receiving encode contexts net) {record : Bytes} {records : List Bytes}
    {first others : List Bytes}
    (hReads : ∀ b ∈ first ++ others ++ later, b ≠ [] ∧ b.length ≤ READ_BUF_SIZE)
    (hRecords : (net key).records = record :: records) (hUnread : first.flatten = (net key).unread)
    (hBytes : (first ++ others ++ later).flatten = ((net key).toCome (encode key)).flatten)
    (hRun : serverOnStreamReadable key.1 key.2 (first ++ others) contexts = some readable) :
    Outcome encode contexts net key (first ++ others) later readable := by
  have hOwn : ∀ b ∈ first, b ≠ [] ∧ b.length ≤ READ_BUF_SIZE := fun b hb =>
    hReads b (mem_append_left _ (mem_append_left _ hb))
  have hAll : (net key).unread = first.flatten ++ [] := by rw [append_nil, hUnread]
  -- for the peer, the first reads end with the record
  have hDeliver := @deliver_within _ encode net key first record [] records hOwn hRecords hAll
  rw [if_pos rfl] at hDeliver
  obtain ⟨contexts', hStep, hNext, -⟩ := receiving_step h hDeliver
  -- the callback stops at the end of the record
  have hAwaits := h.awaits hRecords
  rw [hAll] at hAwaits
  obtain ⟨context, hReceive, -, hDone⟩ :=
    receiveAvailableBytesQuic_reads (fun b hb => (hOwn b hb).1) hAwaits
  rw [Progress, if_pos rfl] at hDone
  have hStop := receiveAvailableBytesQuic_append hAwaits.not_full hReceive others
  rw [if_pos hDone.1] at hStop
  rw [serverOnStreamReadable_congr hStop hReceive] at hRun
  cases hRun.symm.trans hStep
  have hUnmade := unreadAfter_eq hStop
  have hToCome : (net key).toCome (encode key) = first.flatten :: records.map (encode key) := by
    unfold Peer.toCome
    rw [hRecords, hUnread]
  refine .served _ hNext rfl ?_ ?_ ?_
  · rw [hRecords, Peer.records_start]
    rfl
  · rw [hUnmade, Peer.toCome_start]
    rw [hToCome, flatten_cons, append_assoc, flatten_append] at hBytes
    exact append_cancel_left hBytes
  · rw [hUnmade, hToCome, Peer.toCome_start, append_assoc]
    exact groups_of_append (fun b hb => (hReads b (by rwa [append_assoc])).1) rfl

theorem outcome_across (h : Receiving encode contexts net) {record : Bytes} {records : List Bytes}
    {first others : List Bytes} {part within beyond : Bytes}
    (hReads : ∀ b ∈ first ++ part :: others ++ later, b ≠ [] ∧ b.length ≤ READ_BUF_SIZE)
    (hRecords : (net key).records = record :: records)
    (hUnread : (net key).unread = first.flatten ++ within) (hPart : part = within ++ beyond)
    (hWithin : within ≠ []) (hBeyond : beyond ≠ [])
    (hRun : serverOnStreamReadable key.1 key.2 (first ++ part :: others) contexts = some readable) :
    Outcome encode contexts net key (first ++ part :: others) later readable := by
  refine .across ?_ ?_
  -- no way of putting the reads together gives the records
  · unfold Peer.toCome
    rw [hRecords, hUnread, append_assoc, cons_append]
    refine not_groups_of_across (fun b hb => (hReads b ?_).1) hPart hWithin hBeyond
    rwa [append_assoc, cons_append]
  · have hAwaits := h.awaits hRecords
    rw [hUnread] at hAwaits
    obtain ⟨context, hReceive, hKey, hFull, -⟩ := @receiveAvailableBytesQuic_across _ _ first others
      within beyond record (fun b hb => (hReads b (by simp [hb])).1) hWithin hBeyond hAwaits
    rw [← hPart] at hReceive
    obtain ⟨updated, -, hFind, -, hStep⟩ := serverOnStreamReadable_updated h.single hReceive
      (hKey.trans (key_contextOf contexts key))
    rw [if_pos (Nat.succ_pos 3)] at hStep
    cases hRun.symm.trans hStep
    -- the record that was complete is still there
    intro hRecovered
    rcases hRecovered rfl with hNone | hFresh
    · rw [hFind] at hNone
      cases hNone
    · rw [hFind] at hFresh
      cases hFresh
      cases hFull

/-- **One callback.** The bytes on the stream are those of the records that are left. -/
theorem callback_outcome (h : Receiving encode contexts net)
    (hReads : ∀ b ∈ reads ++ later, b ≠ [] ∧ b.length ≤ READ_BUF_SIZE)
    (hBytes : (reads ++ later).flatten = ((net key).toCome (encode key)).flatten)
    (hRun : serverOnStreamReadable key.1 key.2 reads contexts = some readable) :
    Outcome encode contexts net key reads later readable := by
  cases hRecords : (net key).records with
  | nil =>
    -- there is nothing to read
    have hToCome : (net key).toCome (encode key) = [] := by
      unfold Peer.toCome
      rw [hRecords]
    rw [hToCome] at hBytes
    obtain ⟨rfl, rfl⟩ := append_eq_nil_iff.mp (flatten_eq_nil (fun b hb => (hReads b hb).1) hBytes)
    have hDeliver : (net key).deliver (encode key) [] = some (net key, none) := by
      unfold Peer.deliver
      rw [if_pos ⟨by simp, nil_prefix⟩, hRecords]
    obtain ⟨contexts', hStep, hNext, -⟩ := receiving_step h hDeliver
    cases hRun.symm.trans hStep
    exact .served (net key) hNext rfl rfl (by rw [hToCome]; rfl) Iff.rfl
  | cons record records =>
    have hCut := hBytes
    unfold Peer.toCome at hCut
    rw [hRecords, flatten_append, flatten_cons] at hCut
    -- the reads end inside the record, with it, or one of them goes beyond it
    rcases cut_cases hCut with ⟨left, hLeft, hUnread, hLater⟩ | ⟨first, others, rfl, hUnread⟩ |
      ⟨first, part, others, within, beyond, rfl, hPart, hUnread, hWithin, hBeyond⟩
    · exact outcome_within h hReads hRecords hLeft hUnread hLater hRun
    · exact outcome_end h hReads hRecords hUnread hBytes hRun
    · exact outcome_across h hReads hRecords hUnread hPart hWithin hBeyond hRun

end Callback

/-! ## All callbacks -/

/-- **The callbacks of a stream, until all is read.** No read reached across the end of a
record and every record was handed over, in order and without an error; or one did, and a
callback left the context in a state that it does not recover from. -/
theorem streamRun_cases {encode : Conn × Nat → Bytes → Bytes} {contexts : Contexts Conn}
    {net : Conn × Nat → Peer} (h : Receiving encode contexts net) {key : Conn × Nat}
    {waiting : List Bytes} {arrivals : List (List Bytes)} {readables : List (Readable Conn)}
    (hReads : ∀ b ∈ waiting ++ arrivals.flatten, b ≠ [] ∧ b.length ≤ READ_BUF_SIZE)
    (hBytes : (waiting ++ arrivals.flatten).flatten = ((net key).toCome (encode key)).flatten)
    (hRun : streamRun key contexts waiting arrivals = some (readables, [])) :
    (Groups (waiting ++ arrivals.flatten) ((net key).toCome (encode key)) ∧
      handedOverBy readables = (net key).records ∧
      ∀ readable ∈ readables, readable.failed = false) ∨
    (¬Groups (waiting ++ arrivals.flatten) ((net key).toCome (encode key)) ∧
      ∃ readable ∈ readables, ¬Recovered key readable) := by
  -- by the callbacks, each from the contexts and the reads that the one before left
  induction arrivals generalizing contexts net waiting readables with
  | nil =>
    -- all was read, so no record is left
    cases hRun
    cases hRecords : (net key).records with
    | nil =>
      refine .inl ⟨?_, rfl, fun _ hMem => (by cases hMem)⟩
      unfold Peer.toCome
      rw [hRecords]
      exact groups_nil
    | cons record records =>
      unfold Peer.toCome at hBytes
      rw [hRecords, flatten_cons] at hBytes
      exact absurd (append_eq_nil_iff.mp hBytes.symm).1 (h.awaits hRecords).rest_ne_nil
  | cons arrived arrivals ih =>
    obtain ⟨readable, others, hFirst, hRest, rfl⟩ := streamRun_cons hRun
    rw [flatten_cons, ← append_assoc] at hReads hBytes ⊢
    cases callback_outcome h hReads hBytes hFirst with
    | across hGroups hLost => exact .inr ⟨hGroups, readable, mem_cons_self, hLost⟩
    | served peer hNext hFailed hRecords hToCome hGroups =>
      -- the reads that are left were there before
      have hLeft : ∀ b ∈ unreadAfter contexts key (waiting ++ arrived) ++ arrivals.flatten,
          b ≠ [] ∧ b.length ≤ READ_BUF_SIZE := by
        intro b hb
        rcases mem_append.mp hb with hUnread | hLater
        · exact hReads b (mem_append_left _ (unreadAfter_subset hUnread))
        · exact hReads b (mem_append_right _ hLater)
      have hSelf : update net key peer key = peer := update_self ..
      rw [← hSelf] at hToCome hGroups hRecords
      rw [hGroups]
      rcases ih hNext hLeft hToCome hRest with ⟨hYes, hHanded, hNever⟩ | ⟨hNo, bad, hBad, hLost⟩
      · refine .inl ⟨hYes, ?_, ?_⟩
        · rw [hRecords, ← hHanded]
          cases hOut : readable.handedOver with
          | none | some => simp [handedOverBy, hOut]
        · intro r hr
          rcases mem_cons.mp hr with rfl | hOther
          · exact hFailed
          · exact hNever r hOther
      -- the read across the end comes in a later callback
      · exact .inr ⟨hNo, bad, mem_cons_of_mem _ hBad, hLost⟩

/-! ## Two ways of splitting the bytes -/

/-- The bytes that `send_rm_record_quic` puts on a stream for some records, record by record.
There are none for an empty record. -/
def sentRecords (counts : ShortCounts) (fuel : Nat) (key : Conn × Nat) (records : List Bytes) :
    List Bytes :=
  records.map (sentRecord counts fuel key)

section Sent

variable {counts : ShortCounts} {fuel : Nat} {key : Conn × Nat} {records : List Bytes}
  (hRecords : ∀ r ∈ records, r.length < 2 ^ 64 ∧ r.length + RM_FRAGMENT_HEADER_SIZE < fuel)

include hRecords

omit [DecidableEq Conn] in
theorem filter_sentRecords :
    ((sentRecords counts fuel key records).filter fun w => !w.isEmpty) =
      sentRecords counts fuel key (records.filter fun r => !r.isEmpty) := by
  unfold sentRecords
  rw [List.filter_map]
  congr 1
  refine List.filter_congr fun r hr => ?_
  have hSent := sentRecord_eq counts key (hRecords r hr).1 (hRecords r hr).2
  rw [Function.comp_apply, hSent]
  by_cases hne : r = []
  · rw [hne]
    rfl
  · have hEncoded : encodeRecord r ≠ [] := (awaits_create key.1 key.2 hne).rest_ne_nil
    rw [List.isEmpty_eq_false_iff.mpr hEncoded, List.isEmpty_eq_false_iff.mpr hne]

/-- One way of splitting the bytes of some records. -/
theorem splitting_cases {arrivals : List (List Bytes)} {readables : List (Readable Conn)}
    (hSplit : Splits (sentRecords counts fuel key records).flatten arrivals)
    (hRun : streamRun key [] [] arrivals = some (readables, [])) :
    (Groups arrivals.flatten (sentRecords counts fuel key records) ∧
      handedOverBy readables = (records.filter fun r => !r.isEmpty) ∧
      ∀ readable ∈ readables, readable.failed = false) ∨
    (¬Groups arrivals.flatten (sentRecords counts fuel key records) ∧
      ∃ readable ∈ readables, ¬Recovered key readable) := by
  obtain ⟨nonempty, hNonempty⟩ : ∃ rs, rs = records.filter fun r => !r.isEmpty := ⟨_, rfl⟩
  -- the other streams carry nothing
  obtain ⟨all, hAll⟩ : ∃ f, f = update (fun _ : Conn × Nat => ([] : List Bytes)) key
    nonempty := ⟨_, rfl⟩
  have hOwn : all key = nonempty := by rw [hAll, update_self]
  have hStart : Receiving (sentRecord counts fuel) []
      (fun other => Peer.start (sentRecord counts fuel other) (all other)) := by
    refine receiving_start fun other r hr => ?_
    by_cases hOther : other = key
    · subst hOther
      rw [hOwn, hNonempty, mem_filter] at hr
      obtain ⟨hWord, hFuel⟩ := hRecords r hr.1
      exact ⟨by simpa using hr.2, sentRecord_eq counts other hWord hFuel⟩
    · rw [hAll, update_of_ne hOther] at hr
      cases hr
  have hToCome : (Peer.start (sentRecord counts fuel key) (all key)).toCome
      (sentRecord counts fuel key) =
        (sentRecords counts fuel key records).filter fun w => !w.isEmpty := by
    rw [hOwn, Peer.toCome_start, filter_sentRecords hRecords, hNonempty]
    rfl
  have hReads : ∀ b ∈ [] ++ arrivals.flatten, b ≠ [] ∧ b.length ≤ READ_BUF_SIZE := fun b hb =>
    hSplit.reads hb
  have hCases := streamRun_cases hStart hReads
    (by rw [hToCome, flatten_filter_not_isEmpty]; exact hSplit.flatten) hRun
  -- an empty record has no bytes, so it makes no difference to the groups
  rw [hToCome, groups_filter_iff fun b hb => (hReads b hb).1] at hCases
  rw [hOwn, Peer.records_start, hNonempty] at hCases
  exact hCases

end Sent

/-- **Independence of packetisation.** The bytes of some records are split into reads and
callbacks in two ways, and all are read. The same records are handed over both times, and a
callback that fails leaves a context that was removed or is as good as new, exactly if no read
reaches from one record into the next. -/
theorem quic_packetisation_iff (counts : ShortCounts) (fuel : Nat) (key : Conn × Nat)
    (records : List Bytes)
    (hRecords : ∀ r ∈ records, r.length < 2 ^ 64 ∧ r.length + RM_FRAGMENT_HEADER_SIZE < fuel)
    (arrivals arrivals' : List (List Bytes)) (readables readables' : List (Readable Conn))
    (hSplit : Splits (sentRecords counts fuel key records).flatten arrivals)
    (hSplit' : Splits (sentRecords counts fuel key records).flatten arrivals')
    (hRun : streamRun key [] [] arrivals = some (readables, []))
    (hRun' : streamRun key [] [] arrivals' = some (readables', [])) :
    (handedOverBy readables = handedOverBy readables' ∧
      ∀ readable ∈ readables ++ readables', Recovered key readable) ↔
    Groups arrivals.flatten (sentRecords counts fuel key records) ∧
      Groups arrivals'.flatten (sentRecords counts fuel key records) := by
  -- each of the two ways is one of the two kinds of runs
  have hFirst := splitting_cases hRecords hSplit hRun
  have hSecond := splitting_cases hRecords hSplit' hRun'
  constructor
  · rintro ⟨-, hRecovered⟩
    constructor
    · rcases hFirst with ⟨hGroups, -⟩ | ⟨-, readable, hMem, hLost⟩
      · exact hGroups
      · exact absurd (hRecovered readable (mem_append_left _ hMem)) hLost
    · rcases hSecond with ⟨hGroups, -⟩ | ⟨-, readable, hMem, hLost⟩
      · exact hGroups
      · exact absurd (hRecovered readable (mem_append_right _ hMem)) hLost
  · rintro ⟨hGroups, hGroups'⟩
    rcases hFirst with ⟨-, hHanded, hNever⟩ | ⟨hNo, -⟩
    · rcases hSecond with ⟨-, hHanded', hNever'⟩ | ⟨hNo', -⟩
      · refine ⟨hHanded.trans hHanded'.symm, fun readable hMem hFailed => ?_⟩
        -- no callback fails
        rcases mem_append.mp hMem with hMem | hMem
        · rw [hNever readable hMem] at hFailed
          cases hFailed
        · rw [hNever' readable hMem] at hFailed
          cases hFailed
      · exact absurd hGroups' hNo'
    · exact absurd hGroups hNo

/-- Two records, byte by byte and in one callback per record. -/
def Sample.separate : List (List Bytes) :=
  [[[128], [0], [0], [1], [7]], [[128, 0, 0, 1, 8]]]

/-- The same bytes, in callbacks that stop elsewhere. -/
def Sample.shifted : List (List Bytes) :=
  [[[128, 0]], [[0, 1, 7], [128, 0, 0, 1]], [], [[8]]]

/-- The same bytes in one read. -/
def Sample.coalesced : List (List Bytes) := [[[128, 0, 0, 1, 7, 128, 0, 0, 1, 8]]]

theorem Sample.splits : ∀ arrivals ∈ [separate, shifted, coalesced],
    Splits (sentRecords ShortCounts.single 9 ((0, 0) : Nat × Nat) [[7], [8]]).flatten arrivals := by
  have hReads : ∀ arrivals ∈ [separate, shifted, coalesced], ∀ b ∈ arrivals.flatten,
      b ≠ [] ∧ b.length ≤ READ_BUF_SIZE := by decide
  have hFlatten : ∀ arrivals ∈ [separate, shifted, coalesced], arrivals.flatten.flatten =
      (sentRecords ShortCounts.single 9 ((0, 0) : Nat × Nat) [[7], [8]]).flatten := by
    decide +kernel
  intro arrivals hMem
  exact ⟨fun hb => hReads arrivals hMem _ hb, hFlatten arrivals hMem⟩

theorem quic_packetisation_shifted :
    ∃ readables readables' : List (Readable Nat),
      streamRun (0, 0) [] [] Sample.separate = some (readables, []) ∧
      streamRun (0, 0) [] [] Sample.shifted = some (readables', []) ∧
      handedOverBy readables = handedOverBy readables' := by
  obtain ⟨readables, left, hRun⟩ := streamRun_returns tidy_nil ((0, 0) : Nat × Nat) [] Sample.separate
  obtain ⟨readables', left', hRun'⟩ :=
    streamRun_returns tidy_nil ((0, 0) : Nat × Nat) [] Sample.shifted
  have hLeft : (streamRun ((0, 0) : Nat × Nat) [] [] Sample.separate).map Prod.snd = some [] := by
    decide +kernel
  have hLeft' : (streamRun ((0, 0) : Nat × Nat) [] [] Sample.shifted).map Prod.snd = some [] := by
    decide +kernel
  rw [hRun] at hLeft
  rw [hRun'] at hLeft'
  cases hLeft
  cases hLeft'
  refine ⟨readables, readables', hRun, hRun', ?_⟩
  refine ((quic_packetisation_iff ShortCounts.single 9 (0, 0) [[7], [8]] (by decide)
    Sample.separate Sample.shifted readables readables' (Sample.splits _ (by decide))
    (Sample.splits _ (by decide)) hRun hRun').mpr ⟨?_, ?_⟩).1
  · exact ⟨[[[128], [0], [0], [1], [7]], [[128, 0, 0, 1, 8]]], rfl, by decide +kernel⟩
  · exact ⟨[[[128, 0], [0, 1, 7]], [[128, 0, 0, 1], [8]]], rfl, by decide +kernel⟩

/-- **Two records in one read.** None of them is handed over, where both are when they come in
reads of their own; and the context stays behind, with the first record in it. -/
theorem quic_packetisation_coalesced :
    (∀ arrivals ∈ [Sample.separate, Sample.coalesced],
      Splits (sentRecords ShortCounts.single 9 ((0, 0) : Nat × Nat) [[7], [8]]).flatten arrivals) ∧
    ∃ readables readables' : List (Readable Nat),
      streamRun (0, 0) [] [] Sample.separate = some (readables, []) ∧
      streamRun (0, 0) [] [] Sample.coalesced = some (readables', []) ∧
      handedOverBy readables = [[7], [8]] ∧ handedOverBy readables' = [] ∧
      ∃ readable ∈ readables', ¬Recovered (0, 0) readable := by
  refine ⟨fun arrivals hMem => Sample.splits arrivals ?_, ?_⟩
  · revert arrivals
    decide
  · obtain ⟨readables, left, hRun⟩ :=
      streamRun_returns tidy_nil ((0, 0) : Nat × Nat) [] Sample.separate
    obtain ⟨readables', left', hRun'⟩ :=
      streamRun_returns tidy_nil ((0, 0) : Nat × Nat) [] Sample.coalesced
    have hShown : (streamRun ((0, 0) : Nat × Nat) [] [] Sample.separate).map
        (fun run => (handedOverBy run.1, run.2)) = some ([[7], [8]], []) := by decide +kernel
    have hShown' : (streamRun ((0, 0) : Nat × Nat) [] [] Sample.coalesced).map
        (fun run => (handedOverBy run.1, run.2,
          run.1.any fun readable => !decide (Recovered (0, 0) readable))) =
        some ([], [], true) := by decide +kernel
    rw [hRun, map_some, some.injEq, Prod.mk.injEq] at hShown
    rw [hRun', map_some, some.injEq, Prod.mk.injEq, Prod.mk.injEq] at hShown'
    obtain ⟨hHanded, rfl⟩ := hShown
    obtain ⟨hHanded', rfl, hLost⟩ := hShown'
    obtain ⟨readable, hMem, hNot⟩ := any_eq_true.mp hLost
    exact ⟨readables, readables', hRun, hRun', hHanded, hHanded', readable, hMem, by simpa using hNot⟩

end QuicNfs.Transport
