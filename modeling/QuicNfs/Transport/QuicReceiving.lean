import QuicNfs.Lib.Grouping
import QuicNfs.Transport.RecordMarking

/-!
# QuicNfs — receiving a record from a QUIC stream

The receiving half of `quic_record_marking.c`. A QUIC stream is read when the
library reports it readable, and what is readable may stop anywhere in a record,
so the progress is kept in a `RecordMarkingReceivingContext` from one callback to
the next.

* `receiveAvailableBytesQuic` — reads all that is available;
* `Pending` — how far a sequence of fragments has come, empty ones among them: the
  context on one side, the bytes that are still to come on the other;
* `receiveAvailableBytesQuic_pending` — what the reads of one callback do to it;
* `Awaits` — the same for a record as a sender cuts it;
* `receiveAvailableBytesQuic_reads` — reads that go on with the record lead to
  the context that awaits the rest, and to a complete record when there is none.
-/

namespace QuicNfs.Transport

open Kernel Lib List

def READ_BUF_SIZE : Nat := 10000

/-! ## The receiving context -/

/-- The state of a record that is being received. The numbers of bytes that go
with the buffers in the source are the lengths of the lists. -/
structure RecordMarkingReceivingContext (Conn : Type) where
  quicConnection : Conn
  streamId : Nat
  /-- Concatenated payloads of the fragments that have been fully received. -/
  accumulatedPayloads : Bytes := []
  /-- Whether there is a buffer for them; `NULL` otherwise. -/
  hasAccumulatedPayloads : Bool := false
  currentRmFragmentReceivedHeaderBytes : Bytes := []
  isLastFragment : Bool := false
  currentRmFragmentExpectedSize : Nat := 0
  currentRmFragmentReceivedPayloadBytes : Bytes := []
  recordFullyReceived : Bool := false
deriving DecidableEq, Repr

variable {Conn : Type}

namespace RecordMarkingReceivingContext

def createRmReceivingContext (quicConnection : Conn) (streamId : Nat) :
    RecordMarkingReceivingContext Conn :=
  { quicConnection, streamId }

/-- Prepares the context for the next fragment: all but the payloads so far. -/
def resetForNextRmFragment (context : RecordMarkingReceivingContext Conn) :
    RecordMarkingReceivingContext Conn :=
  { createRmReceivingContext context.quicConnection context.streamId with
    accumulatedPayloads := context.accumulatedPayloads
    hasAccumulatedPayloads := context.hasAccumulatedPayloads }

/-- The stream the context belongs to. -/
def key (context : RecordMarkingReceivingContext Conn) : Conn × Nat :=
  (context.quicConnection, context.streamId)

end RecordMarkingReceivingContext

open RecordMarkingReceivingContext

/-! ## Reading what is available -/

/-- Takes as much of the fragment header as the bytes have. -/
def receiveHeaderBytes (context : RecordMarkingReceivingContext Conn) (bytes : Bytes) :
    RecordMarkingReceivingContext Conn × Bytes :=
  let headerBytesLeft :=
    RM_FRAGMENT_HEADER_SIZE - context.currentRmFragmentReceivedHeaderBytes.length
  let n := if headerBytesLeft < bytes.length then headerBytesLeft else bytes.length
  let header := context.currentRmFragmentReceivedHeaderBytes ++ bytes.take n
  -- parse the fragment header if fully received
  if header.length = RM_FRAGMENT_HEADER_SIZE then
    ({ context with
        currentRmFragmentReceivedHeaderBytes := header
        isLastFragment := Transport.isLastFragment header
        currentRmFragmentExpectedSize := fragmentSize header }, bytes.drop n)
  else ({ context with currentRmFragmentReceivedHeaderBytes := header }, bytes.drop n)

/-- Takes as much of the fragment payload as the bytes have. -/
def receivePayloadBytes (context : RecordMarkingReceivingContext Conn) (bytes : Bytes) :
    RecordMarkingReceivingContext Conn × Bytes :=
  let payload := context.currentRmFragmentReceivedPayloadBytes
  if payload.length < context.currentRmFragmentExpectedSize then
    let payloadBytesLeft := context.currentRmFragmentExpectedSize - payload.length
    let n := if payloadBytesLeft < bytes.length then payloadBytesLeft else bytes.length
    ({ context with currentRmFragmentReceivedPayloadBytes := payload ++ bytes.take n },
      bytes.drop n)
  else (context, bytes)

/-! Both take the bytes that are missing, as far as they are there. -/

/-- The header of the current fragment is not complete. -/
abbrev RecordMarkingReceivingContext.InHeader (context : RecordMarkingReceivingContext Conn) :
    Prop := context.currentRmFragmentReceivedHeaderBytes.length < RM_FRAGMENT_HEADER_SIZE

theorem inHeader_of_nil {context : RecordMarkingReceivingContext Conn}
    (h : context.currentRmFragmentReceivedHeaderBytes = []) : context.InHeader := by
  rw [InHeader, h]
  exact Nat.succ_pos 3

section Taking

variable (context : RecordMarkingReceivingContext Conn) (bytes : Bytes)

theorem take_available (n : Nat) :
    bytes.take (if n < bytes.length then n else bytes.length) = bytes.take n ∧
      bytes.drop (if n < bytes.length then n else bytes.length) = bytes.drop n := by
  split
  · exact ⟨rfl, rfl⟩
  · next hAll =>
    have hLe : bytes.length ≤ n := Nat.le_of_not_lt hAll
    rw [take_length, drop_length, take_of_length_le hLe, drop_eq_nil_of_le hLe]
    exact ⟨rfl, rfl⟩

theorem receiveHeaderBytes_eq {n : Nat}
    (hn : RM_FRAGMENT_HEADER_SIZE - context.currentRmFragmentReceivedHeaderBytes.length = n) :
    receiveHeaderBytes context bytes =
      (if (context.currentRmFragmentReceivedHeaderBytes ++ bytes.take n).length =
          RM_FRAGMENT_HEADER_SIZE then
        { context with
          currentRmFragmentReceivedHeaderBytes :=
            context.currentRmFragmentReceivedHeaderBytes ++ bytes.take n
          isLastFragment := Transport.isLastFragment
            (context.currentRmFragmentReceivedHeaderBytes ++ bytes.take n)
          currentRmFragmentExpectedSize := fragmentSize
            (context.currentRmFragmentReceivedHeaderBytes ++ bytes.take n) }
      else { context with
          currentRmFragmentReceivedHeaderBytes :=
            context.currentRmFragmentReceivedHeaderBytes ++ bytes.take n },
        bytes.drop n) := by
  unfold receiveHeaderBytes
  simp only [hn, take_available]
  split <;> rfl

theorem receivePayloadBytes_eq {n : Nat} (hn : context.currentRmFragmentExpectedSize -
      context.currentRmFragmentReceivedPayloadBytes.length = n) :
    receivePayloadBytes context bytes =
      ({ context with
          currentRmFragmentReceivedPayloadBytes :=
            context.currentRmFragmentReceivedPayloadBytes ++ bytes.take n },
        bytes.drop n) := by
  unfold receivePayloadBytes
  simp only [hn, take_available]
  split
  · rfl
  · next hWhole =>
    -- nothing is missing
    obtain rfl : n = 0 := by omega
    rw [take_zero, append_nil, drop_zero]

end Taking

/-- Saves the payload of a fully received fragment: the error code, and `true` if it was
the last. The first buffer comes from `malloc`; `realloc` of it to no bytes frees it, and
that counts as a failure to allocate. -/
def completeFragment (context : RecordMarkingReceivingContext Conn) :
    Nat × RecordMarkingReceivingContext Conn × Bool :=
  if context.currentRmFragmentReceivedPayloadBytes.length =
      context.currentRmFragmentExpectedSize then
    let payloads := context.accumulatedPayloads ++ context.currentRmFragmentReceivedPayloadBytes
    if context.hasAccumulatedPayloads ∧ payloads = [] then
      (3, { context with hasAccumulatedPayloads := false }, false)
    else
      let context := { context with accumulatedPayloads := payloads, hasAccumulatedPayloads := true }
      if context.isLastFragment then (0, { context with recordFullyReceived := true }, true)
      else (0, context.resetForNextRmFragment, false)
  else (0, context, false)

/-- The bytes of one read: the inner loop. The result is the error code, the context and
the bytes that were not processed. -/
def processBytesRead : Nat → RecordMarkingReceivingContext Conn → Bytes →
    Option (Nat × RecordMarkingReceivingContext Conn × Bytes)
  | 0, _, _ => none
  | fuel + 1, context, bytes =>
    if bytes = [] then some (0, context, [])
    else if context.currentRmFragmentReceivedHeaderBytes.length < RM_FRAGMENT_HEADER_SIZE then
      let (context, bytes) := receiveHeaderBytes context bytes
      processBytesRead fuel context bytes
    else
      let (context, bytes) := receivePayloadBytes context bytes
      let (errorCode, context, fullyReceived) := completeFragment context
      if errorCode > 0 then some (errorCode, context, bytes)
      else if fullyReceived then some (0, context, bytes)
      else processBytesRead fuel context bytes

/-- Reads all available data from the stream of the context. `reads` is what the
calls of `quic_stream_read` return, one read after the other, up to the negative
result that says that there is no more. The result is the error code, the context
and the reads that were not made. A header and the payload after it, even an empty
one, take two rounds per byte at most. -/
def receiveAvailableBytesQuic (context : RecordMarkingReceivingContext Conn) :
    List Bytes → Option (Nat × RecordMarkingReceivingContext Conn × List Bytes)
  | [] => some (0, context, [])
  | readBuffer :: reads =>
    if readBuffer = [] then some (2, context, reads) -- to prevent infinite loops
    else do
      let (errorCode, context, bytesLeft) ←
        processBytesRead (2 * readBuffer.length + 1) context readBuffer
      if errorCode > 0 then return (errorCode, context, reads)
      if context.recordFullyReceived then
        if bytesLeft ≠ [] then return (4, context, reads)
        return (0, context, reads)
      receiveAvailableBytesQuic context reads

/-! ## How far a record has come -/

/-- No fragment makes `realloc` free the payloads before it: those and the fragment are not
both empty, unless there is no buffer yet. -/
def Kept : Bool → Bytes → List Bytes → Prop
  | _, _, [] => True
  | hasPayloads, payloads, f :: fs =>
    (hasPayloads = true → payloads ++ f ≠ []) ∧ Kept true (payloads ++ f) fs

/-- A context in the middle of a record whose last fragment is `last`, with the bytes of the
record that are still to come. -/
inductive Pending (context : RecordMarkingReceivingContext Conn) (rest record last : Bytes) : Prop
  /-- In a fragment header, or before one. -/
  | header (f : Bytes) (fs : List Bytes)
      (hHeader : context.currentRmFragmentReceivedHeaderBytes.length < RM_FRAGMENT_HEADER_SIZE)
      (hPayload : context.currentRmFragmentReceivedPayloadBytes = [])
      (hFull : context.recordFullyReceived = false)
      (hRest : context.currentRmFragmentReceivedHeaderBytes ++ rest = encodeFragments (f :: fs))
      (hRecord : context.accumulatedPayloads ++ (f :: fs).flatten = record)
      (hSize : ∀ g ∈ f :: fs, g.length ≤ RM_MAX_FRAGMENT_DATA_SIZE)
      (hKept : Kept context.hasAccumulatedPayloads context.accumulatedPayloads (f :: fs))
      (hEnd : (f :: fs).getLast? = some last)
  /-- In the payload of a fragment, of which `f` is still to come. An empty payload is not
  noticed before the next byte comes. -/
  | payload (f : Bytes) (fs : List Bytes)
      (hHeader : context.currentRmFragmentReceivedHeaderBytes.length = RM_FRAGMENT_HEADER_SIZE)
      (hLast : context.isLastFragment = decide (fs = []))
      (hExpected : context.currentRmFragmentExpectedSize =
        context.currentRmFragmentReceivedPayloadBytes.length + f.length)
      (hFull : context.recordFullyReceived = false)
      (hOpen : f = [] → context.currentRmFragmentReceivedPayloadBytes = [])
      (hRest : rest = f ++ encodeFragments fs)
      (hRecord : context.accumulatedPayloads ++
        ((context.currentRmFragmentReceivedPayloadBytes ++ f) :: fs).flatten = record)
      (hSize : ∀ g ∈ fs, g.length ≤ RM_MAX_FRAGMENT_DATA_SIZE)
      (hKept : Kept context.hasAccumulatedPayloads context.accumulatedPayloads
        ((context.currentRmFragmentReceivedPayloadBytes ++ f) :: fs))
      (hEnd : ((context.currentRmFragmentReceivedPayloadBytes ++ f) :: fs).getLast? = some last)

/-- A context that holds a whole record. -/
def Completed (context : RecordMarkingReceivingContext Conn) (record : Bytes) : Prop :=
  context.recordFullyReceived = true ∧ context.accumulatedPayloads = record

variable {fs : List Bytes} {fuel : Nat} {context : RecordMarkingReceivingContext Conn}
  {rest record last : Bytes}

/-- A sequence of fragments of which nothing was read. -/
theorem pending_create (quicConnection : Conn) (streamId : Nat)
    (hSize : ∀ g ∈ fs, g.length ≤ RM_MAX_FRAGMENT_DATA_SIZE) (hKept : Kept false [] fs)
    (hEnd : fs.getLast? = some last) :
    Pending (createRmReceivingContext quicConnection streamId) (encodeFragments fs) fs.flatten
      last := by
  cases fs with
  | nil => cases hEnd
  | cons f fs => exact .header f fs (Nat.succ_pos 3) rfl rfl rfl rfl hSize hKept hEnd

theorem Pending.not_full (h : Pending context rest record last) :
    context.recordFullyReceived = false := by
  cases h with
  | header _ _ _ _ hFull => exact hFull
  | payload _ _ _ _ _ hFull => exact hFull

/-- Only an empty last fragment can leave a context waiting when there is nothing to come. -/
theorem Pending.last_eq_nil (h : Pending context [] record last) : last = [] := by
  cases h with
  | header f fs hHeader _ _ hRest =>
    have hLength := congrArg length hRest
    rw [append_nil, encodeFragments_cons, length_append, length_fragmentHeader] at hLength
    omega
  | payload f fs _ _ _ _ hOpen hRest _ _ _ hEnd =>
    obtain ⟨rfl, hNil⟩ := append_eq_nil_iff.mp hRest.symm
    cases fs with
    | nil =>
      rw [hOpen rfl] at hEnd
      exact (Option.some.inj hEnd).symm
    | cons g gs =>
      have hLength := congrArg length hNil
      rw [encodeFragments_cons, length_append, length_fragmentHeader, RM_FRAGMENT_HEADER_SIZE,
        length_nil] at hLength
      omega

/-! ## One round of the inner loop -/

section Rounds

variable {bytes : Bytes}

/-- A round that goes on with a header. -/
theorem processBytesRead_header (hne : bytes ≠ []) (hHeader : context.InHeader) :
    processBytesRead (fuel + 1) context bytes =
      processBytesRead fuel (receiveHeaderBytes context bytes).1
        (receiveHeaderBytes context bytes).2 := by
  rw [processBytesRead, if_neg hne, if_pos hHeader]

/-- A round that goes on with a payload. -/
theorem processBytesRead_payload (hne : bytes ≠ []) (hHeader : ¬context.InHeader)
    {context₁ context₂ : RecordMarkingReceivingContext Conn} {bytes₁ : Bytes} {errorCode : Nat}
    {fullyReceived : Bool} (hTake : receivePayloadBytes context bytes = (context₁, bytes₁))
    (hComplete : completeFragment context₁ = (errorCode, context₂, fullyReceived)) :
    processBytesRead (fuel + 1) context bytes =
      if errorCode > 0 then some (errorCode, context₂, bytes₁)
      else if fullyReceived then some (0, context₂, bytes₁)
      else processBytesRead fuel context₂ bytes₁ := by
  rw [processBytesRead, if_neg hne, if_neg hHeader, hTake]
  dsimp only
  rw [hComplete]

theorem receiveHeaderBytes_pending (h : Pending context (bytes ++ rest) record last)
    (hne : bytes ≠ []) (hHeader : context.InHeader) :
    (receiveHeaderBytes context bytes).1.key = context.key ∧
      (receiveHeaderBytes context bytes).2.length < bytes.length ∧
      Pending (receiveHeaderBytes context bytes).1 ((receiveHeaderBytes context bytes).2 ++ rest)
        record last := by
  cases h with
  | payload _ _ hComplete => omega
  | header f fs _ hPayload hFull hRest hRecord hSize hKept hEnd =>
    obtain ⟨n, hn⟩ : ∃ n, RM_FRAGMENT_HEADER_SIZE -
        context.currentRmFragmentReceivedHeaderBytes.length = n := ⟨_, rfl⟩
    have hShorter : (bytes.drop n).length < bytes.length := by
      have hBytes : 0 < bytes.length := length_pos_iff.mpr hne
      rw [length_drop]
      omega
    -- whatever was moved from the bytes to the header, together they are the same
    have hSplit : context.currentRmFragmentReceivedHeaderBytes ++ bytes.take n ++
        (bytes.drop n ++ rest) = encodeFragments (f :: fs) := by
      rw [← hRest, append_assoc, ← append_assoc (bytes.take n), take_append_drop]
    have hLe : (context.currentRmFragmentReceivedHeaderBytes ++ bytes.take n).length ≤
        RM_FRAGMENT_HEADER_SIZE := by
      rw [length_append, length_take]
      omega
    rw [receiveHeaderBytes_eq context bytes hn]
    dsimp only
    split
    · next hDone =>
      rw [encodeFragments_cons] at hSplit
      obtain ⟨hHead, hTail⟩ := append_inj hSplit (by rw [hDone, length_fragmentHeader])
      have hfMax := hSize f (by simp)
      have hWhole : context.currentRmFragmentReceivedPayloadBytes ++ f = f := by
        rw [hPayload, nil_append]
      refine ⟨rfl, hShorter, .payload f fs hDone ?_ ?_ hFull (fun _ => hPayload) hTail ?_ ?_ ?_ ?_⟩
      · show isLastFragment _ = _
        rw [hHead, isLastFragment_header hfMax]
      · show fragmentSize _ = _
        rw [hHead, fragmentSize_header hfMax, hPayload, length_nil, Nat.zero_add]
      · rw [hWhole]
        exact hRecord
      · exact fun g hg => hSize g (mem_cons_of_mem _ hg)
      · rw [hWhole]
        exact hKept
      · rw [hWhole]
        exact hEnd
    · next hMore =>
      refine ⟨rfl, hShorter, .header f fs ?_ hPayload hFull hSplit hRecord hSize hKept hEnd⟩
      exact Nat.lt_of_le_of_ne hLe hMore

/-- The fragment is complete: the record is, or the next fragment begins. -/
theorem completeFragment_pending (context : RecordMarkingReceivingContext Conn) {payload : Bytes}
    (hPayload : context.currentRmFragmentReceivedPayloadBytes = payload)
    (hExpected : context.currentRmFragmentExpectedSize = payload.length)
    (hLast : context.isLastFragment = decide (fs = []))
    (hRecord : context.accumulatedPayloads ++ (payload :: fs).flatten = record)
    (hSize : ∀ g ∈ fs, g.length ≤ RM_MAX_FRAGMENT_DATA_SIZE)
    (hKept : Kept context.hasAccumulatedPayloads context.accumulatedPayloads (payload :: fs))
    (hEnd : (payload :: fs).getLast? = some last) :
    ∃ context' fullyReceived, completeFragment context = (0, context', fullyReceived) ∧
      context'.key = context.key ∧
      if fullyReceived then fs = [] ∧ payload = last ∧ Completed context' record
      else fs ≠ [] ∧ Pending context' (encodeFragments fs) record last ∧
        context'.currentRmFragmentReceivedHeaderBytes = [] := by
  unfold completeFragment
  rw [hPayload, hExpected, if_pos rfl]
  dsimp only
  rw [if_neg fun hFreed => hKept.1 hFreed.1 hFreed.2]
  cases fs with
  | nil =>
    rw [decide_eq_true rfl] at hLast
    rw [hLast, if_pos rfl]
    refine ⟨_, true, rfl, rfl, rfl, Option.some.inj hEnd, rfl, ?_⟩
    rw [← hRecord, flatten_cons, flatten_nil, append_nil]
  | cons g gs =>
    rw [decide_eq_false (cons_ne_nil g gs)] at hLast
    rw [hLast, if_neg Bool.false_ne_true]
    refine ⟨_, false, rfl, rfl, cons_ne_nil g gs, ?_, rfl⟩
    refine .header g gs (Nat.succ_pos 3) rfl rfl rfl ?_ hSize hKept.2 ?_
    · show context.accumulatedPayloads ++ payload ++ (g :: gs).flatten = record
      rw [← hRecord, append_assoc, ← flatten_cons]
    · rw [← hEnd, getLast?_cons_cons]

/-- The bytes begin with what the payload is missing. -/
theorem receivePayloadBytes_whole {f : Bytes} (hExpected : context.currentRmFragmentExpectedSize =
      context.currentRmFragmentReceivedPayloadBytes.length + f.length) (bytes : Bytes) :
    receivePayloadBytes context (f ++ bytes) =
      ({ context with
          currentRmFragmentReceivedPayloadBytes :=
            context.currentRmFragmentReceivedPayloadBytes ++ f }, bytes) := by
  have hn : context.currentRmFragmentExpectedSize -
      context.currentRmFragmentReceivedPayloadBytes.length = f.length := by omega
  rw [receivePayloadBytes_eq context _ hn, take_left, drop_left]

/-- The bytes end before the payload does. -/
theorem receivePayloadBytes_part
    (hPart : bytes.length < context.currentRmFragmentExpectedSize -
      context.currentRmFragmentReceivedPayloadBytes.length) :
    ∃ context', context' =
        { context with
          currentRmFragmentReceivedPayloadBytes :=
            context.currentRmFragmentReceivedPayloadBytes ++ bytes } ∧
      receivePayloadBytes context bytes = (context', []) ∧
      completeFragment context' = (0, context', false) := by
  have hMore : (context.currentRmFragmentReceivedPayloadBytes ++ bytes).length ≠
      context.currentRmFragmentExpectedSize := by
    rw [length_append]
    omega
  rw [receivePayloadBytes_eq context bytes rfl, take_of_length_le (Nat.le_of_lt hPart),
    drop_eq_nil_of_le (Nat.le_of_lt hPart)]
  exact ⟨_, rfl, rfl, if_neg hMore⟩

theorem receivePayloadBytes_pending (h : Pending context (bytes ++ rest) record last)
    (hne : bytes ≠ []) (hHeader : ¬context.InHeader) :
    ∃ context₁ bytes' context' fullyReceived,
      receivePayloadBytes context bytes = (context₁, bytes') ∧
      completeFragment context₁ = (0, context', fullyReceived) ∧ context'.key = context.key ∧
      (bytes'.length < bytes.length ∨
        bytes' = bytes ∧ context'.currentRmFragmentReceivedHeaderBytes = []) ∧
      if fullyReceived then bytes' ++ rest = [] ∧ last ≠ [] ∧ Completed context' record
      else Pending context' (bytes' ++ rest) record last := by
  cases h with
  | header f fs hPart => exact absurd hPart hHeader
  | payload f fs hComplete hLast hExpected hFull hOpen hRest hRecord hSize hKept hEnd =>
    by_cases hWhole : f.length ≤ bytes.length
    · -- the fragment is complete
      obtain ⟨bytes', rfl, hTail⟩ := exists_append_of_le hRest hWhole
      obtain ⟨context', fullyReceived, hRun, hKey, hNext⟩ :=
        completeFragment_pending { context with
          currentRmFragmentReceivedPayloadBytes :=
            context.currentRmFragmentReceivedPayloadBytes ++ f }
          rfl (hExpected.trans length_append.symm) hLast hRecord hSize hKept hEnd
      have hShorter (hf : f ≠ []) : bytes'.length < (f ++ bytes').length := by
        have hPos : 0 < f.length := length_pos_iff.mpr hf
        rw [length_append]
        omega
      refine ⟨_, bytes', context', fullyReceived, receivePayloadBytes_whole hExpected bytes', hRun,
        hKey, ?_⟩
      cases fullyReceived with
      | true =>
        obtain ⟨rfl, hPayload, hCompleted⟩ := hNext
        -- nothing is left, so the bytes of the read were of this fragment
        have hf : f ≠ [] := by
          rintro rfl
          exact hne (append_eq_nil_iff.mp hTail).1
        refine ⟨.inl (hShorter hf), hTail, ?_, hCompleted⟩
        rw [← hPayload]
        exact append_ne_nil_of_right_ne_nil _ hf
      | false =>
        obtain ⟨-, hPending, hFresh⟩ := hNext
        rw [← hTail] at hPending
        by_cases hf : f = []
        · -- an empty payload: no byte was taken
          subst hf
          exact ⟨.inr ⟨rfl, hFresh⟩, hPending⟩
        · exact ⟨.inl (hShorter hf), hPending⟩
    · -- there is more of the fragment to come
      obtain ⟨f', rfl, hTail⟩ := exists_append_of_le hRest.symm (Nat.le_of_not_le hWhole)
      rw [length_append] at hWhole hExpected
      have hf' : 0 < f'.length := by omega
      obtain ⟨context', rfl, hTake, hRun⟩ :=
        receivePayloadBytes_part (show bytes.length < context.currentRmFragmentExpectedSize -
          context.currentRmFragmentReceivedPayloadBytes.length by omega)
      rw [← append_assoc] at hRecord hKept hEnd
      refine ⟨_, [], _, false, hTake, hRun, rfl, .inl (length_pos_iff.mpr hne), ?_⟩
      refine .payload f' fs hComplete hLast ?_ hFull ?_ hTail.symm hRecord hSize hKept hEnd
      · show context.currentRmFragmentExpectedSize = _
        rw [hExpected, length_append, Nat.add_assoc]
      · rintro rfl
        cases hf'

end Rounds

/-! ## The loops -/

/-- The inner loop processes all bytes of a read that goes on with the record. -/
theorem processBytesRead_pending {bytes : Bytes} (h : Pending context (bytes ++ rest) record last)
    (hPos : 0 < fuel) (hFuel : 2 * bytes.length + (if context.InHeader then 0 else 1) ≤ fuel) :
    ∃ context', processBytesRead fuel context bytes = some (0, context', []) ∧
      context'.key = context.key ∧
      (Pending context' rest record last ∨ rest = [] ∧ last ≠ [] ∧ Completed context' record) := by
  induction fuel generalizing context bytes with
  | zero => omega
  | succ fuel ih =>
    by_cases hne : bytes = []
    · subst hne
      exact ⟨context, rfl, rfl, .inl h⟩
    have hBytes : 0 < bytes.length := length_pos_iff.mpr hne
    by_cases hHeader : context.InHeader
    · rw [if_pos hHeader] at hFuel
      obtain ⟨hKey, hLess, hNext⟩ := receiveHeaderBytes_pending h hne hHeader
      obtain ⟨context', hRun, hKey', hDone⟩ := ih hNext (by omega) (by split <;> omega)
      exact ⟨context', (processBytesRead_header hne hHeader).trans hRun, hKey'.trans hKey, hDone⟩
    · rw [if_neg hHeader] at hFuel
      obtain ⟨context₁, bytes', context₂, fullyReceived, hTake, hComplete, hKey, hLess, hNext⟩ :=
        receivePayloadBytes_pending h hne hHeader
      rw [processBytesRead_payload hne hHeader hTake hComplete, if_neg (lt_irrefl 0)]
      cases fullyReceived with
      | true =>
        obtain ⟨hNil, hLast, hCompleted⟩ := hNext
        obtain ⟨rfl, rfl⟩ := append_eq_nil_iff.mp hNil
        exact ⟨context₂, rfl, hKey, .inr ⟨rfl, hLast, hCompleted⟩⟩
      | false =>
        -- an empty payload takes a round and no byte, but the next round takes a header
        have hFuel' : 2 * bytes'.length + (if context₂.InHeader then 0 else 1) ≤ fuel := by
          rcases hLess with hLess | ⟨rfl, hFresh⟩
          · split <;> omega
          · rw [if_pos (inHeader_of_nil hFresh)]
            omega
        obtain ⟨context', hRun, hKey', hDone⟩ := ih hNext (by omega) hFuel'
        exact ⟨context', hRun, hKey'.trans hKey, hDone⟩

/-- The outer loop makes all reads that go on with the record, and succeeds. -/
theorem receiveAvailableBytesQuic_pending {reads : List Bytes} (hReads : ∀ b ∈ reads, b ≠ [])
    (h : Pending context (reads.flatten ++ rest) record last) :
    ∃ context', receiveAvailableBytesQuic context reads = some (0, context', []) ∧
      context'.key = context.key ∧
      (Pending context' rest record last ∨ rest = [] ∧ last ≠ [] ∧ Completed context' record) := by
  induction reads generalizing context with
  | nil => exact ⟨context, rfl, rfl, .inl h⟩
  | cons readBuffer reads ih =>
    have hne : readBuffer ≠ [] := hReads readBuffer (by simp)
    have hOthers : ∀ b ∈ reads, b ≠ [] := fun b hb => hReads b (mem_cons_of_mem _ hb)
    rw [flatten_cons, append_assoc] at h
    obtain ⟨context₁, hRun₁, hKey₁, hStep⟩ :=
      processBytesRead_pending h (Nat.succ_pos (2 * readBuffer.length)) (by split <;> omega)
    rw [receiveAvailableBytesQuic, if_neg hne, hRun₁, Option.bind_eq_bind, Option.bind_some]
    dsimp only
    rw [if_neg (lt_irrefl 0)]
    rcases hStep with hPending | ⟨hRest, hLast, hCompleted⟩
    · obtain ⟨context', hRun, hKey, hDone⟩ := ih hOthers hPending
      rw [if_neg (by simp [hPending.not_full])]
      exact ⟨context', hRun, hKey.trans hKey₁, hDone⟩
    · -- the record is complete, so there are no more reads
      obtain ⟨hFlatten, rfl⟩ := append_eq_nil_iff.mp hRest
      obtain rfl := flatten_eq_nil hOthers hFlatten
      rw [if_pos hCompleted.1]
      exact ⟨context₁, rfl, hKey₁, .inr ⟨rfl, hLast, hCompleted⟩⟩

/-! ## Records that a sender cuts

No fragment of theirs is empty, so what has come tells whether the record is complete. -/

/-- A context in the middle of a record, with the bytes of the record that are
still to come. -/
def Awaits (context : RecordMarkingReceivingContext Conn) (rest record : Bytes) : Prop :=
  ∃ last, last ≠ [] ∧ Pending context rest record last

theorem kept_of_ne_nil (hfs : ∀ f ∈ fs, f ≠ []) (hasPayloads : Bool) (payloads : Bytes) :
    Kept hasPayloads payloads fs := by
  induction fs generalizing hasPayloads payloads with
  | nil => trivial
  | cons f fs ih =>
    exact ⟨fun _ => append_ne_nil_of_right_ne_nil _ (hfs f (by simp)),
      ih (fun g hg => hfs g (mem_cons_of_mem _ hg)) _ _⟩

/-- A record of which nothing was read. -/
theorem awaits_create (quicConnection : Conn) (streamId : Nat) (hne : record ≠ []) :
    Awaits (createRmReceivingContext quicConnection streamId) (encodeRecord record) record := by
  have hCut := cut_fragments hne
  have hEnd := getLast?_eq_some_getLast hCut.ne_nil
  have hPending := pending_create quicConnection streamId (fun g hg => (hCut.size hg).2)
    (kept_of_ne_nil (fun f hf => (hCut.size hf).1) false []) hEnd
  rw [hCut.flatten] at hPending
  exact ⟨_, (hCut.size (getLast_mem hCut.ne_nil)).1, hPending⟩

theorem Awaits.rest_ne_nil (h : Awaits context rest record) : rest ≠ [] := by
  rintro rfl
  obtain ⟨last, hLast, hPending⟩ := h
  exact hLast hPending.last_eq_nil

theorem Awaits.not_full (h : Awaits context rest record) : context.recordFullyReceived = false := by
  obtain ⟨last, -, hPending⟩ := h
  exact hPending.not_full

/-- After some bytes: the whole record, or a context that awaits the rest. -/
def Progress (context : RecordMarkingReceivingContext Conn) (rest record : Bytes) : Prop :=
  if rest = [] then Completed context record else Awaits context rest record

theorem Awaits.progress (h : Awaits context rest record) : Progress context rest record := by
  rw [Progress, if_neg h.rest_ne_nil]
  exact h

/-- The reads that go on with a record lead to its end, or to the context that awaits the
rest. -/
theorem receiveAvailableBytesQuic_reads {reads : List Bytes} (hReads : ∀ b ∈ reads, b ≠ [])
    (h : Awaits context (reads.flatten ++ rest) record) :
    ∃ context', receiveAvailableBytesQuic context reads = some (0, context', []) ∧
      context'.key = context.key ∧ Progress context' rest record := by
  obtain ⟨last, hLast, hPending⟩ := h
  obtain ⟨context', hRun, hKey, hDone⟩ := receiveAvailableBytesQuic_pending hReads hPending
  refine ⟨context', hRun, hKey, ?_⟩
  rcases hDone with hPending' | ⟨hRest, -, hCompleted⟩
  · exact Awaits.progress ⟨last, hLast, hPending'⟩
  · rwa [Progress, if_pos hRest]

end QuicNfs.Transport
