import QuicNfs.Transport.QuicServer

/-!
# QuicNfs — any reads of a QUIC stream

What `receive_available_bytes_quic` does with reads that need not stop where the
record does, and with bytes that need not be a record at all.

* `processBytesRead_append`, `receiveAvailableBytesQuic_append` — the bytes after
  the end of a record are left alone;
* `receiveAvailableBytesQuic_across` — a read that reaches into the next record:
  error 4, and the context keeps the record that was complete;
* `Bounded`, `receiveAvailableBytesQuic_returns`, `serverOnStreamReadable_returns`
  — the loops end, whatever the client sends;
* `receiveAvailableBytesQuic_made` — what a context holds was read for it.
-/

namespace QuicNfs.Transport

open Kernel Lib RecordMarkingReceivingContext List Option

variable {Conn : Type}

/-! ## Bytes after the end of a record -/

variable {errorCode fuel : Nat} {left : Bytes} {reads : List Bytes}
variable {context context' : RecordMarkingReceivingContext Conn} {contexts : Contexts Conn}
  {key : Conn × Nat}

section Beyond

variable {bytes : Bytes}

theorem receiveHeaderBytes_append
    (h : RM_FRAGMENT_HEADER_SIZE - context.currentRmFragmentReceivedHeaderBytes.length ≤
      bytes.length) (beyond : Bytes) :
    receiveHeaderBytes context (bytes ++ beyond) =
      ((receiveHeaderBytes context bytes).1, (receiveHeaderBytes context bytes).2 ++ beyond) := by
  rw [receiveHeaderBytes_eq context _ rfl, receiveHeaderBytes_eq context _ rfl,
    take_append_of_le_length h, drop_append_of_le_length h]

theorem receivePayloadBytes_append
    (h : context.currentRmFragmentExpectedSize -
      context.currentRmFragmentReceivedPayloadBytes.length ≤ bytes.length) (beyond : Bytes) :
    receivePayloadBytes context (bytes ++ beyond) =
      ((receivePayloadBytes context bytes).1, (receivePayloadBytes context bytes).2 ++ beyond) := by
  rw [receivePayloadBytes_eq context _ rfl, receivePayloadBytes_eq context _ rfl,
    take_append_of_le_length h, drop_append_of_le_length h]

/-- A header that is not complete has taken all bytes. -/
theorem receiveHeaderBytes_short
    (h : bytes.length < RM_FRAGMENT_HEADER_SIZE -
      context.currentRmFragmentReceivedHeaderBytes.length) :
    (receiveHeaderBytes context bytes).2 = [] := by
  rw [receiveHeaderBytes_eq context bytes rfl]
  exact drop_eq_nil_of_le (Nat.le_of_lt h)

/-! The flag of a complete record is set by `completeFragment` alone. -/

theorem receiveHeaderBytes_full (context : RecordMarkingReceivingContext Conn) (bytes : Bytes) :
    (receiveHeaderBytes context bytes).1.recordFullyReceived = context.recordFullyReceived := by
  rw [receiveHeaderBytes_eq context bytes rfl]
  split <;> rfl

theorem receivePayloadBytes_full (context : RecordMarkingReceivingContext Conn) (bytes : Bytes) :
    (receivePayloadBytes context bytes).1.recordFullyReceived = context.recordFullyReceived := by
  rw [receivePayloadBytes_eq context bytes rfl]

theorem completeFragment_open (hOpen : context.recordFullyReceived = false)
    (h : completeFragment context = (errorCode, context', false)) :
    context'.recordFullyReceived = false := by
  unfold completeFragment at h
  dsimp only at h
  split at h
  · split at h
    · cases h
      exact hOpen
    · split at h
      · cases h
      · cases h
        rfl
  · cases h
    exact hOpen

theorem processBytesRead_nil
    (h : processBytesRead fuel context [] = some (errorCode, context', left)) :
    context' = context := by
  cases fuel with
  | zero => cases h
  | succ fuel =>
    rw [processBytesRead, if_pos rfl] at h
    cases h
    rfl

/-- What a round with a payload makes of the context and the bytes. -/
theorem payloadRound (context : RecordMarkingReceivingContext Conn) (bytes : Bytes) :
    ∃ context₁ bytes₁ errorCode context₂ fullyReceived,
      receivePayloadBytes context bytes = (context₁, bytes₁) ∧
      completeFragment context₁ = (errorCode, context₂, fullyReceived) :=
  ⟨_, _, _, _, _, rfl, rfl⟩

/-- A read that completes the record does so with more bytes behind, and leaves them. -/
theorem processBytesRead_append {fuel' : Nat} (hOpen : context.recordFullyReceived = false)
    (hRun : processBytesRead fuel context bytes = some (0, context', left))
    (hFull : context'.recordFullyReceived = true) (hFuel : fuel ≤ fuel') (beyond : Bytes) :
    processBytesRead fuel' context (bytes ++ beyond) = some (0, context', left ++ beyond) := by
  induction fuel generalizing fuel' context bytes with
  | zero => cases hRun
  | succ fuel ih =>
    obtain ⟨fuel', rfl⟩ : ∃ n, fuel' = n + 1 := ⟨fuel' - 1, by omega⟩
    by_cases hBytes : bytes = []
    · -- nothing to process: the record would have been complete before
      rw [processBytesRead, if_pos hBytes] at hRun
      cases hRun
      cases hOpen.symm.trans hFull
    have hMore : bytes ++ beyond ≠ [] := fun hNil => hBytes (append_eq_nil_iff.mp hNil).1
    by_cases hHeader : context.InHeader
    · rw [processBytesRead_header hBytes hHeader] at hRun
      rw [processBytesRead_header hMore hHeader]
      by_cases hEnough : RM_FRAGMENT_HEADER_SIZE -
          context.currentRmFragmentReceivedHeaderBytes.length ≤ bytes.length
      · rw [receiveHeaderBytes_append hEnough]
        refine ih ?_ hRun (by omega)
        rw [receiveHeaderBytes_full]
        exact hOpen
      · -- all bytes went into the header, and no record is complete
        rw [receiveHeaderBytes_short (Nat.lt_of_not_le hEnough)] at hRun
        rw [processBytesRead_nil hRun, receiveHeaderBytes_full, hOpen] at hFull
        cases hFull
    · by_cases hEnough : context.currentRmFragmentExpectedSize -
          context.currentRmFragmentReceivedPayloadBytes.length ≤ bytes.length
      · obtain ⟨context₁, bytes₁, errorCode, context₂, fullyReceived, hTake, hComplete⟩ :=
          payloadRound context bytes
        have hOpen₁ : context₁.recordFullyReceived = false := by
          rw [← hOpen, ← receivePayloadBytes_full context bytes, hTake]
        have hTake' := receivePayloadBytes_append hEnough beyond
        rw [hTake] at hTake'
        rw [processBytesRead_payload hBytes hHeader hTake hComplete] at hRun
        rw [processBytesRead_payload hMore hHeader hTake' hComplete]
        split at hRun
        · -- a failure is not a complete record
          next hError =>
          cases hRun
          cases hError
        · next hNoError =>
          rw [if_neg hNoError]
          cases fullyReceived with
          | true =>
            cases hRun
            rfl
          | false => exact ih (completeFragment_open hOpen₁ hComplete) hRun (by omega)
      · -- all bytes went into the payload, and there are more to come
        obtain ⟨context₁, rfl, hTake, hComplete⟩ :=
          receivePayloadBytes_part (Nat.lt_of_not_le hEnough)
        rw [processBytesRead_payload hBytes hHeader hTake hComplete] at hRun
        rw [processBytesRead_nil hRun] at hFull
        cases hOpen.symm.trans hFull

/-- The reads up to one that leaves the record open are made one after the other. -/
theorem receiveAvailableBytesQuic_append (hOpen : context.recordFullyReceived = false)
    (hRun : receiveAvailableBytesQuic context reads = some (0, context', [])) (more : List Bytes) :
    receiveAvailableBytesQuic context (reads ++ more) =
      if context'.recordFullyReceived then some (0, context', more)
      else receiveAvailableBytesQuic context' more := by
  induction reads generalizing context with
  | nil =>
    cases hRun
    rw [if_neg (by simp [hOpen])]
    rfl
  | cons readBuffer reads ih =>
    rw [receiveAvailableBytesQuic] at hRun
    rw [cons_append, receiveAvailableBytesQuic]
    split at hRun
    · cases hRun
    · next hRead =>
      rw [if_neg hRead]
      obtain ⟨⟨errorCode, context₁, bytesLeft⟩, hProcess, hRun⟩ := bind_eq_some_iff.mp hRun
      rw [hProcess, bind_eq_bind, bind_some]
      dsimp only at hRun ⊢
      split at hRun
      · next hError =>
        cases hRun
        cases hError
      · next hNoError =>
        rw [if_neg hNoError]
        split at hRun
        · next hFull =>
          -- the record is complete: this was the last read
          rw [if_pos hFull]
          split at hRun
          · cases hRun
          · next hLeft =>
            rw [if_neg hLeft]
            cases hRun
            rw [if_pos hFull]
            rfl
        · next hFull =>
          rw [if_neg hFull]
          exact ih (by simpa using hFull) hRun

/-- **A read across the end of a record.** Its last bytes belong to the next record: the
call fails, and the context is left with the record that is complete. -/
theorem receiveAvailableBytesQuic_across {first others : List Bytes} {within beyond record : Bytes}
    (hFirst : ∀ b ∈ first, b ≠ []) (hWithin : within ≠ []) (hBeyond : beyond ≠ [])
    (h : Awaits context (first.flatten ++ within) record) :
    ∃ context', receiveAvailableBytesQuic context (first ++ (within ++ beyond) :: others) =
        some (4, context', others) ∧ context'.key = context.key ∧ Completed context' record := by
  obtain ⟨context₁, hRun₁, hKey₁, hProgress⟩ := receiveAvailableBytesQuic_reads hFirst h
  rw [Progress, if_neg hWithin] at hProgress
  rw [receiveAvailableBytesQuic_append h.not_full hRun₁, if_neg (by simp [hProgress.not_full])]
  -- the bytes up to the end complete the record
  obtain ⟨last, hLast, hPending⟩ := hProgress
  rw [← append_nil within] at hPending
  obtain ⟨context₂, hRun₂, hKey₂, hStep⟩ :=
    processBytesRead_pending hPending (Nat.succ_pos (2 * within.length)) (by split <;> omega)
  have hCompleted : Completed context₂ record := by
    rcases hStep with hMore | ⟨-, -, hCompleted⟩
    · exact absurd hMore.last_eq_nil hLast
    · exact hCompleted
  have hAcross := processBytesRead_append hPending.not_full hRun₂ hCompleted.1
    (show 2 * within.length + 1 ≤ 2 * (within ++ beyond).length + 1 by
      rw [length_append]; omega) beyond
  refine ⟨context₂, ?_, hKey₂.trans hKey₁, hCompleted⟩
  rw [receiveAvailableBytesQuic, if_neg (append_ne_nil_of_left_ne_nil hWithin _), hAcross,
    bind_eq_bind, bind_some]
  dsimp only
  rw [if_neg (lt_irrefl 0), if_pos hCompleted.1, if_pos (by simpa using hBeyond)]
  rfl

end Beyond

/-! ## Any bytes at all -/

/-- No payload before the header, and no more of it than the header says. -/
def Bounded (context : RecordMarkingReceivingContext Conn) : Prop :=
  if context.currentRmFragmentReceivedHeaderBytes.length < RM_FRAGMENT_HEADER_SIZE then
    context.currentRmFragmentReceivedPayloadBytes = []
  else context.currentRmFragmentReceivedPayloadBytes.length ≤ context.currentRmFragmentExpectedSize

/-- Before a fragment. -/
theorem bounded_of_nil
    (hHeader : context.currentRmFragmentReceivedHeaderBytes = [])
    (hPayload : context.currentRmFragmentReceivedPayloadBytes = []) : Bounded context := by
  rw [Bounded, if_pos (inHeader_of_nil hHeader)]
  exact hPayload

section Rounds

variable {bytes : Bytes}

theorem receiveHeaderBytes_bounded (h : Bounded context) (hne : bytes ≠ [])
    (hHeader : context.InHeader) :
    Bounded (receiveHeaderBytes context bytes).1 ∧
      (receiveHeaderBytes context bytes).1.key = context.key ∧
      (receiveHeaderBytes context bytes).2.length < bytes.length := by
  rw [Bounded, if_pos hHeader] at h
  have hBytes : 0 < bytes.length := length_pos_iff.mpr hne
  obtain ⟨n, hn⟩ : ∃ n, RM_FRAGMENT_HEADER_SIZE -
      context.currentRmFragmentReceivedHeaderBytes.length = n := ⟨_, rfl⟩
  have hShorter : (bytes.drop n).length < bytes.length := by
    rw [length_drop]
    omega
  rw [receiveHeaderBytes_eq context bytes hn]
  split
  all_goals
    -- there is no payload yet, whether the header is complete or not
    refine ⟨?_, rfl, hShorter⟩
    unfold Bounded
    rw [h]
    split
    · rfl
    · exact Nat.zero_le _

theorem receivePayloadBytes_bounded (h : Bounded context) (hne : bytes ≠ [])
    (hHeader : ¬context.InHeader) :
    Bounded (receivePayloadBytes context bytes).1 ∧
      (receivePayloadBytes context bytes).1.key = context.key ∧
      ¬(receivePayloadBytes context bytes).1.currentRmFragmentReceivedHeaderBytes.length <
        RM_FRAGMENT_HEADER_SIZE ∧
      ((receivePayloadBytes context bytes).2.length < bytes.length ∨
        (receivePayloadBytes context bytes).2 = bytes ∧
        (receivePayloadBytes context bytes).1.currentRmFragmentReceivedPayloadBytes.length =
          (receivePayloadBytes context bytes).1.currentRmFragmentExpectedSize) := by
  have hLe := h
  rw [Bounded, if_neg hHeader] at hLe
  have hBytes : 0 < bytes.length := length_pos_iff.mpr hne
  obtain ⟨n, hn⟩ : ∃ n, context.currentRmFragmentExpectedSize -
      context.currentRmFragmentReceivedPayloadBytes.length = n := ⟨_, rfl⟩
  rw [receivePayloadBytes_eq context bytes hn]
  refine ⟨?_, rfl, hHeader, ?_⟩
  · rw [Bounded, if_neg hHeader]
    dsimp only
    rw [length_append, length_take]
    omega
  by_cases hMissing : n = 0
  -- nothing is missing, and nothing is taken
  · subst hMissing
    refine .inr ⟨drop_zero, ?_⟩
    dsimp only
    rw [take_zero, append_nil]
    omega
  · left
    rw [length_drop]
    omega

/-- An open fragment stays as it is, or the next header begins. -/
theorem completeFragment_bounded (h : Bounded context) (hHeader : ¬context.InHeader) :
    Bounded (completeFragment context).2.1 ∧ (completeFragment context).2.1.key = context.key ∧
      ((completeFragment context).1 = 0 → (completeFragment context).2.2 = false →
        context.currentRmFragmentReceivedPayloadBytes.length =
          context.currentRmFragmentExpectedSize →
        (completeFragment context).2.1.currentRmFragmentReceivedHeaderBytes = []) := by
  have hSame := h
  rw [Bounded, if_neg hHeader] at hSame
  unfold completeFragment
  dsimp only
  by_cases hDone : context.currentRmFragmentReceivedPayloadBytes.length =
      context.currentRmFragmentExpectedSize
  · rw [if_pos hDone]
    split
    · refine ⟨?_, rfl, by rintro ⟨⟩⟩
      rw [Bounded, if_neg hHeader]
      exact hSame
    · split
      · refine ⟨?_, rfl, by rintro _ ⟨⟩⟩
        rw [Bounded, if_neg hHeader]
        exact hSame
      · exact ⟨bounded_of_nil rfl rfl, rfl, fun _ _ _ => rfl⟩
  · rw [if_neg hDone]
    exact ⟨h, rfl, fun _ _ hComplete => absurd hComplete hDone⟩

end Rounds

/-- The inner loop ends. An empty payload takes a round and no byte, but a header follows. -/
theorem processBytesRead_returns (h : Bounded context) (bytes : Bytes) (hPos : 0 < fuel)
    (hFuel : 2 * bytes.length + (if context.InHeader then 0 else 1) ≤ fuel) :
    ∃ errorCode context' left, processBytesRead fuel context bytes =
      some (errorCode, context', left) ∧ Bounded context' ∧ context'.key = context.key := by
  induction fuel generalizing context bytes with
  | zero => omega
  | succ fuel ih =>
    by_cases hne : bytes = []
    · rw [processBytesRead, if_pos hne]
      exact ⟨0, context, [], rfl, h, rfl⟩
    have hBytes : 0 < bytes.length := length_pos_iff.mpr hne
    by_cases hHeader : context.InHeader
    · rw [if_pos hHeader] at hFuel
      obtain ⟨hNext, hKey, hLess⟩ := receiveHeaderBytes_bounded h hne hHeader
      obtain ⟨errorCode, context', left, hRun, hEnd, hKey'⟩ :=
        ih hNext (receiveHeaderBytes context bytes).2 (by omega) (by split <;> omega)
      rw [processBytesRead_header hne hHeader]
      exact ⟨errorCode, context', left, hRun, hEnd, hKey'.trans hKey⟩
    · rw [if_neg hHeader] at hFuel
      obtain ⟨hTaken, hKey₁, hHeader₁, hLess⟩ := receivePayloadBytes_bounded h hne hHeader
      obtain ⟨context₁, bytes₁, errorCode, context₂, fullyReceived, hTake, hComplete⟩ :=
        payloadRound context bytes
      rw [hTake] at hTaken hKey₁ hHeader₁ hLess
      dsimp only at hTaken hKey₁ hHeader₁ hLess
      obtain ⟨hNext, hKey₂, hFresh⟩ := completeFragment_bounded hTaken hHeader₁
      rw [hComplete] at hNext hKey₂ hFresh
      have hKey : context₂.key = context.key := hKey₂.trans hKey₁
      rw [processBytesRead_payload hne hHeader hTake hComplete]
      split
      · exact ⟨errorCode, context₂, bytes₁, rfl, hNext, hKey⟩
      · next hNoError =>
        cases fullyReceived with
        | true => exact ⟨0, context₂, bytes₁, rfl, hNext, hKey⟩
        | false =>
          -- a byte was taken, or the round after this one starts with a header
          have hFuel' : 2 * bytes₁.length + (if context₂.InHeader then 0 else 1) ≤ fuel := by
            rcases hLess with hLess | ⟨rfl, hWhole⟩
            · split <;> omega
            · have hNil : context₂.currentRmFragmentReceivedHeaderBytes = [] :=
                hFresh (by dsimp only; omega) rfl hWhole
              rw [if_pos (inHeader_of_nil hNil)]
              omega
          obtain ⟨errorCode', context', left, hRun, hEnd, hKey'⟩ := ih hNext bytes₁ (by omega) hFuel'
          exact ⟨errorCode', context', left, hRun, hEnd, hKey'.trans hKey⟩

/-- The outer loop ends, whatever is read. -/
theorem receiveAvailableBytesQuic_returns (h : Bounded context) (reads : List Bytes) :
    ∃ errorCode context' unread, receiveAvailableBytesQuic context reads =
      some (errorCode, context', unread) ∧ Bounded context' ∧ context'.key = context.key := by
  induction reads generalizing context with
  | nil => exact ⟨0, context, [], rfl, h, rfl⟩
  | cons readBuffer reads ih =>
    rw [receiveAvailableBytesQuic]
    split
    -- an empty read ends the loop with an error
    · exact ⟨2, context, reads, rfl, h, rfl⟩
    · obtain ⟨errorCode, context₁, left, hRun, hNext, hKey⟩ :=
        processBytesRead_returns h readBuffer (Nat.succ_pos (2 * readBuffer.length))
          (by split <;> omega)
      rw [hRun, bind_eq_bind, bind_some]
      dsimp only
      split
      · exact ⟨errorCode, context₁, reads, rfl, hNext, hKey⟩
      · split
        · split
          · exact ⟨4, context₁, reads, rfl, hNext, hKey⟩
          · exact ⟨0, context₁, reads, rfl, hNext, hKey⟩
        · obtain ⟨errorCode', context', unread, hRun', hEnd, hKey'⟩ := ih hNext
          exact ⟨errorCode', context', unread, hRun', hEnd, hKey'.trans hKey⟩

/-! ## Where the bytes of a record come from -/

/-- The bytes of its record that a context has. -/
def held (context : RecordMarkingReceivingContext Conn) : Bytes :=
  if context.recordFullyReceived then context.accumulatedPayloads
  else context.accumulatedPayloads ++ context.currentRmFragmentReceivedPayloadBytes

section Taken

variable {bytes : Bytes}

theorem held_of_open (hOpen : context.recordFullyReceived = false) :
    held context =
      context.accumulatedPayloads ++ context.currentRmFragmentReceivedPayloadBytes := by
  rw [held, if_neg (by simp [hOpen])]

theorem receiveHeaderBytes_taken (context : RecordMarkingReceivingContext Conn) (bytes : Bytes) :
    ∃ taken, bytes = taken ++ (receiveHeaderBytes context bytes).2 ∧
      held (receiveHeaderBytes context bytes).1 = held context := by
  rw [receiveHeaderBytes_eq context bytes rfl]
  refine ⟨_, (take_append_drop _ bytes).symm, ?_⟩
  split <;> rfl

theorem receivePayloadBytes_taken (hOpen : context.recordFullyReceived = false) (bytes : Bytes) :
    ∃ taken, bytes = taken ++ (receivePayloadBytes context bytes).2 ∧
      held (receivePayloadBytes context bytes).1 = held context ++ taken := by
  rw [receivePayloadBytes_eq context bytes rfl]
  refine ⟨_, (take_append_drop _ bytes).symm, ?_⟩
  unfold held
  rw [hOpen, if_neg Bool.false_ne_true, if_neg Bool.false_ne_true, append_assoc]

theorem completeFragment_held (hOpen : context.recordFullyReceived = false) :
    held (completeFragment context).2.1 = held context := by
  rw [held_of_open hOpen]
  unfold completeFragment
  dsimp only
  split
  · split
    · exact held_of_open hOpen
    · split
      · rfl
      · exact append_nil _
  · exact held_of_open hOpen

/-- What the inner loop adds to a record it has taken from the read. -/
theorem processBytesRead_taken (hOpen : context.recordFullyReceived = false)
    (hRun : processBytesRead fuel context bytes = some (errorCode, context', left)) :
    ∃ taken, bytes = taken ++ left ∧ (held context').Sublist (held context ++ taken) := by
  induction fuel generalizing context bytes with
  | zero => cases hRun
  | succ fuel ih =>
    by_cases hBytes : bytes = []
    · rw [processBytesRead, if_pos hBytes] at hRun
      cases hRun
      refine ⟨[], hBytes, ?_⟩
      rw [append_nil]
    by_cases hHeader : context.InHeader
    · -- the bytes of the header are read but not held
      rw [processBytesRead_header hBytes hHeader] at hRun
      obtain ⟨header, hSplit, hSame⟩ := receiveHeaderBytes_taken context bytes
      obtain ⟨taken, hTaken, hHeld⟩ := ih ((receiveHeaderBytes_full context bytes).trans hOpen) hRun
      refine ⟨header ++ taken, ?_, ?_⟩
      · rw [append_assoc, ← hTaken]
        exact hSplit
      · rw [hSame] at hHeld
        exact hHeld.trans (List.Sublist.append_left (sublist_append_right header taken) _)
    · obtain ⟨context₁, bytes₁, code, context₂, fullyReceived, hTake, hComplete⟩ :=
        payloadRound context bytes
      rw [processBytesRead_payload hBytes hHeader hTake hComplete] at hRun
      obtain ⟨payload, hPayload, hMore⟩ := receivePayloadBytes_taken hOpen bytes
      rw [hTake] at hPayload hMore
      have hOpen₁ : context₁.recordFullyReceived = false := by
        rw [← hOpen, ← receivePayloadBytes_full context bytes, hTake]
      have hSame : held context₂ = held context ++ payload := by
        rw [← hMore, ← completeFragment_held hOpen₁, hComplete]
      split at hRun
      · cases hRun
        exact ⟨payload, hPayload, hSame ▸ List.Sublist.refl _⟩
      · cases fullyReceived with
        | true =>
          cases hRun
          exact ⟨payload, hPayload, hSame ▸ List.Sublist.refl _⟩
        | false =>
          obtain ⟨taken, hTaken, hHeld⟩ := ih (completeFragment_open hOpen₁ hComplete) hRun
          rw [hSame, append_assoc] at hHeld
          exact ⟨payload ++ taken, by rw [hPayload, hTaken, append_assoc], hHeld⟩

end Taken

/-- The reads that a call made, and what it added to the record came from them. -/
theorem receiveAvailableBytesQuic_made
    {unread : List Bytes} (hOpen : context.recordFullyReceived = false)
    (hRun : receiveAvailableBytesQuic context reads = some (errorCode, context', unread)) :
    ∃ made, reads = made ++ unread ∧ (held context').Sublist (held context ++ made.flatten) := by
  induction reads generalizing context with
  | nil =>
    cases hRun
    refine ⟨[], rfl, ?_⟩
    rw [flatten_nil, append_nil]
  | cons readBuffer reads ih =>
    rw [receiveAvailableBytesQuic] at hRun
    split at hRun
    · cases hRun
      refine ⟨[readBuffer], rfl, sublist_append_left _ _⟩
    · rw [bind_eq_bind, bind_eq_some_iff] at hRun
      obtain ⟨⟨code, context₁, left⟩, hProcess, hRun⟩ := hRun
      dsimp only at hRun
      obtain ⟨taken, hTaken, hHeld⟩ := processBytesRead_taken hOpen hProcess
      -- what was taken of the read is part of it
      have hRead : (held context₁).Sublist (held context ++ readBuffer) := by
        refine hHeld.trans (List.Sublist.append_left ?_ _)
        rw [hTaken]
        exact sublist_append_left taken left
      have hOne : (held context₁).Sublist (held context ++ [readBuffer].flatten) := by
        rwa [flatten_singleton]
      split at hRun
      · cases hRun
        exact ⟨[readBuffer], rfl, hOne⟩
      · split at hRun
        · split at hRun
          all_goals
            cases hRun
            exact ⟨[readBuffer], rfl, hOne⟩
        · next hFull =>
          obtain ⟨made, rfl, hMade⟩ := ih (by simpa using hFull) hRun
          refine ⟨readBuffer :: made, rfl, hMade.trans ?_⟩
          rw [flatten_cons, ← append_assoc]
          exact List.Sublist.append_right hRead _

/-! ## One callback -/

variable [DecidableEq Conn]

/-- The contexts of the list are as callbacks leave them. -/
def Tidy (contexts : Contexts Conn) : Prop :=
  Single contexts ∧ ∀ key, Bounded (contextOf contexts key)

theorem tidy_nil : Tidy ([] : Contexts Conn) :=
  ⟨fun _ => by simp, fun _ => bounded_of_nil rfl rfl⟩

theorem contextOf_eq_of_find
    (h : contexts.find? (isFor key) = some context) : contextOf contexts key = context := by
  rw [contextOf, h]
  rfl

/-- **One callback, with any reads.** It returns, and what it does to the context of its
stream and to the rest of the list depends on what the reads make of the context. -/
theorem serverOnStreamReadable_returns (h : Tidy contexts) (key : Conn × Nat) (reads : List Bytes) :
    ∃ errorCode context unread readable,
      receiveAvailableBytesQuic (contextOf contexts key) reads = some (errorCode, context, unread) ∧
      serverOnStreamReadable key.1 key.2 reads contexts = some readable ∧
      Tidy readable.contexts ∧
      (readable.contexts.filter fun c => !isFor key c) = (contexts.filter fun c => !isFor key c) ∧
      if errorCode = 0 ∧ context.recordFullyReceived = true then
        readable.contexts.find? (isFor key) = none ∧ readable.failed = false ∧
          readable.handedOver = some context.accumulatedPayloads
      else readable.contexts.find? (isFor key) = some context ∧
        readable.failed = decide (errorCode ≠ 0) ∧ readable.handedOver = none := by
  obtain ⟨hSingle, hBounded⟩ := h
  obtain ⟨errorCode, context, unread, hReceive, hNext, hKey⟩ :=
    receiveAvailableBytesQuic_returns (hBounded key) reads
  rw [key_contextOf] at hKey
  obtain ⟨updated, hUpdated, hFind, hOthers, hRun⟩ :=
    serverOnStreamReadable_updated hSingle hReceive hKey
  have hNone : (contexts.filter fun c => !isFor key c).find? (isFor key) = none :=
    find?_eq_none.mpr fun c hc => by simpa using (mem_filter.mp hc).2
  -- the streams other than this one keep their contexts
  have hRest : ∀ contexts' : Contexts Conn, Bounded (contextOf contexts' key) →
      (contexts'.filter fun c => !isFor key c) = (contexts.filter fun c => !isFor key c) →
      ∀ other, Bounded (contextOf contexts' other) := by
    intro contexts' hOwn hSame other
    by_cases hOther : other = key
    · rw [hOther]
      exact hOwn
    · rw [contextOf_congr hOther hSame]
      exact hBounded other
  have hKept : Bounded (contextOf updated key) := by
    rw [contextOf_eq_of_find hFind]
    exact hNext
  refine ⟨errorCode, context, unread, ?_⟩
  by_cases hError : errorCode > 0
  · rw [if_pos hError] at hRun
    refine ⟨_, hReceive, hRun, ⟨hUpdated, hRest updated hKept hOthers⟩, hOthers, ?_⟩
    rw [if_neg (fun hDone => absurd hDone.1 (Nat.ne_of_gt hError))]
    exact ⟨hFind, (decide_eq_true (Nat.ne_of_gt hError)).symm, rfl⟩
  · rw [if_neg hError] at hRun
    obtain rfl : errorCode = 0 := by omega
    by_cases hFull : context.recordFullyReceived = true
    · rw [if_pos hFull] at hRun
      have hGone : Bounded (contextOf (contexts.filter fun c => !isFor key c) key) := by
        rw [contextOf_filter]
        exact bounded_of_nil rfl rfl
      refine ⟨_, hReceive, hRun, ⟨hSingle.filter _, hRest _ hGone (by simp)⟩, by simp, ?_⟩
      rw [if_pos ⟨rfl, hFull⟩]
      exact ⟨hNone, rfl, rfl⟩
    · rw [if_neg hFull] at hRun
      refine ⟨_, hReceive, hRun, ⟨hUpdated, hRest updated hKept hOthers⟩, hOthers, ?_⟩
      rw [if_neg (fun hDone => hFull hDone.2)]
      exact ⟨hFind, rfl, rfl⟩

/-- A callback depends on the context of its stream alone. -/
theorem serverOnStreamReadable_alike {contexts' : Contexts Conn} (h : Tidy contexts)
    (h' : Tidy contexts') {readable : Readable Conn}
    (hSame : contexts'.find? (isFor key) = contexts.find? (isFor key))
    (hRun : serverOnStreamReadable key.1 key.2 reads contexts = some readable) :
    ∃ readable', serverOnStreamReadable key.1 key.2 reads contexts' = some readable' ∧
      Tidy readable'.contexts ∧
      (readable'.contexts.filter fun c => !isFor key c) = (contexts'.filter fun c => !isFor key c) ∧
      readable'.contexts.find? (isFor key) = readable.contexts.find? (isFor key) ∧
      readable'.failed = readable.failed ∧ readable'.handedOver = readable.handedOver := by
  obtain ⟨errorCode, context, unread, _, hReceive, hRun₁, -, -, hOutcome⟩ :=
    serverOnStreamReadable_returns h key reads
  obtain ⟨errorCode', context', unread', readable', hReceive', hRun', hTidy, hOthers, hOutcome'⟩ :=
    serverOnStreamReadable_returns h' key reads
  cases hRun.symm.trans hRun₁
  have hContext : contextOf contexts' key = contextOf contexts key := by
    rw [contextOf, contextOf, hSame]
  rw [hContext] at hReceive'
  -- the same context and the same reads
  cases hReceive.symm.trans hReceive'
  refine ⟨readable', hRun', hTidy, hOthers, ?_⟩
  split at hOutcome <;> rw [hOutcome.1, hOutcome.2.1, hOutcome.2.2]
  · next hDone =>
    rwa [if_pos hDone] at hOutcome'
  · next hDone =>
    rwa [if_neg hDone] at hOutcome'

/-- The reads that a callback leaves on the stream. -/
def unreadAfter (contexts : Contexts Conn) (key : Conn × Nat) (reads : List Bytes) : List Bytes :=
  match receiveAvailableBytesQuic (contextOf contexts key) reads with
  | some (_, _, unread) => unread
  | none => []

theorem unreadAfter_eq {unread : List Bytes}
    (h : receiveAvailableBytesQuic (contextOf contexts key) reads =
      some (errorCode, context, unread)) : unreadAfter contexts key reads = unread := by
  rw [unreadAfter, h]

end QuicNfs.Transport
