import QuicNfs.Transport.Lossless

/-!
# QuicNfs — the TCP record round trip

Records sent one after another over a TCP connection arrive as they were sent,
one per call of `receive_rm_record_tcp`, whatever counts `send` and `recv`
answer with.

* `sendRecords_encode`, `receiveRecords_decode` — sequences of records on either
  side of a lossless transport;
* `tcp_round_trip` — the round trip.
-/

namespace QuicNfs.Transport

open Kernel List

/-! ## Sequences of records -/

section Sequences

variable {τ : Type} {wire : τ → Bytes}

/-- Sending records one after another puts their encodings on the wire. -/
theorem sendRecords_encode {send : Bytes → Call τ Nat} {records : List Bytes}
    (hSend : ∀ r ∈ records, ∀ s, ∃ s', (send r).run s = some (0, s') ∧
      wire s' = wire s ++ encodeRecord r) (s : τ) :
    ∃ s', (records.mapM send).run s = some (records.map fun _ => 0, s') ∧
      wire s' = wire s ++ (records.map encodeRecord).flatten := by
  induction records generalizing s with
  | nil => exact ⟨s, rfl, by simp⟩
  | cons r records ih =>
    obtain ⟨s₁, hRun₁, hWire₁⟩ := hSend r (by simp) s
    obtain ⟨s', hRun, hWire⟩ := ih (fun r' hr' => hSend r' (mem_cons_of_mem _ hr')) s₁
    refine ⟨s', ?_, ?_⟩
    · rw [mapM_cons]
      simp [hRun₁, hRun]
    · rw [hWire, hWire₁, map_cons, flatten_cons, append_assoc]

/-- As many calls as there are parameters receive as many records, and leave the
others on the wire. -/
theorem receiveRecords_decode {α : Type} {receive : α → Call τ (Option Bytes)}
    {records : List Bytes} (hReceive : ∀ r ∈ records, ∀ a s rest, wire s = encodeRecord r ++ rest →
      ∃ s', (receive a).run s = some (some r, s') ∧ wire s' = rest)
    {calls : List α} (hCalls : calls.length ≤ records.length) {s : τ}
    (hWire : wire s = (records.map encodeRecord).flatten) :
    ∃ s', (calls.mapM receive).run s = some ((records.take calls.length).map some, s') ∧
      wire s' = ((records.drop calls.length).map encodeRecord).flatten := by
  induction calls generalizing records s with
  | nil => exact ⟨s, rfl, hWire⟩
  | cons a calls ih =>
    cases records with
    | nil => cases hCalls
    | cons r records =>
      rw [map_cons, flatten_cons] at hWire
      obtain ⟨s₁, hRun₁, hWire₁⟩ := hReceive r (by simp) a s _ hWire
      obtain ⟨s', hRun, hWire'⟩ := ih (fun r' hr' => hReceive r' (mem_cons_of_mem _ hr'))
        (Nat.le_of_succ_le_succ hCalls) hWire₁
      refine ⟨s', ?_, hWire'⟩
      rw [mapM_cons]
      simp [hRun₁, hRun]

end Sequences

/-! ## The round trip -/

variable {Socket : Type}

theorem receiveRmRecordTcp_decodes (counts : ShortCounts) (socketFd : Socket) {record : Bytes}
    (hne : record ≠ []) (hWord : record.length < 2 ^ 64) {fuel : Nat}
    (hFuel : record.length + RM_FRAGMENT_HEADER_SIZE < fuel) (memory : Nat → Nat → UInt8)
    (p : Pipe) (rest : Bytes) (hWire : p.wire = encodeRecord record ++ rest) :
    ∃ p', (receiveRmRecordTcp (Pipe.recv counts) socketFd memory fuel).run p =
      some (some record, p') ∧ p'.wire = rest := by
  have hBound : max record.length RM_FRAGMENT_HEADER_SIZE < 2 ^ 64 :=
    Nat.max_lt.mpr ⟨hWord, by decide⟩
  have hReceive : ReceivesAll Pipe.wire _ (fun bytesToRead buffer =>
      receiveBytes (Pipe.recv counts socketFd) bytesToRead fuel 0 buffer) :=
    receivesAll_receiveBytes (Pipe.delivers_recv counts socketFd) hBound (by omega)
  have hCut := cut_fragments hne
  -- a fragment is no longer than its record
  have hSize : ∀ f ∈ fragments record, f.length ≤ RM_MAX_FRAGMENT_DATA_SIZE ∧
      f.length ≤ max record.length RM_FRAGMENT_HEADER_SIZE := by
    intro f hf
    have hLe : f.length ≤ record.length := by
      have := (sublist_flatten_of_mem hf).length_le
      rwa [hCut.flatten] at this
    exact ⟨(hCut.size hf).2, le_trans hLe (Nat.le_max_left _ _)⟩
  have hRounds : (fragments record).length ≤ fuel := le_trans hCut.length_le (by omega)
  have := receiveRmRecord_decodes hReceive (Nat.le_max_right _ _) memory hCut.ne_nil hSize hRounds
    hWire []
  rwa [nil_append, hCut.flatten] at this

/-- **TCP record round trip.** Nonempty records are sent one after another, and
`send` and `recv` answer with any counts between one and what they were asked
for. All sends succeed. Any number of calls of `receive_rm_record_tcp` return the
records in the order they were sent, whatever the memory they receive into held,
and leave the encodings of the other records untouched. -/
theorem tcp_round_trip (sent received : ShortCounts) (sender receiver : Socket)
    (records : List Bytes) (hne : ∀ r ∈ records, r ≠ []) (hWord : ∀ r ∈ records, r.length < 2 ^ 64)
    (fuel : Nat) (hFuel : ∀ r ∈ records, r.length + RM_FRAGMENT_HEADER_SIZE < fuel) :
    ∃ p, (records.mapM fun r => sendRmRecordTcp (Pipe.send sent) sender r fuel).run {} =
        some (records.map fun _ => 0, p) ∧
      ∀ memories : List (Nat → Nat → UInt8), memories.length ≤ records.length →
        ∃ q, (memories.mapM fun memory =>
            receiveRmRecordTcp (Pipe.recv received) receiver memory fuel).run p =
              some ((records.take memories.length).map some, q) ∧
          q.wire = ((records.drop memories.length).map encodeRecord).flatten := by
  have hSend : ∀ r ∈ records, ∀ p, ∃ p',
      (sendRmRecordTcp (Pipe.send sent) sender r fuel).run p = some (0, p') ∧
        p'.wire = p.wire ++ encodeRecord r :=
    fun r hr p => Pipe.sendRmRecord_send sent sender (hWord r hr) (hFuel r hr) p
  obtain ⟨p, hSends, hWire⟩ := sendRecords_encode hSend {}
  refine ⟨p, hSends, fun memories hCalls => ?_⟩
  exact receiveRecords_decode
    (fun r hr memory p rest hWire => receiveRmRecordTcp_decodes received receiver (hne r hr)
      (hWord r hr) (hFuel r hr) memory p rest hWire) hCalls (by simpa using hWire)

theorem tcp_round_trip_single :
    ∃ p, ([[1, 2, 3], [4]].mapM fun r =>
        sendRmRecordTcp (Pipe.send ShortCounts.single) 3 r 8).run {} = some ([0, 0], p) ∧
      ∀ memories : List (Nat → Nat → UInt8), memories.length ≤ 2 →
        ∃ q, (memories.mapM fun memory =>
            receiveRmRecordTcp (Pipe.recv ShortCounts.single) 4 memory 8).run p =
              some ((([[1, 2, 3], [4]] : List Bytes).take memories.length).map some, q) ∧
          q.wire = ((([[1, 2, 3], [4]] : List Bytes).drop memories.length).map encodeRecord).flatten :=
  tcp_round_trip ShortCounts.single ShortCounts.single 3 4 [[1, 2, 3], [4]] (by decide) (by decide)
    8 (by decide)

end QuicNfs.Transport
