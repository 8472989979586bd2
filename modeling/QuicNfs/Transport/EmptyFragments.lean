import QuicNfs.Transport.Lossless
import QuicNfs.Transport.QuicReceiving

/-!
# QuicNfs — records with empty fragments

The format allows a fragment without a payload. The two receivers, `receive_rm_record_tcp` and
`receive_available_bytes_quic`, are compared with the format on every sequence of fragments:

* `TcpFollows`, `QuicFollows` — the receiver ends with the last byte of the sequence, not
  before, reports success and yields the payloads, however the bytes are split into reads;
* `tcpFollows_iff` — over TCP that fails when all fragments are empty, since `realloc` to no
  bytes gives no buffer;
* `quicFollows_iff` — over QUIC it fails when the last fragment is empty, since its payload is
  looked at only when another byte comes, and when the first two are, since the second
  `realloc` frees the buffer;
* `receivers_follow_iff` — both together.
-/

namespace QuicNfs.Transport

open Kernel RecordMarkingReceivingContext List

/-! ## Over TCP -/

/-- `realloc` of a buffer to no bytes frees it and answers `NULL`. Without a buffer it is
`malloc`; the argument says whether that gives a buffer when no bytes are asked for. -/
def reallocC (mallocZero : Bool) (buffer : Bool) (size : Nat) : Bool :=
  if size = 0 then !buffer && mallocZero else true

/-- `receive_rm_record_tcp` with the pointer it returns. -/
def receiveRmRecordTcpInto {τ Socket : Type} (mallocZero : Bool)
    (recv : Socket → Nat → Call τ RecvResult) (socketFd : Socket) (memory : Nat → Nat → UInt8)
    (fuel : Nat) : Call τ (Option Bytes) :=
  receiveRmRecordInto (reallocC mallocZero)
    (fun bytesToRead buffer => receiveBytesTcp recv socketFd bytesToRead buffer fuel) memory fuel
    false []

/-- `receive_rm_record_tcp` follows the format on a sequence of fragments: while a byte of it is
missing the call does not return, and once all have arrived it returns the payloads and leaves
what comes after them. -/
def TcpFollows (mallocZero : Bool) (fs : List Bytes) : Prop :=
  ∀ (Socket : Type) (counts : ShortCounts) (socketFd : Socket) (memory : Nat → Nat → UInt8)
    (fuel : Nat), (encodeFragments fs).length < fuel →
    (∀ p rest, p.wire ++ rest = encodeFragments fs → rest ≠ [] →
      (receiveRmRecordTcpInto mallocZero (Pipe.recv counts) socketFd memory fuel).run p = none) ∧
    (∀ p rest, p.wire = encodeFragments fs ++ rest →
      ∃ p', (receiveRmRecordTcpInto mallocZero (Pipe.recv counts) socketFd memory fuel).run p =
        some (some fs.flatten, p') ∧ p'.wire = rest)

variable {fs : List Bytes}

section Waiting

variable {Socket : Type} {counts : ShortCounts} {socketFd : Socket}

/-- A call that asks for more than there is does not return. -/
theorem receiveBytes_waits {bytesToRead total : Nat} (hWord : bytesToRead < 2 ^ 64) {p : Pipe}
    (hShort : total + p.wire.length < bytesToRead) (fuel : Nat) (buffer : Bytes) :
    (receiveBytes (Pipe.recv counts socketFd) bytesToRead fuel total buffer).run p = none := by
  induction fuel generalizing total buffer p with
  | zero => rfl
  | succ fuel ih =>
    obtain ⟨data, hData⟩ :
        ∃ data, data = p.wire.take (counts.count p.recvs (bytesToRead - total)) := ⟨_, rfl⟩
    have hLess : data.length ≤ p.wire.length := by
      rw [hData, length_take]
      omega
    by_cases hne : data = []
    · -- nothing has arrived: this call of `recv` waits
      have hRecv : (Pipe.recv counts socketFd (bytesToRead - total)).run p = none := by
        show (if p.wire.take _ = [] then none else _) = none
        rw [← hData, if_pos hne]
      rw [receiveBytes, if_pos (by omega), StateT.run_bind, hRecv]
      rfl
    · have hPos : 0 < data.length := length_pos_iff.mpr hne
      have hRecv : (Pipe.recv counts socketFd (bytesToRead - total)).run p =
          some (.received data,
            { p with wire := p.wire.drop data.length, recvs := p.recvs + 1 }) := by
        show (if p.wire.take _ = [] then none else _) = _
        rw [← hData, if_neg hne]
      have hSize : toSize (RecvResult.received data).count = data.length :=
        toSize_natCast (by omega)
      have hNext : (total + data.length) % 2 ^ 64 = total + data.length :=
        Nat.mod_eq_of_lt (by omega)
      rw [receiveBytes_round (by omega) hRecv, hSize, if_neg (by omega), hNext]
      apply ih
      show total + data.length + (p.wire.drop data.length).length < bytesToRead
      rw [length_drop]
      omega

/-- A function that does not return while there is less than it is asked for. -/
def Waits {τ : Type} (wire : τ → Bytes) (bound : Nat)
    (receiveBytes : Nat → Bytes → Call τ (Nat × Bytes)) : Prop :=
  ∀ s bytesToRead buffer, (wire s).length < bytesToRead → bytesToRead ≤ bound →
    (receiveBytes bytesToRead buffer).run s = none

/-- While a byte of the fragments is missing, the loop does not return. -/
theorem receiveRmRecordInto_waits {τ : Type} {wire : τ → Bytes} (realloc : Bool → Nat → Bool)
    {receive : Nat → Bytes → Call τ (Nat × Bytes)} {bound : Nat}
    (hReceive : ReceivesAll wire bound receive) (hWaits : Waits wire bound receive)
    (hHeader : RM_FRAGMENT_HEADER_SIZE ≤ bound) (memory : Nat → Nat → UInt8)
    (hSize : ∀ f ∈ fs, f.length ≤ RM_MAX_FRAGMENT_DATA_SIZE ∧ f.length ≤ bound) {s : τ}
    {rest : Bytes} (hWire : wire s ++ rest = encodeFragments fs) (hRest : rest ≠ [])
    (rounds : Nat) (buffer : Bool) (acc : Bytes) :
    (receiveRmRecordInto realloc receive memory rounds buffer acc).run s = none := by
  induction fs generalizing rounds s buffer acc with
  | nil => exact absurd (append_eq_nil_iff.mp hWire).2 hRest
  | cons f fs ih =>
    cases rounds with
    | zero => rfl
    | succ rounds =>
      obtain ⟨hMax, hBound⟩ := hSize f (by simp)
      rw [encodeFragments_cons] at hWire
      by_cases hShort : (wire s).length < RM_FRAGMENT_HEADER_SIZE
      · -- in the header
        rw [receiveRmRecordInto, StateT.run_bind, hWaits s _ _ hShort hHeader]
        rfl
      obtain ⟨w, hw, hTail⟩ := exists_append_of_le hWire
        (by rw [length_fragmentHeader]; exact Nat.le_of_not_lt hShort)
      by_cases hPart : w.length < f.length
      · -- in the payload
        obtain ⟨s₁, hRun₁, hWire₁⟩ := hReceive s
          (uninitialised (memory (2 * rounds)) RM_FRAGMENT_HEADER_SIZE) _ _ (by simp) (by simpa) hw
        rw [length_fragmentHeader] at hRun₁
        rw [receiveRmRecordInto, StateT.run_bind, hRun₁, Option.bind_eq_bind, Option.bind_some]
        dsimp only
        rw [if_neg (Nat.lt_irrefl 0), fragmentSize_header hMax, StateT.run_bind,
          hWaits s₁ _ _ (by rw [hWire₁]; exact hPart) hBound]
        rfl
      -- in a later fragment
      obtain ⟨w', rfl, hTail'⟩ := exists_append_of_le hTail (Nat.le_of_not_lt hPart)
      rw [← append_assoc] at hw
      obtain ⟨s', hWire', hRun⟩ := receiveRmRecordInto_round hReceive hHeader memory hMax hBound hw
        rounds buffer acc
      have hMore : ¬decide (fs = []) = true := by
        rw [decide_eq_true_iff]
        rintro rfl
        exact hRest (append_eq_nil_iff.mp hTail').2
      rw [hRun, if_neg hMore]
      apply ih (fun g hg => hSize g (mem_cons_of_mem _ hg))
      rw [hWire', hTail']

end Waiting

/-- Once there is a byte, every `realloc` succeeds. -/
theorem bufferAfter_of_pos (mallocZero : Bool) {size : Nat} (hSize : 0 < size) (fs : List Bytes) :
    bufferAfter (reallocC mallocZero) true size fs = true := by
  induction fs generalizing size with
  | nil => rfl
  | cons f fs ih =>
    rw [bufferAfter, reallocC, if_neg (by omega)]
    exact ih (by omega)

/-- There is a buffer in the end if there is a payload; if there is none, every `realloc` frees
the buffer or makes a new one. -/
theorem bufferAfter_reallocC {mallocZero buffer : Bool} (hBuffer : buffer = true → mallocZero = true)
    (fs : List Bytes) :
    bufferAfter (reallocC mallocZero) buffer 0 fs = true ↔
      fs.flatten ≠ [] ∨ mallocZero = true ∧ (fs.length % 2 = 1 ↔ buffer = false) := by
  induction fs generalizing buffer with
  | nil =>
    rw [bufferAfter]
    revert hBuffer
    cases buffer <;> simp
  | cons f fs ih =>
    by_cases hf : f = []
    · subst hf
      have hNext : (!buffer && mallocZero) = true → mallocZero = true := by
        rw [Bool.and_eq_true]
        exact And.right
      have hReallocC : reallocC mallocZero buffer (0 + ([] : Bytes).length) =
          (!buffer && mallocZero) := rfl
      rw [bufferAfter, hReallocC, length_nil, Nat.add_zero, ih hNext, flatten_cons,
        nil_append, length_cons]
      refine or_congr_right (and_congr_right fun hZero => ?_)
      rw [hZero, Bool.and_true]
      cases buffer
      · simp only [Bool.not_false, reduceCtorEq, iff_false, iff_true]
        omega
      · simp only [Bool.not_true, reduceCtorEq, iff_false, iff_true]
        omega
    · have hPos : 0 < f.length := length_pos_iff.mpr hf
      rw [bufferAfter, reallocC, if_neg (by omega), Nat.zero_add]
      refine iff_of_true (bufferAfter_of_pos mallocZero hPos fs) (.inl ?_)
      exact append_ne_nil_of_left_ne_nil hf _

theorem length_le_encodeFragments (fs : List Bytes) :
    fs.length ≤ (encodeFragments fs).length ∧
      ∀ f ∈ fs, RM_FRAGMENT_HEADER_SIZE + f.length ≤ (encodeFragments fs).length := by
  induction fs with
  | nil => exact ⟨Nat.le_refl 0, by simp⟩
  | cons f fs ih =>
    obtain ⟨hCount, hEach⟩ := ih
    have hLength : (encodeFragments (f :: fs)).length =
        RM_FRAGMENT_HEADER_SIZE + (f.length + (encodeFragments fs).length) := by
      rw [encodeFragments_cons, length_append, length_append, length_fragmentHeader]
    have hPos : 0 < RM_FRAGMENT_HEADER_SIZE := Nat.succ_pos 3
    refine ⟨by rw [length_cons]; omega, fun g hg => ?_⟩
    rcases mem_cons.mp hg with rfl | hg
    · omega
    · have := hEach g hg
      omega

/-- Over TCP the receiver follows the format unless all fragments are empty. Then it depends on
`malloc` and on the number of fragments whether the pointer is `NULL`. -/
theorem tcpFollows_iff {mallocZero : Bool} (hne : fs ≠ [])
    (hSize : ∀ f ∈ fs, f.length ≤ RM_MAX_FRAGMENT_DATA_SIZE) :
    TcpFollows mallocZero fs ↔ fs.flatten ≠ [] ∨ mallocZero = true ∧ fs.length % 2 = 1 := by
  obtain ⟨hCount, hEach⟩ := length_le_encodeFragments fs
  have hBuffer : bufferAfter (reallocC mallocZero) false ([] : Bytes).length fs = true ↔
      fs.flatten ≠ [] ∨ mallocZero = true ∧ fs.length % 2 = 1 := by
    rw [length_nil, bufferAfter_reallocC (fun hBuffer => absurd hBuffer Bool.false_ne_true)]
    simp only [iff_true]
  rw [← hBuffer]
  -- what the loop does, whatever the pointer is
  have hRun : ∀ (Socket : Type) (counts : ShortCounts) (socketFd : Socket)
      (memory : Nat → Nat → UInt8) (fuel : Nat), (encodeFragments fs).length < fuel →
      (∀ p rest, p.wire ++ rest = encodeFragments fs → rest ≠ [] →
        (receiveRmRecordTcpInto mallocZero (Pipe.recv counts) socketFd memory fuel).run p = none) ∧
      (∀ p rest, p.wire = encodeFragments fs ++ rest →
        ∃ p', (receiveRmRecordTcpInto mallocZero (Pipe.recv counts) socketFd memory fuel).run p =
          some (if bufferAfter (reallocC mallocZero) false ([] : Bytes).length fs then
            some fs.flatten else none, p') ∧ p'.wire = rest) := by
    intro Socket counts socketFd memory fuel hFuel
    obtain ⟨f, hf⟩ := exists_mem_of_ne_nil fs hne
    have hHeader : RM_FRAGMENT_HEADER_SIZE ≤ min RM_MAX_FRAGMENT_DATA_SIZE (fuel - 1) := by
      have := hEach f hf
      exact le_min (by decide) (by omega)
    have hReceive := receivesAll_receiveBytes (Pipe.delivers_recv counts socketFd)
      (Nat.lt_of_le_of_lt (Nat.min_le_left RM_MAX_FRAGMENT_DATA_SIZE (fuel - 1)) (by decide))
      (by omega : min RM_MAX_FRAGMENT_DATA_SIZE (fuel - 1) < fuel)
    have hBound : ∀ g ∈ fs, g.length ≤ RM_MAX_FRAGMENT_DATA_SIZE ∧
        g.length ≤ min RM_MAX_FRAGMENT_DATA_SIZE (fuel - 1) := by
      intro g hg
      have := hEach g hg
      exact ⟨hSize g hg, le_min (hSize g hg) (by omega)⟩
    constructor
    · intro p rest hWire hRest
      refine receiveRmRecordInto_waits _ hReceive ?_ hHeader memory hBound hWire hRest fuel false []
      intro s bytesToRead buffer hShort hLe
      have hMax : RM_MAX_FRAGMENT_DATA_SIZE < 2 ^ 64 := by decide
      exact receiveBytes_waits (by omega) (by omega) fuel buffer
    · intro p rest hWire
      exact receiveRmRecordInto_decodes hReceive hHeader memory hne hBound (by omega) hWire _ false []
  constructor
  · intro hFollows
    obtain ⟨p', hFull, -⟩ := (hFollows Unit .single () (fun _ _ => 0) _ (Nat.lt_succ_self _)).2
      ⟨encodeFragments fs, 0, 0⟩ [] (append_nil _).symm
    obtain ⟨p'', hLoop, -⟩ := (hRun Unit .single () (fun _ _ => 0) _ (Nat.lt_succ_self _)).2
      ⟨encodeFragments fs, 0, 0⟩ [] (append_nil _).symm
    by_contra hNull
    rw [hFull, if_neg hNull] at hLoop
    cases hLoop
  · intro hKept Socket counts socketFd memory fuel hFuel
    obtain ⟨hMissing, hFull⟩ := hRun Socket counts socketFd memory fuel hFuel
    refine ⟨hMissing, fun p rest hWire => ?_⟩
    obtain ⟨p', hLoop, hRest⟩ := hFull p rest hWire
    rw [if_pos hKept] at hLoop
    exact ⟨p', hLoop, hRest⟩

/-! ## Over QUIC -/

/-- The callbacks of a stream, each with its reads, up to the end of the record or an error. -/
def receiveCallbacks {Conn : Type} (context : RecordMarkingReceivingContext Conn) :
    List (List Bytes) → Option (Nat × RecordMarkingReceivingContext Conn)
  | [] => some (0, context)
  | reads :: callbacks => do
    let (errorCode, context, _) ← receiveAvailableBytesQuic context reads
    if errorCode > 0 ∨ context.recordFullyReceived then return (errorCode, context)
    receiveCallbacks context callbacks

/-- Reads as `quic_stream_read` makes them: it fills the buffer or a part of it. -/
def Reads (callbacks : List (List Bytes)) : Prop :=
  ∀ reads ∈ callbacks, ∀ b ∈ reads, b ≠ [] ∧ b.length ≤ READ_BUF_SIZE

/-- Everything in one read. -/
theorem reads_single {b : Bytes} (hne : b ≠ []) (hLe : b.length ≤ READ_BUF_SIZE) : Reads [[b]] := by
  intro reads hReads c hc
  obtain rfl := mem_singleton.mp hReads
  obtain rfl := mem_singleton.mp hc
  exact ⟨hne, hLe⟩

/-- The QUIC receiver follows the format on a sequence of fragments: no callback fails, the
record is complete once all bytes have come and not before, and holds the payloads. -/
def QuicFollows (fs : List Bytes) : Prop :=
  ∀ (Conn : Type) (quicConnection : Conn) (streamId : Nat) (callbacks : List (List Bytes))
    (rest : Bytes), Reads callbacks → callbacks.flatten.flatten ++ rest = encodeFragments fs →
    ∃ context', receiveCallbacks (createRmReceivingContext quicConnection streamId) callbacks =
        some (0, context') ∧ context'.recordFullyReceived = decide (rest = []) ∧
      (rest = [] → context'.accumulatedPayloads = fs.flatten)

/-- What the callbacks do to a sequence of fragments whose payloads are kept. -/
theorem receiveCallbacks_pending {Conn : Type} {callbacks : List (List Bytes)}
    (hReads : Reads callbacks) {context : RecordMarkingReceivingContext Conn}
    {rest record last : Bytes}
    (h : Pending context (callbacks.flatten.flatten ++ rest) record last) :
    ∃ context', receiveCallbacks context callbacks = some (0, context') ∧
      (Pending context' rest record last ∨ rest = [] ∧ last ≠ [] ∧ Completed context' record) := by
  induction callbacks generalizing context with
  | nil => exact ⟨context, rfl, .inl h⟩
  | cons reads callbacks ih =>
    have hFirst : ∀ b ∈ reads, b ≠ [] := fun b hb => (hReads reads (by simp) b hb).1
    have hOthers : Reads callbacks := fun r hr => hReads r (mem_cons_of_mem _ hr)
    rw [flatten_cons, flatten_append, append_assoc] at h
    obtain ⟨context₁, hRun, -, hStep⟩ := receiveAvailableBytesQuic_pending hFirst h
    rw [receiveCallbacks, hRun, Option.bind_eq_bind, Option.bind_some]
    dsimp only
    rcases hStep with hPending | ⟨hRest, hLast, hCompleted⟩
    · rw [if_neg (by simp [hPending.not_full])]
      exact ih hOthers hPending
    · rw [if_pos (.inr hCompleted.1)]
      exact ⟨context₁, rfl, .inr ⟨(append_eq_nil_iff.mp hRest).2, hLast, hCompleted⟩⟩

/-- Only the second `realloc` can free the payloads of a sequence. -/
theorem kept_iff : Kept false [] fs ↔ ∀ gs, fs ≠ [] :: [] :: gs := by
  have hPayloads : ∀ (fs : List Bytes) {payloads : Bytes}, payloads ≠ [] → Kept true payloads fs := by
    intro fs
    induction fs with
    | nil => exact fun _ => trivial
    | cons f fs ih =>
      intro payloads hne
      have hMore : payloads ++ f ≠ [] := append_ne_nil_of_left_ne_nil hne f
      exact ⟨fun _ => hMore, ih hMore⟩
  match fs with
  | [] => exact iff_of_true trivial nofun
  | [f] => exact iff_of_true ⟨nofun, trivial⟩ nofun
  | f :: g :: fs =>
    have hUnfold : Kept false [] (f :: g :: fs) ↔ f ++ g ≠ [] := by
      constructor
      · intro hKept
        exact hKept.2.1 rfl
      · intro hne
        exact ⟨nofun, fun _ => hne, hPayloads fs hne⟩
    rw [hUnfold, Ne, append_eq_nil_iff]
    constructor
    · rintro hNot gs hEq
      cases hEq
      exact hNot ⟨rfl, rfl⟩
    · rintro hNot ⟨rfl, rfl⟩
      exact hNot fs rfl

/-- Every byte in a callback of its own. -/
def byteReads (bytes : Bytes) : List (List Bytes) := bytes.map fun b => [[b]]

theorem reads_byteReads (bytes : Bytes) : Reads (byteReads bytes) := by
  intro reads hReads b hb
  obtain ⟨x, -, rfl⟩ := mem_map.mp hReads
  obtain rfl := mem_singleton.mp hb
  exact ⟨cons_ne_nil x [], Nat.succ_le_succ (Nat.zero_le 9999)⟩

theorem flatten_byteReads (bytes : Bytes) : (byteReads bytes).flatten.flatten = bytes := by
  induction bytes with
  | nil => rfl
  | cons b bytes ih => exact congrArg (b :: ·) ih

/-- Two empty fragments and one byte more: the second `realloc` fails. -/
theorem receiveCallbacks_two_empty {Conn : Type} (quicConnection : Conn) (streamId : Nat)
    (b : UInt8) :
    (receiveCallbacks (createRmReceivingContext quicConnection streamId)
      [[fragmentHeader false 0 ++ (fragmentHeader false 0 ++ [b])]]).map Prod.fst = some 3 := by
  with_unfolding_all rfl

/-- The same two, and nothing after them: the record is never complete. -/
theorem receiveCallbacks_only_two_empty :
    (receiveCallbacks (createRmReceivingContext () 0) [[encodeFragments [[], []]]]).map
      (fun result => result.2.recordFullyReceived) = some false := by
  decide +kernel

/-- The payloads are kept, or a callback fails. -/
theorem QuicFollows.kept (h : QuicFollows fs) : Kept false [] fs := by
  rw [kept_iff]
  rintro gs rfl
  cases gs with
  | nil =>
    obtain ⟨context', hRun, hFull, -⟩ := h Unit () 0 [[encodeFragments [[], []]]] []
      (reads_single (by decide) (by decide)) rfl
    have hNever := receiveCallbacks_only_two_empty
    rw [hRun, Option.map_some, hFull] at hNever
    cases hNever
  | cons g gs =>
    obtain ⟨b, rest, hRest⟩ : ∃ b rest, encodeFragments (g :: gs) = b :: rest := by
      apply exists_cons_of_length_pos
      rw [encodeFragments_cons, length_append, length_fragmentHeader]
      exact Nat.add_pos_left (Nat.succ_pos 3) _
    obtain ⟨context', hRun, -⟩ := h Unit () 0
      [[fragmentHeader false 0 ++ (fragmentHeader false 0 ++ [b])]] rest
      (reads_single (cons_ne_nil _ _) (Nat.le_of_ble_eq_true rfl)) (by
        rw [encodeFragments, encodeFragments, hRest]
        simp)
    have hError := receiveCallbacks_two_empty () 0 b
    rw [hRun] at hError
    cases hError

/-- Over QUIC the receiver follows the format unless the last fragment or the first two are
empty. -/
theorem quicFollows_iff (hne : fs ≠ []) (hSize : ∀ f ∈ fs, f.length ≤ RM_MAX_FRAGMENT_DATA_SIZE) :
    QuicFollows fs ↔ fs.getLast? ≠ some [] ∧ ∀ gs, fs ≠ [] :: [] :: gs := by
  have hEnd := getLast?_eq_some_getLast hne
  rw [← kept_iff, hEnd]
  constructor
  · intro hFollows
    have hWhole := hFollows Unit () 0 (byteReads (encodeFragments fs)) []
      (reads_byteReads _) (by rw [flatten_byteReads, append_nil])
    have hKept := hFollows.kept
    refine ⟨?_, hKept⟩
    intro hLast
    -- the payload of the last fragment is never looked at
    have hStart := pending_create () 0 hSize hKept hEnd
    rw [← append_nil (encodeFragments fs), ← flatten_byteReads (encodeFragments fs)] at hStart
    obtain ⟨context', hRun, hDone⟩ := receiveCallbacks_pending (reads_byteReads _) hStart
    obtain ⟨context, hRun', hFull, -⟩ := hWhole
    cases hRun.symm.trans hRun'
    rcases hDone with hPending | ⟨-, hFilled, -⟩
    · rw [hPending.not_full] at hFull
      cases hFull
    · exact hFilled (Option.some.inj hLast)
  · rintro ⟨hLast, hKept⟩ Conn quicConnection streamId callbacks rest hReads hBytes
    have hStart := pending_create quicConnection streamId hSize hKept hEnd
    rw [← hBytes] at hStart
    obtain ⟨context', hRun, hDone⟩ := receiveCallbacks_pending hReads hStart
    refine ⟨context', hRun, ?_⟩
    rcases hDone with hPending | ⟨rfl, -, hFull, hPayloads⟩
    · have hRest : rest ≠ [] := by
        rintro rfl
        exact hLast (congrArg some hPending.last_eq_nil)
      exact ⟨by rw [hPending.not_full, decide_eq_false hRest], fun hNil => absurd hNil hRest⟩
    · exact ⟨hFull, fun _ => hPayloads⟩

/-! ## Both -/

/-- **Which sequences of fragments both receivers take.** For every sequence of fragments, empty
or not, both receivers follow the format, however its bytes are split into reads, if and only if
its last fragment has a payload and one of its first two fragments has. -/
theorem receivers_follow_iff (mallocZero : Bool) (fs : List Bytes) (hne : fs ≠ [])
    (hSize : ∀ f ∈ fs, f.length ≤ RM_MAX_FRAGMENT_DATA_SIZE) :
    TcpFollows mallocZero fs ∧ QuicFollows fs ↔
      fs.getLast? ≠ some [] ∧ ∀ gs, fs ≠ [] :: [] :: gs := by
  rw [tcpFollows_iff hne hSize, quicFollows_iff hne hSize]
  refine and_iff_right_of_imp fun ⟨hLast, _⟩ => .inl fun hEmpty => hLast ?_
  -- the payload of the last fragment is one
  rw [getLast?_eq_some_getLast hne]
  exact congrArg some (flatten_eq_nil_iff.mp hEmpty _ (getLast_mem hne))

/-- An empty fragment between two others is taken. -/
theorem receivers_follow_iff_middle :
    (∀ f ∈ ([[1], [], [2]] : List Bytes), f.length ≤ RM_MAX_FRAGMENT_DATA_SIZE) ∧
      TcpFollows true [[1], [], [2]] ∧ QuicFollows [[1], [], [2]] := by
  have hSize : ∀ f ∈ ([[1], [], [2]] : List Bytes), f.length ≤ RM_MAX_FRAGMENT_DATA_SIZE := by
    decide
  exact ⟨hSize, (receivers_follow_iff true [[1], [], [2]] (by decide) hSize).mpr ⟨by decide, nofun⟩⟩

/-- Two empty fragments, the second one the last. Over TCP all eight bytes are read and the
result is `NULL`, whatever `malloc` answers to a request for no bytes. Over QUIC the record is
not complete after all of them; nor is it after the single header of an empty record. -/
theorem empty_records_lost :
    (∀ mallocZero, ((receiveRmRecordTcpInto mallocZero (Pipe.recv .single) () (fun _ _ => 0) 9).run
      ⟨encodeFragments [[], []], 0, 0⟩).map (fun result => (result.1, result.2.wire)) =
        some (none, [])) ∧
      (receiveCallbacks (createRmReceivingContext () 0) [[encodeFragments [[], []]]]).map
        (fun result => (result.1, result.2.recordFullyReceived)) = some (0, false) ∧
      (receiveCallbacks (createRmReceivingContext () 0) [[encodeFragments [[]]]]).map
        (fun result => (result.1, result.2.recordFullyReceived)) = some (0, false) := by
  decide +kernel

end QuicNfs.Transport
