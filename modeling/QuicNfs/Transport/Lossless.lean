import QuicNfs.Transport.RecordTransfer

/-!
# QuicNfs — records over a lossless transport

What the loops of `Transport/RecordTransfer.lean` do when the transport loses
nothing, whatever short counts it answers with:

* `sendRmRecord_encodes` — a record goes out as its encoding;
* `receiveRmRecord_decodes` — an encoding comes in as its record, and nothing
  after it is touched.

The assumptions are `Accepts`, on a call that sends, and `Delivers`, on one that
receives. `wire` is the bytes that were sent and not yet received. `Pipe`, an
ordered stream of bytes with any short counts, satisfies both.
-/

namespace QuicNfs.Transport

open Kernel List Option

variable {τ : Type} {wire : τ → Bytes}

/-- The transport takes at least one of the bytes it is offered, and puts those
it takes at the end of the wire. -/
def Accepts (wire : τ → Bytes) (write : Bytes → Call τ Int) : Prop :=
  ∀ s data, data ≠ [] → ∃ (n : Nat) (s' : τ), (write data).run s = some ((n : Int), s') ∧
    0 < n ∧ n ≤ data.length ∧ wire s' = wire s ++ data.take n

/-- The transport hands out at least one byte, and takes those it hands out from
the front of the wire. Nothing is said about a call that asks for more than the
wire has. -/
def Delivers (wire : τ → Bytes) (recv : Nat → Call τ RecvResult) : Prop :=
  ∀ s n, 0 < n → n ≤ (wire s).length → ∃ data s', (recv n).run s = some (.received data, s') ∧
    data ≠ [] ∧ data.length ≤ n ∧ wire s = data ++ wire s'

theorem toSize_natCast {n : Nat} (h : n < 2 ^ 64) : toSize n = n := by
  unfold toSize
  omega

/-! ## Sending -/

/-- The loop invariant: what was sent and what is left make up the buffer. -/
theorem sendBytes_accepts {write : Bytes → Call τ Int} (hWrite : Accepts wire write)
    {buffer : Bytes} (hWord : buffer.length < 2 ^ 64) {fuel total : Nat}
    (hTotal : total ≤ buffer.length) (hFuel : buffer.length - total < fuel) (s : τ) :
    ∃ s', (sendBytes write buffer fuel total).run s = some (0, s') ∧
      wire s' = wire s ++ buffer.drop total := by
  induction fuel generalizing total s with
  | zero => omega
  | succ fuel ih =>
    by_cases hDone : buffer.length ≤ total
    · refine ⟨s, sendBytes_done hDone fuel s, ?_⟩
      rw [drop_eq_nil_of_le hDone, append_nil]
    · have hRest : buffer.drop total ≠ [] := length_pos_iff.mp (by rw [length_drop]; omega)
      obtain ⟨n, s₁, hRun, hPos, hLe, hWire⟩ := hWrite s (buffer.drop total) hRest
      rw [length_drop] at hLe
      have hSize : toSize n = n := toSize_natCast (by omega)
      -- the counter does not wrap: it stays within the buffer
      have hNext : (total + n) % 2 ^ 64 = total + n := Nat.mod_eq_of_lt (by omega)
      obtain ⟨s', hLoop, hWire'⟩ := @ih (total + n) (by omega) (by omega) s₁
      refine ⟨s', ?_, ?_⟩
      · rw [sendBytes_round (Nat.lt_of_not_le hDone) hRun, hSize, if_neg (by omega), hNext, hLoop]
      · rw [hWire', hWire, append_assoc, ← drop_drop, take_append_drop]

/-- A function that sends buffers up to a size whole. -/
def SendsAll (wire : τ → Bytes) (bound : Nat) (sendBytes : Bytes → Call τ Nat) : Prop :=
  ∀ s buffer, buffer.length ≤ bound →
    ∃ s', (sendBytes buffer).run s = some (0, s') ∧ wire s' = wire s ++ buffer

theorem sendsAll_sendBytes {write : Bytes → Call τ Int} (hWrite : Accepts wire write)
    {fuel bound : Nat} (hWord : bound < 2 ^ 64) (hFuel : bound < fuel) :
    SendsAll wire bound (fun buffer => sendBytes write buffer fuel 0) := by
  intro s buffer hBound
  obtain ⟨s', hRun, hWire⟩ :=
    sendBytes_accepts hWrite (Nat.lt_of_le_of_lt hBound hWord) (Nat.zero_le _)
      (by omega : buffer.length - 0 < fuel) s
  exact ⟨s', hRun, by simpa using hWire⟩

theorem sendRmRecord_encodes {send : Bytes → Call τ Nat} {bound : Nat}
    (hSend : SendsAll wire bound send) (hHeader : RM_FRAGMENT_HEADER_SIZE ≤ bound)
    {left : Bytes} (hBound : left.length ≤ bound) {rounds : Nat} (hRounds : left.length < rounds)
    (s : τ) :
    ∃ s', (sendRmRecord send rounds left).run s = some (0, s') ∧
      wire s' = wire s ++ encodeRecord left := by
  induction rounds generalizing left s with
  | zero => omega
  | succ rounds ih =>
    by_cases hne : left = []
    · subst hne
      exact ⟨s, rfl, (append_nil _).symm⟩
    · obtain ⟨n, hn⟩ : ∃ n, n = nextFragmentSize left.length := ⟨_, rfl⟩
      have hLe : n ≤ left.length := hn ▸ nextFragmentSize_le _
      have hPos : 0 < n := hn ▸ nextFragmentSize_pos (length_pos_iff.mpr hne)
      obtain ⟨s₁, hRun₁, hWire₁⟩ := hSend s (fragmentHeader (left.length = n) n)
        (by rw [length_fragmentHeader]; exact hHeader)
      obtain ⟨s₂, hRun₂, hWire₂⟩ := hSend s₁ (left.take n) (by rw [length_take]; omega)
      obtain ⟨s', hRun, hWire⟩ := @ih (left.drop n)
        (by rw [length_drop]; omega) (by rw [length_drop]; omega) s₂
      refine ⟨s', ?_, ?_⟩
      · rw [sendRmRecord_round hne hn, StateT.run_bind, hRun₁, bind_eq_bind,
          bind_some, if_neg (Nat.lt_irrefl 0), StateT.run_bind, hRun₂, bind_eq_bind,
          bind_some, if_neg (Nat.lt_irrefl 0), hRun]
      · rw [hWire, hWire₂, hWire₁, encodeRecord_step hne, ← hn]
        simp only [append_assoc]

/-! ## Receiving -/

theorem store_of_le {buffer : Bytes} {offset : Nat} (h : offset ≤ buffer.length) (data : Bytes) :
    (store buffer offset data).take (offset + data.length) = buffer.take offset ++ data := by
  have hTake : (buffer.take offset ++ data).length = offset + data.length := by
    rw [length_append, length_take_of_le h]
  unfold store
  rw [← hTake, take_left]

theorem length_store {buffer data : Bytes} {offset : Nat}
    (h : offset + data.length ≤ buffer.length) :
    (store buffer offset data).length = buffer.length := by
  unfold store
  rw [length_append, length_append, length_take, length_drop]
  omega

/-- The loop invariant: the filled part of the buffer and what is missing of the
message make up what the call should return. -/
theorem receiveBytes_delivers {recv : Nat → Call τ RecvResult} (hRecv : Delivers wire recv)
    {bytesToRead : Nat} (hWord : bytesToRead < 2 ^ 64) {fuel total : Nat} {buffer data rest : Bytes}
    (hBuffer : buffer.length = bytesToRead) (hTotal : total + data.length = bytesToRead)
    (hFuel : data.length < fuel) {s : τ} (hWire : wire s = data ++ rest) :
    ∃ s', (receiveBytes recv bytesToRead fuel total buffer).run s =
        some ((0, buffer.take total ++ data), s') ∧ wire s' = rest := by
  induction fuel generalizing total buffer data s with
  | zero => omega
  | succ fuel ih =>
    by_cases hDone : bytesToRead ≤ total
    · have hNil : data = [] := length_eq_zero_iff.mp (by omega)
      subst hNil
      refine ⟨s, ?_, hWire⟩
      rw [receiveBytes_done hDone, append_nil, take_of_length_le (by omega)]
    · have hAvail : bytesToRead - total ≤ (wire s).length := by
        rw [hWire, length_append]
        omega
      obtain ⟨d, s₁, hRun, hne, hLe, hSplit⟩ := hRecv s (bytesToRead - total) (by omega) hAvail
      have hPos : 0 < d.length := length_pos_iff.mpr hne
      -- what came in is the front of what is missing
      obtain ⟨data', rfl, hWire₁⟩ := exists_append_of_le (hWire.symm.trans hSplit) (by omega)
      rw [length_append] at hTotal hFuel
      have hSize : toSize (RecvResult.received d).count = d.length := toSize_natCast (by omega)
      have hNext : (total + d.length) % 2 ^ 64 = total + d.length := Nat.mod_eq_of_lt (by omega)
      obtain ⟨s', hLoop, hWire'⟩ := @ih (total + d.length) (store buffer total d) data'
        (by rw [length_store (by omega), hBuffer]) (by omega) (by omega) s₁ hWire₁.symm
      refine ⟨s', ?_, hWire'⟩
      rw [receiveBytes_round (Nat.lt_of_not_le hDone) hRun, hSize, if_neg (by omega), hNext]
      rw [show (RecvResult.received d).data = d from rfl, hLoop, store_of_le (by omega),
        append_assoc]

/-- A function that fills buffers up to a size from the front of the wire. -/
def ReceivesAll (wire : τ → Bytes) (bound : Nat)
    (receiveBytes : Nat → Bytes → Call τ (Nat × Bytes)) : Prop :=
  ∀ s buffer data rest, buffer.length = data.length → data.length ≤ bound →
    wire s = data ++ rest →
      ∃ s', (receiveBytes data.length buffer).run s = some ((0, data), s') ∧ wire s' = rest

theorem receivesAll_receiveBytes {recv : Nat → Call τ RecvResult} (hRecv : Delivers wire recv)
    {fuel bound : Nat} (hWord : bound < 2 ^ 64) (hFuel : bound < fuel) :
    ReceivesAll wire bound (fun bytesToRead buffer => receiveBytes recv bytesToRead fuel 0 buffer) := by
  intro s buffer data rest hBuffer hBound hWire
  obtain ⟨s', hRun, hWire'⟩ := receiveBytes_delivers hRecv (by omega) hBuffer
    (Nat.zero_add _) (by omega : data.length < fuel) hWire
  exact ⟨s', by simpa using hRun, hWire'⟩

/-- One round of `receiveRmRecordInto` receives one fragment. -/
theorem receiveRmRecordInto_round {realloc : Bool → Nat → Bool}
    {receive : Nat → Bytes → Call τ (Nat × Bytes)} {bound : Nat}
    (hReceive : ReceivesAll wire bound receive) (hHeader : RM_FRAGMENT_HEADER_SIZE ≤ bound)
    (memory : Nat → Nat → UInt8) {isLast : Bool} {f rest : Bytes}
    (hSize : f.length ≤ RM_MAX_FRAGMENT_DATA_SIZE) (hBound : f.length ≤ bound) {s : τ}
    (hWire : wire s = fragmentHeader isLast f.length ++ f ++ rest) (rounds : Nat) (buffer : Bool)
    (acc : Bytes) :
    ∃ s', wire s' = rest ∧
      (receiveRmRecordInto realloc receive memory (rounds + 1) buffer acc).run s =
        if isLast then
          some (if realloc buffer (acc.length + f.length) then some (acc ++ f) else none, s')
        else (receiveRmRecordInto realloc receive memory rounds
          (realloc buffer (acc.length + f.length)) (acc ++ f)).run s' := by
  rw [append_assoc] at hWire
  obtain ⟨s₁, hRun₁, hWire₁⟩ := hReceive s
    (uninitialised (memory (2 * rounds)) RM_FRAGMENT_HEADER_SIZE) _ _ (by simp) (by simpa) hWire
  obtain ⟨s₂, hRun₂, hWire₂⟩ := hReceive s₁
    (uninitialised (memory (2 * rounds + 1)) f.length) _ _ (by simp) hBound hWire₁
  refine ⟨s₂, hWire₂, ?_⟩
  rw [length_fragmentHeader] at hRun₁
  rw [receiveRmRecordInto, StateT.run_bind, hRun₁, bind_eq_bind, bind_some]
  dsimp only
  rw [if_neg (Nat.lt_irrefl 0), fragmentSize_header hSize, isLastFragment_header hSize,
    StateT.run_bind, hRun₂, bind_eq_bind, bind_some]
  dsimp only
  rw [if_neg (Nat.lt_irrefl 0)]
  cases isLast with
  | true => rfl
  | false => rfl

/-- Whether there is a buffer after the fragments: one `realloc` for each. -/
def bufferAfter (realloc : Bool → Nat → Bool) : Bool → Nat → List Bytes → Bool
  | buffer, _, [] => buffer
  | buffer, size, f :: fs =>
    bufferAfter realloc (realloc buffer (size + f.length)) (size + f.length) fs

theorem bufferAfter_true (buffer : Bool) (size : Nat) {fs : List Bytes} (hne : fs ≠ []) :
    bufferAfter (fun _ _ => true) buffer size fs = true := by
  induction fs generalizing buffer size with
  | nil => exact absurd rfl hne
  | cons f fs ih =>
    cases fs with
    | nil => rfl
    | cons g fs => exact ih true (size + f.length) (cons_ne_nil g fs)

section Decodes

variable {receive : Nat → Bytes → Call τ (Nat × Bytes)} {bound : Nat}
  (hReceive : ReceivesAll wire bound receive) (hHeader : RM_FRAGMENT_HEADER_SIZE ≤ bound)
  (memory : Nat → Nat → UInt8) {fs : List Bytes} (hne : fs ≠ [])
  (hSize : ∀ f ∈ fs, f.length ≤ RM_MAX_FRAGMENT_DATA_SIZE ∧ f.length ≤ bound) {rounds : Nat}
  (hRounds : fs.length ≤ rounds) {s : τ} {rest : Bytes}
  (hWire : wire s = encodeFragments fs ++ rest)
include hReceive hHeader hne hSize hRounds hWire

theorem receiveRmRecordInto_decodes (realloc : Bool → Nat → Bool) (buffer : Bool) (acc : Bytes) :
    ∃ s', (receiveRmRecordInto realloc receive memory rounds buffer acc).run s =
      some (if bufferAfter realloc buffer acc.length fs then some (acc ++ fs.flatten) else none,
        s') ∧ wire s' = rest := by
  induction fs generalizing rounds s buffer acc with
  | nil => exact absurd rfl hne
  | cons f fs ih =>
    obtain ⟨hMax, hBound⟩ := hSize f (by simp)
    obtain ⟨rounds, rfl⟩ : ∃ m, rounds = m + 1 := by
      rw [length_cons] at hRounds
      exact ⟨rounds - 1, by omega⟩
    cases fs with
    | nil =>
      rw [encodeFragments] at hWire
      obtain ⟨s', hWire', hRun⟩ :=
        receiveRmRecordInto_round hReceive hHeader memory hMax hBound hWire rounds buffer acc
      refine ⟨s', ?_, hWire'⟩
      rw [hRun, if_pos rfl, bufferAfter, bufferAfter, flatten_cons, flatten_nil, append_nil]
    | cons g fs =>
      rw [encodeFragments, append_assoc] at hWire
      obtain ⟨s₁, hWire₁, hRun⟩ :=
        receiveRmRecordInto_round hReceive hHeader memory hMax hBound hWire rounds buffer acc
      obtain ⟨s', hLoop, hWire'⟩ := ih (by simp) (fun h hh => hSize h (mem_cons_of_mem _ hh))
        (Nat.le_of_succ_le_succ hRounds) hWire₁ (realloc buffer (acc.length + f.length)) (acc ++ f)
      refine ⟨s', ?_, hWire'⟩
      rw [hRun, if_neg (by simp), hLoop, append_assoc, ← flatten_cons, length_append]
      rfl

theorem receiveRmRecord_decodes (acc : Bytes) :
    ∃ s', (receiveRmRecord receive memory rounds acc).run s =
      some (some (acc ++ fs.flatten), s') ∧ wire s' = rest := by
  obtain ⟨s', hRun, hWire'⟩ :=
    receiveRmRecordInto_decodes hReceive hHeader memory hne hSize hRounds hWire (fun _ _ => true)
      false acc
  rw [bufferAfter_true false acc.length hne, if_pos rfl] at hRun
  rw [receiveRmRecord_eq_into receive memory rounds false]
  exact ⟨s', hRun, hWire'⟩

end Decodes

/-! ## One direction of a connection -/

/-- The answers of a sequence of calls: the `k`-th call, asked for `n` bytes,
does at least one and at most `n` of them. -/
structure ShortCounts where
  count : Nat → Nat → Nat
  pos : ∀ k n, 0 < n → 0 < count k n
  le : ∀ k n, count k n ≤ n

/-- Every call does a single byte. -/
def ShortCounts.single : ShortCounts where
  count _ n := min 1 n
  pos _ _ h := by omega
  le _ _ := by omega

/-- One direction of a connection: the bytes under way, and how many calls were
made at either end. -/
structure Pipe where
  wire : Bytes := []
  sends : Nat := 0
  recvs : Nat := 0
deriving DecidableEq, Repr

namespace Pipe

variable {Socket : Type}

def send (counts : ShortCounts) (_socketFd : Socket) (data : Bytes) : Call Pipe Int := fun p =>
  let n := counts.count p.sends data.length
  some (n, { p with wire := p.wire ++ data.take n, sends := p.sends + 1 })

/-- `recv` waits while there is nothing to receive. -/
def recv (counts : ShortCounts) (_socketFd : Socket) (n : Nat) : Call Pipe RecvResult := fun p =>
  let data := p.wire.take (counts.count p.recvs n)
  if data = [] then none
  else some (.received data, { p with wire := p.wire.drop data.length, recvs := p.recvs + 1 })

theorem accepts_send (counts : ShortCounts) (socketFd : Socket) :
    Accepts Pipe.wire (send counts socketFd) := by
  intro p data hne
  have hPos : 0 < data.length := length_pos_iff.mpr hne
  exact ⟨_, _, rfl, counts.pos _ _ hPos, counts.le _ _, rfl⟩

theorem delivers_recv (counts : ShortCounts) (socketFd : Socket) :
    Delivers Pipe.wire (recv counts socketFd) := by
  intro p n hPos hAvail
  have hCount := counts.pos p.recvs n hPos
  have hLe := counts.le p.recvs n
  have hLength : (p.wire.take (counts.count p.recvs n)).length = counts.count p.recvs n :=
    length_take_of_le (Nat.le_trans hLe hAvail)
  have hne : p.wire.take (counts.count p.recvs n) ≠ [] := length_pos_iff.mp (by omega)
  refine ⟨_, _, if_neg hne, hne, by omega, ?_⟩
  rw [hLength, take_append_drop]

/-- A record is sent whole, over TCP and over QUIC alike. -/
theorem sendRmRecord_send (counts : ShortCounts) (socketFd : Socket) {record : Bytes}
    (hWord : record.length < 2 ^ 64) {fuel : Nat}
    (hFuel : record.length + RM_FRAGMENT_HEADER_SIZE < fuel) (p : Pipe) :
    ∃ p', (sendRmRecord (fun buffer => sendBytes (send counts socketFd) buffer fuel 0) fuel
        record).run p = some (0, p') ∧ p'.wire = p.wire ++ encodeRecord record := by
  have hBound : max record.length RM_FRAGMENT_HEADER_SIZE < 2 ^ 64 :=
    Nat.max_lt.mpr ⟨hWord, by decide⟩
  have hSend : SendsAll Pipe.wire _ (fun buffer => sendBytes (send counts socketFd) buffer fuel 0) :=
    sendsAll_sendBytes (accepts_send counts socketFd) hBound (by omega)
  exact sendRmRecord_encodes hSend (Nat.le_max_right _ _) (Nat.le_max_left _ _) (by omega) p

end Pipe

end QuicNfs.Transport
